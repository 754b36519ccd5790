import DataBinding.Proofs.Access.Nearest
import DataBinding.Proofs.Compiled.Getter

/-!
# Reads through accessors and by the evaluator

Both look for the member again, by its name on the receiver's type, and both pass over a member of the other kind.
Accessors pass over static members too, and the evaluator does not. So an accessor reads what the evaluator reads
unless the nearest declaration of the name is a static member of the same kind (`accessor_reads_visible`).
-/

namespace DataBinding

open Effect

section
variable {types : TypeTable} {m : Member} {v : Value} {u : TypeId}

theorem visibleFrom_of_found (hs : m.isStatic = false) (hv : v.type? = some u) {found : Member}
    (hf : types.member? u m.name = some found) (hk : found.kind = m.kind) : m.visibleFrom types v = found := by
  rw [visibleFrom_instance hs hv, hf, Option.filter_some_pos (by simp [hk]), Option.getD_some]

theorem eval_member_constant {host : Host} (hv : v.type? = some u) (node : NodeId) (t : TypeId) (n : Option String) :
    (Expr.member node (.constant v t n) m).eval host = (m.visibleFrom host.types v).read host v := by
  unfold Expr.eval Expr.eval
  rw [pure_bind, if_neg (by simp [Value.isNull_of_type? hv])]

end

/-- On every receiver an accessor reads an instance member as the evaluator does, unless a static member of the same
kind is declared nearest under its name. The accessor then reads the member itself and the evaluator the static one. -/
theorem accessor_reads_visible {host : Host} {m : Member}
    (hm : host.types.declaredMember? m.name m.id.owner = some m) (hs : m.isStatic = false)
    {finds : List (Member × TypeId)} (hf : ∀ f ∈ finds, f.1 ∈ host.types.declaredMembers f.1.id.owner)
    {v : Value} {u : TypeId} (hv : v.type? = some u) (node : NodeId) (t : TypeId) (n : Option String) :
    ((∀ found, host.types.member? u m.name = some found → found.kind = m.kind → found.isStatic = false) →
      ((AccessorCache.after host.types finds).find host.types m u).1.get host v =
        (Expr.member node (.constant v t n) m).eval host) ∧
    (∀ found, host.types.member? u m.name = some found → found.kind = m.kind → found.isStatic = true →
      ((AccessorCache.after host.types finds).find host.types m u).1.get host v = m.read host v ∧
        (Expr.member node (.constant v t n) m).eval host = found.read host v) := by
  rw [AccessorCache.find_after hf (TypeTable.mem_of_declaredMember? hm).1, eval_member_constant hv]
  constructor
  · intro hinst
    have hvis := visibleFrom_isStatic_of_found hs hv hinst
    exact get_instance (resolve_eq_visibleFrom hm hv hs hvis) hvis
  · intro found hfound hkind hstatic
    have hres : Accessor.resolve host.types m u = m := resolve_other hfound fun hmatch => by
      rw [hmatch.2.2] at hstatic
      cases hstatic
    constructor
    · simp only [Accessor.get, Accessor.on, hres, hs, Bool.false_eq_true, if_false]
    · rw [visibleFrom_of_found hs hv hfound hkind]

/-! ## Sensors -/

namespace Sensors

def sensor : TypeInfo :=
  { name := "Sensor", members := [⟨"Level", .property, .int, false, some (.slot "level"), none⟩] }

def probe : TypeInfo :=
  { name := "Probe", base := some ⟨5⟩, members := [⟨"Level", .field, .int, false, some (.slot "raw"), none⟩] }

def tuned : TypeInfo :=
  { name := "TunedProbe", base := some ⟨6⟩
    members := [⟨"Level", .property, .int, false, some (.slot "tuned"), none⟩] }

def dummy : TypeInfo :=
  { name := "Dummy", base := some ⟨5⟩, members := [⟨"Level", .property, .int, true, some (.fixed (.integer 5)), none⟩] }

def host : Host := ⟨⟨⟨[dummy, tuned, probe, sensor]⟩, fun _ => "Model", none⟩, fun _ => pure ()⟩

def level : Member := { sensor.members[0] with id := ⟨⟨5⟩, 0⟩ }

def device (t : TypeId) : Value := .object ⟨"device", t, .model⟩

def state : World :=
  ((({} : World).setSlot "device" "level" (.integer 1)).setSlot "device" "raw" (.integer 2)).setSlot "device" "tuned"
    (.integer 3)

def access (t : TypeId) : Expr := .member ⟨0⟩ (.constant (device t) t none) level

/-- What was looked up before: the level on sensors, probes and dummies. -/
def finds : List (Member × TypeId) := [(level, ⟨5⟩), (level, ⟨6⟩), (level, ⟨8⟩)]

/-- A tuned probe is read by its own level, past the field of the probe in between. -/
theorem tuned_level_read :
    ((AccessorCache.after host.types finds).find host.types level ⟨7⟩).1.get host (device ⟨7⟩) =
        (access ⟨7⟩).eval host ∧
      (access ⟨7⟩).eval host state = .ok (.integer 3) state := by
  have hdecl : host.types.declaredMember? level.name level.id.owner = some level := rfl
  have hfinds : ∀ f ∈ finds, f.1 ∈ host.types.declaredMembers f.1.id.owner := by
    intro f hf
    have hlevel : f.1 = level := by
      simp only [finds, List.mem_cons, List.not_mem_nil, or_false] at hf
      rcases hf with rfl | rfl | rfl <;> rfl
    rw [hlevel]
    exact (TypeTable.mem_of_declaredMember? hdecl).1
  refine ⟨(accessor_reads_visible hdecl rfl hfinds rfl ⟨0⟩ ⟨7⟩ none).1 ?_, rfl⟩
  rintro found ⟨⟩ -
  rfl

/-- The evaluator reads the constant of a dummy where the accessor reads what the dummy has measured. -/
theorem dummy_level_differs :
    host.types.declaredMember? level.name level.id.owner = some level ∧ level.isStatic = false ∧
      host.types.isAssignable level.id.owner ⟨8⟩ = true ∧ (device ⟨8⟩).type? = some ⟨8⟩ ∧
      (AccessorCache.find host.types {} level ⟨8⟩).1.get host (device ⟨8⟩) state = .ok (.integer 1) state ∧
      (access ⟨8⟩).eval host state = .ok (.integer 5) state :=
  ⟨rfl, rfl, rfl, rfl, rfl, rfl⟩

end Sensors

end DataBinding
