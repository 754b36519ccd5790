import DataBinding.Proofs.Compiled.Agree
import DataBinding.Proofs.Schema.Nearest

/-!
# Dispatch by the receiver

A virtual method can be named through each type that derives from the declaring one. What runs hangs on the receiver
alone if the method that the name means there is virtual again, or is what runs anyway (`dispatched_by_receiver`). A
method that overrides a virtual one is not virtual by that.
-/

namespace DataBinding

open Effect TypeTable

/-- On receivers of a type, calls of both methods do the same: in the evaluator, and where both are compiled. -/
structure SameCalls (host : Host) (r : TypeId) (m m' : Method) : Prop where
  evaluated : ∀ (target : Expr) (args : List Expr) (w : World),
    (∀ v w', target.eval host w = .ok v w' → v.type? = some r) →
    (Expr.call target m args).eval host w = (Expr.call target m' args).eval host w
  compiled : ∀ (target : Expr) (args : List Expr) (s s₁ s₂ : Workbench) (g g' : Getter),
    (Expr.call target m args).getter? host s = .ok (some g) s₁ →
    (Expr.call target m' args).getter? host s = .ok (some g') s₂ →
    s₁ = s₂ ∧ ∃ d d' x gs, g = .call d (x :: gs) ∧ g' = .call d' (x :: gs) ∧
      ∀ w, (∀ v w', x.run host w = .ok v w' → v.type? = some r) → g.run host w = g'.run host w

section
variable {host : Host} {r : TypeId} {m m' : Method}

theorem evaluated_of_override (ho : host.types.override r m = host.types.override r m') {target : Expr}
    {args : List Expr} {w : World} (hr : ∀ v w', target.eval host w = .ok v w' → v.type? = some r) :
    (Expr.call target m args).eval host w = (Expr.call target m' args).eval host w := by
  unfold Expr.eval
  refine bind_congr_of_ok fun v w' hv => ?_
  have hu := hr v w' hv
  rw [if_neg (by simp [Value.isNull_of_type? hu]), if_neg (by simp [Value.isNull_of_type? hu]),
    Method.visibleFrom_of_type? hu, Method.visibleFrom_of_type? hu, ho]

theorem dispatched_of_override (hs : m.isStatic = false) (hs' : m'.isStatic = false)
    (ho : host.types.override r m = host.types.override r m') {d d' : Dispatch}
    (hd : Expr.dispatchOf host m = .ok d) (hd' : Expr.dispatchOf host m' = .ok d') {x : Getter} {gs : List Getter}
    {w : World} (hr : ∀ v w', x.run host w = .ok v w' → v.type? = some r) :
    (Getter.call d (x :: gs)).run host w = (Getter.call d' (x :: gs)).run host w := by
  unfold Getter.run Getter.runAll
  simp only [bind_assoc, pure_bind]
  refine bind_congr_of_ok fun v w' hv => bind_congr_of_ok fun vs w'' _ => ?_
  have hu := hr v w' hv
  rw [dispatch_on hs hd hu, dispatch_on hs' hd' hu, on_instance hs, on_instance hs', ho]

theorem sameCalls_of_override (hs : m.isStatic = false) (hs' : m'.isStatic = false)
    (ho : host.types.override r m = host.types.override r m') : SameCalls host r m m' where
  evaluated _ _ _ hr := evaluated_of_override ho hr
  compiled target args s s₁ s₂ g g' hg hg' := by
    obtain ⟨x, gs, d, s₀, hx, hgs, -, hd, rfl⟩ := Expr.getter?_call_eq_some hs hg
    obtain ⟨x', gs', d', s₀', hx', hgs', -, hd', rfl⟩ := Expr.getter?_call_eq_some hs' hg'
    cases hx.symm.trans hx'
    cases hgs.symm.trans hgs'
    exact ⟨rfl, d, d', x, gs, rfl, rfl, fun w hr => dispatched_of_override hs hs' ho hd hd' hr⟩

end

section
variable {types : TypeTable} {t : TypeId} {m : Method}

theorem method?_in_front (hm : m ∈ types.declaredMethods m.id.owner) (ho : m.id.owner ∈ types.lineage t) :
    ∃ found, types.method? t m.name m.arity = some found ∧
      ∃ a ∈ types.lineage t, m.id.owner ∈ types.lineage a ∧ types.declaredMethod? m.name m.arity a = some found := by
  obtain ⟨found, hfound⟩ := exists_method? hm ho
  have hsome : (types.declaredMethod? m.name m.arity m.id.owner).isSome = true :=
    List.find?_isSome.mpr ⟨m, hm, by simp⟩
  exact ⟨found, hfound, findSome?_in_front hfound ho hsome⟩

theorem override_named {named found : Method} (hn : named.name = m.name ∧ named.arity = m.arity)
    (hf : types.method? t m.name m.arity = some found) (hs : found.isStatic = false) :
    types.override t named = if named.isVirtual then found else named := by
  cases hv : named.isVirtual with
  | true =>
    rw [← hn.1, ← hn.2] at hf
    rw [override_of_first hv hf, hs]
    rfl
  | false => exact override_not_virtual hv

end

/-- Between the type that declares a virtual instance method and that of the receiver only instance methods are declared
under its name and its number of parameters. Then what the name means on a type between them is overridden as the
method is exactly if it is virtual too, or is itself what is found on the receiver; and their calls do the same. -/
theorem dispatched_by_receiver {host : Host} {m : Method} {b r : TypeId}
    (hm : m ∈ host.types.declaredMethods m.id.owner) (hv : m.isVirtual = true) (hs : m.isStatic = false)
    (hb : host.types.isAssignable m.id.owner b = true) (hr : host.types.isAssignable b r = true)
    (hi : ∀ t, host.types.isAssignable m.id.owner t = true → host.types.isAssignable t r = true →
      ∀ x, host.types.declaredMethod? m.name m.arity t = some x → x.isStatic = false) :
    ∃ named found, host.types.method? b m.name m.arity = some named ∧
      host.types.method? r m.name m.arity = some found ∧ host.types.override r m = found ∧
      (host.types.override r named = found ↔ named.isVirtual = true ∨ named = found) ∧
      (named.isVirtual = true ∨ named = found → SameCalls host r named m) := by
  simp only [isAssignable, decide_eq_true_eq] at hb hr hi
  -- Both are declared at `m.id.owner` or in front of it, where only instance methods stand.
  obtain ⟨named, hnamed, a, hab, hoa, ha⟩ := method?_in_front hm hb
  obtain ⟨found, hfound, c, hcr, hoc, hc⟩ := method?_in_front hm (lineage_trans hb hr)
  have hnamedInstance : named.isStatic = false := hi a hoa (lineage_trans hab hr) named ha
  have hfoundInstance : found.isStatic = false := hi c hoc hcr found hc
  have hoverride : host.types.override r m = found := by
    rw [override_named ⟨rfl, rfl⟩ hfound hfoundInstance, if_pos hv]
  have hiff : host.types.override r named = found ↔ named.isVirtual = true ∨ named = found := by
    rw [override_named (mem_of_declaredMethod? ha).2 hfound hfoundInstance]
    split
    · rename_i hvirtual
      exact iff_of_true rfl (.inl hvirtual)
    · rename_i hfixed
      exact ⟨.inr, fun h => h.resolve_left hfixed⟩
  exact ⟨named, found, hnamed, hfound, hoverride, hiff,
    fun h => sameCalls_of_override hnamedInstance hs ((hiff.mpr h).trans hoverride.symm)⟩

/-! ## Ships -/

namespace Ships

def sailing (knots : Int64) (isVirtual : Bool) : MethodSpec :=
  ⟨"Speed", [], some .int, isVirtual, .object, { result := .constant (.integer knots) }⟩

def ship : TypeInfo := { name := "Ship", methods := [sailing 5 true] }

def steamer : TypeInfo := { name := "Steamer", base := some ⟨5⟩, methods := [sailing 20 true] }

def liner : TypeInfo := { name := "Liner", base := some ⟨6⟩, methods := [sailing 28 false] }

def sailer : TypeInfo := { name := "Sailer", base := some ⟨5⟩, methods := [sailing 8 false] }

def yacht : TypeInfo := { name := "Yacht", base := some ⟨8⟩, methods := [sailing 12 false] }

def host : Host := ⟨⟨⟨[yacht, sailer, liner, steamer, ship]⟩, fun _ => "Model", none⟩, fun _ => pure ()⟩

def speed (owner : Nat) (knots : Int64) (isVirtual : Bool) : Method :=
  { sailing knots isVirtual with id := ⟨⟨owner⟩, 0⟩ }

theorem speed_declared : speed 5 5 true ∈ host.types.declaredMethods ⟨5⟩ := .head _

theorem speed_instance {r : TypeId} (hr : r = ⟨7⟩ ∨ r = ⟨9⟩) (t : TypeId) (ht : host.types.isAssignable t r = true)
    (x : Method) (hx : host.types.declaredMethod? "Speed" 0 t = some x) : x.isStatic = false := by
  simp only [isAssignable, decide_eq_true_eq] at ht
  rcases hr with rfl | rfl
  · rw [show host.types.lineage ⟨7⟩ = [⟨7⟩, ⟨6⟩, ⟨5⟩, ⟨0⟩] from rfl] at ht
    simp only [List.mem_cons, List.not_mem_nil, or_false] at ht
    rcases ht with rfl | rfl | rfl | rfl <;> cases hx <;> rfl
  · rw [show host.types.lineage ⟨9⟩ = [⟨9⟩, ⟨8⟩, ⟨5⟩, ⟨0⟩] from rfl] at ht
    simp only [List.mem_cons, List.not_mem_nil, or_false] at ht
    rcases ht with rfl | rfl | rfl | rfl <;> cases hx <;> rfl

/-- A liner is as fast as a ship as it is as a steamer. -/
theorem liner_speed :
    host.types.method? ⟨6⟩ "Speed" 0 = some (speed 6 20 true) ∧
      host.types.override ⟨7⟩ (speed 5 5 true) = speed 7 28 false ∧
      host.types.override ⟨7⟩ (speed 6 20 true) = speed 7 28 false ∧
      SameCalls host ⟨7⟩ (speed 6 20 true) (speed 5 5 true) := by
  obtain ⟨named, found, hnamed, hfound, hm, hiff, hsame⟩ :=
    dispatched_by_receiver (b := ⟨6⟩) (r := ⟨7⟩) speed_declared rfl rfl rfl rfl fun t _ => speed_instance (.inl rfl) t
  cases hnamed
  cases hfound
  exact ⟨rfl, hm, hiff.mpr (.inl rfl), hsame (.inl rfl)⟩

/-- A yacht is faster as a ship than it is as a sailer. -/
theorem yacht_speed :
    speed 5 5 true ∈ host.types.declaredMethods ⟨5⟩ ∧ (speed 5 5 true).isVirtual = true ∧
      (speed 5 5 true).isStatic = false ∧ host.types.isAssignable ⟨5⟩ ⟨8⟩ = true ∧
      host.types.isAssignable ⟨8⟩ ⟨9⟩ = true ∧
      (∀ t, host.types.isAssignable t ⟨9⟩ = true →
        ∀ x, host.types.declaredMethod? "Speed" 0 t = some x → x.isStatic = false) ∧
      host.types.method? ⟨8⟩ "Speed" 0 = some (speed 8 8 false) ∧
      host.types.override ⟨9⟩ (speed 8 8 false) ≠ host.types.override ⟨9⟩ (speed 5 5 true) ∧
      ¬ SameCalls host ⟨9⟩ (speed 8 8 false) (speed 5 5 true) := by
  refine ⟨speed_declared, rfl, rfl, rfl, rfl, speed_instance (.inr rfl), rfl, fun h => ?_, fun h => ?_⟩
  · cases congrArg (·.id.owner) h
  · have heval := h.evaluated (.constant (.object ⟨"yacht", ⟨9⟩, .model⟩) ⟨9⟩ none) [] {} fun v w' hv => by
      cases hv
      rfl
    cases heval

end Ships

end DataBinding
