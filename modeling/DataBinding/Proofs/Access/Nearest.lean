import DataBinding.Proofs.Access.Cache
import DataBinding.Proofs.Schema.Nearest

/-!
# Overrides and the nearest declaration

The override of a virtual method, and the member that an accessor stands for, are the nearest instance declarations of
their name exactly if nothing else of that name is met first, or if nothing overrides them anyway
(`nearest_unless_hidden`). A static method, a static member or a member of the other kind that is met first hides every
override behind it.
-/

namespace DataBinding

open TypeTable

/-- What is met first is taken if it matches, and otherwise the declaration that was asked for. -/
theorem nearest_iff {α : Type} {declared : TypeId → List α} {p : α → Prop} {line : List TypeId} {m first found : α}
    (hmatch : p first → Nearest declared p line found) (hother : ¬ p first → found = m) :
    Nearest declared p line found ↔ p first ∨ Nearest declared p line m := by
  by_cases hp : p first
  · exact ⟨fun _ => .inl hp, fun _ => hmatch hp⟩
  · rw [hother hp]
    exact ⟨.inr, fun h => h.resolve_left hp⟩

section
variable {types : TypeTable} {t : TypeId}

theorem override_matching {m first : Method} (hv : m.isVirtual = true)
    (hf : types.method? t m.name m.arity = some first) (hm : m.Matches first) : types.override t m = first := by
  rw [override_of_first hv hf, if_neg (by simp [hm.2.2])]

theorem override_other {m first : Method} (hv : m.isVirtual = true)
    (hf : types.method? t m.name m.arity = some first) (hm : ¬ m.Matches first) : types.override t m = m := by
  obtain ⟨-, a, -, -, ha, -⟩ := method?_eq_some hf
  have hname := (mem_of_declaredMethod? ha).2
  have hs : first.isStatic = true := by
    cases hs : first.isStatic with
    | true => rfl
    | false => exact absurd ⟨hname.1, hname.2, hs⟩ hm
  rw [override_of_first hv hf, if_pos hs]

theorem resolve_matching {m first : Member} (ho : m.id.owner ≠ t) (hs : m.isStatic = false)
    (hf : types.member? t m.name = some first) (hm : m.Matches first) : Accessor.resolve types m t = first := by
  unfold Accessor.resolve
  rw [if_neg (by simp [ho, hs]), hf, Option.filter_some_pos (by simp [hm.2.1, hm.2.2]), Option.getD_some]

theorem resolve_other {m first : Member} (hf : types.member? t m.name = some first) (hm : ¬ m.Matches first) :
    Accessor.resolve types m t = m := by
  obtain ⟨-, a, -, -, ha, -⟩ := member?_eq_some hf
  have hname := (mem_of_declaredMember? ha).2
  unfold Accessor.resolve
  split
  · rfl
  · have hno : (decide (first.kind = m.kind) && !first.isStatic) = false := by
      rw [Bool.eq_false_iff]
      intro h
      simp only [Bool.and_eq_true, decide_eq_true_eq, Bool.not_eq_true'] at h
      exact hm ⟨hname, h.1, h.2⟩
    rw [hf, Option.filter_some_neg (by simp [hno]), Option.getD_none]

theorem nearest_own {m : Member} (hm : m ∈ types.declaredMembers m.id.owner) (hs : m.isStatic = false)
    (ho : m.id.owner ∈ types.lineage m.id.owner) :
    Nearest types.declaredMembers m.Matches (types.lineage m.id.owner) m := by
  cases hl : types.lineage m.id.owner with
  | nil =>
    rw [hl] at ho
    cases ho
  | cons a rest =>
    cases lineage_head types _ a rest hl
    exact ⟨[], _, rest, rfl, hm, ⟨rfl, rfl, hs⟩, nofun⟩

end

/-- On a type that derives from the declaring one, what overrides a virtual instance method, and what an accessor takes
for an instance member, is a nearest matching declaration exactly if the declaration of that name that is met first
matches, or nothing in front of the given one does. If the one met first does not match, nothing is overridden. -/
theorem nearest_unless_hidden {types : TypeTable} {t : TypeId} {finds : List (Member × TypeId)}
    (hf : ∀ f ∈ finds, f.1 ∈ types.declaredMembers f.1.id.owner) :
    (∀ m : Method, m ∈ types.declaredMethods m.id.owner → m.isVirtual = true →
      types.isAssignable m.id.owner t = true →
      ∃ first, types.method? t m.name m.arity = some first ∧
        (Nearest types.declaredMethods m.Matches (types.lineage t) (types.override t m) ↔
          m.Matches first ∨ Nearest types.declaredMethods m.Matches (types.lineage t) m) ∧
        (¬ m.Matches first → types.override t m = m)) ∧
    (∀ m : Member, m ∈ types.declaredMembers m.id.owner → m.isStatic = false →
      types.isAssignable m.id.owner t = true →
      ∃ first, types.member? t m.name = some first ∧
        (Nearest types.declaredMembers m.Matches (types.lineage t)
            ((AccessorCache.after types finds).find types m t).1.member ↔
          m.Matches first ∨ Nearest types.declaredMembers m.Matches (types.lineage t) m) ∧
        (¬ m.Matches first → ((AccessorCache.after types finds).find types m t).1.member = m)) := by
  constructor
  · intro m hm hv ho
    obtain ⟨first, hfirst⟩ := exists_method? hm (by simpa [isAssignable] using ho)
    refine ⟨first, hfirst, nearest_iff (fun hmatch => ?_) (override_other hv hfirst), override_other hv hfirst⟩
    rw [override_matching hv hfirst hmatch]
    exact nearest_method? hfirst hmatch
  · intro m hm hs ho
    have howner : m.id.owner ∈ types.lineage t := by simpa [isAssignable] using ho
    obtain ⟨first, hfirst⟩ := exists_member? hm howner
    rw [AccessorCache.find_after hf hm]
    refine ⟨first, hfirst, nearest_iff (fun hmatch => ?_) (resolve_other hfirst), resolve_other hfirst⟩
    show Nearest _ _ _ (Accessor.resolve types m t)
    by_cases hown : m.id.owner = t
    · subst hown
      rw [Accessor.resolve, if_pos (by simp)]
      exact nearest_own hm hs howner
    · rw [resolve_matching hown hs hfirst hmatch]
      exact nearest_member? hfirst hmatch

/-! ## Tools -/

namespace Tools

def tool : TypeInfo :=
  { name := "Tool", members := [⟨"Mode", .property, .int, false, some (.slot "mode"), none⟩]
    methods := [⟨"Run", [], some .int, true, .object, { result := .constant (.integer 0) }⟩] }

def saw : TypeInfo :=
  { name := "Saw", base := some ⟨5⟩, members := [⟨"Mode", .property, .int, false, some (.slot "cut"), none⟩]
    methods := [⟨"Run", [], some .int, false, .object, { result := .constant (.integer 1) }⟩] }

def chainsaw : TypeInfo :=
  { name := "Chainsaw", base := some ⟨6⟩
    methods := [⟨"Run", [⟨"time", .int, false⟩], none, false, .static, {}⟩] }

def toy : TypeInfo :=
  { name := "ToySaw", base := some ⟨6⟩, members := [⟨"Mode", .property, .int, true, some (.fixed (.integer 3)), none⟩]
    methods := [⟨"Run", [], some .int, false, .static, { result := .constant (.integer 3) }⟩] }

def types : TypeTable := ⟨[toy, chainsaw, saw, tool]⟩

def run : Method := { tool.methods[0] with id := ⟨⟨5⟩, 0⟩ }

def sawRun : Method := { saw.methods[0] with id := ⟨⟨6⟩, 0⟩ }

def mode : Member := { tool.members[0] with id := ⟨⟨5⟩, 0⟩ }

def sawMode : Member := { saw.members[0] with id := ⟨⟨6⟩, 0⟩ }

theorem run_declared : run ∈ types.declaredMethods run.id.owner := .head _

theorem mode_declared : mode ∈ types.declaredMembers mode.id.owner := .head _

/-- A chainsaw runs as a saw and has the mode of a saw. -/
theorem chainsaw_overrides :
    Nearest types.declaredMethods run.Matches (types.lineage ⟨7⟩) sawRun ∧
      Nearest types.declaredMembers mode.Matches (types.lineage ⟨7⟩) sawMode ∧
      types.override ⟨7⟩ run = sawRun ∧
      ((AccessorCache.after types [(mode, ⟨8⟩)]).find types mode ⟨7⟩).1.member = sawMode := by
  have hfinds : ∀ f ∈ [(mode, TypeId.mk 8)], f.1 ∈ types.declaredMembers f.1.id.owner := by
    simp only [List.mem_singleton, forall_eq]
    exact mode_declared
  have hmain := nearest_unless_hidden (t := ⟨7⟩) hfinds
  obtain ⟨first, hfirst, hrun, -⟩ := hmain.1 run run_declared rfl rfl
  obtain ⟨first', hfirst', hmode, -⟩ := hmain.2 mode mode_declared rfl rfl
  cases hfirst
  cases hfirst'
  exact ⟨hrun.mpr (.inl ⟨rfl, rfl, rfl⟩), hmode.mpr (.inl ⟨rfl, rfl, rfl⟩), rfl, rfl⟩

/-- The static method and the static member of toy saws hide those of a saw, and a toy saw runs as a plain tool. -/
theorem toy_hides_saw :
    run ∈ types.declaredMethods run.id.owner ∧ run.isVirtual = true ∧ run.isStatic = false ∧
      mode ∈ types.declaredMembers mode.id.owner ∧ mode.isStatic = false ∧ types.isAssignable ⟨5⟩ ⟨8⟩ = true ∧
      Nearest types.declaredMethods run.Matches (types.lineage ⟨8⟩) sawRun ∧
      ¬ Nearest types.declaredMethods run.Matches (types.lineage ⟨8⟩) (types.override ⟨8⟩ run) ∧
      Nearest types.declaredMembers mode.Matches (types.lineage ⟨8⟩) sawMode ∧
      ¬ Nearest types.declaredMembers mode.Matches (types.lineage ⟨8⟩)
        (AccessorCache.find types {} mode ⟨8⟩).1.member := by
  have hrun : sawRun ∈ types.declaredMethods ⟨6⟩ := .head _
  have hmode : sawMode ∈ types.declaredMembers ⟨6⟩ := .head _
  have hrunMatches : run.Matches sawRun := ⟨rfl, rfl, rfl⟩
  have hmodeMatches : mode.Matches sawMode := ⟨rfl, rfl, rfl⟩
  have hline : types.lineage ⟨8⟩ = [⟨8⟩] ++ ⟨6⟩ :: [⟨5⟩, ⟨0⟩] := rfl
  refine ⟨run_declared, rfl, rfl, mode_declared, rfl, rfl, ⟨_, _, _, hline, hrun, hrunMatches, ?_⟩, ?_,
    ⟨_, _, _, hline, hmode, hmodeMatches, ?_⟩, ?_⟩
  · rintro s hs x hx ⟨-, -, hstatic⟩
    cases List.mem_singleton.mp hs
    cases List.mem_singleton.mp (show x ∈ [_] from hx)
    cases hstatic
  · rw [hline, show types.override ⟨8⟩ run = run from rfl]
    refine not_nearest hrun hrunMatches fun t ht hx => ?_
    cases owner_of_declaredMethod hx
    revert ht
    decide
  · rintro s hs x hx ⟨-, -, hstatic⟩
    cases List.mem_singleton.mp hs
    cases List.mem_singleton.mp (show x ∈ [_] from hx)
    cases hstatic
  · rw [hline, show (AccessorCache.find types {} mode ⟨8⟩).1.member = mode from rfl]
    refine not_nearest hmode hmodeMatches fun t ht hx => ?_
    cases owner_of_declaredMember hx
    revert ht
    decide

end Tools

end DataBinding
