import Mathlib.Logic.Relation
import DataBinding.Proofs.Schema.Declare
import DataBinding.Proofs.Schema.Nearest

/-!
# Ancestors of a type

A type is assignable from another one exactly if the bases of that one lead to it (`isAssignable_iff`). This is a
partial order in which the ancestors of one type form a chain, and what is found on a type is found on every type that
derives from it, there or nearer (`ancestors_chained`).
-/

namespace DataBinding

namespace TypeTable

section
variable {types : TypeTable} {a b t : TypeId}

def Extends (types : TypeTable) (t base : TypeId) : Prop :=
  (types.info t).base = some base ∧ base.index < t.index

theorem extends_declare {info : TypeInfo} (h : t.index < types.next.index) :
    (types.declare info).Extends t b ↔ types.Extends t b := by
  unfold Extends
  rw [info_declare h]

theorem base_builtin (h : t.index < builtin.length) :
    (types.info t).base = if t = .object then none else some .object := by
  obtain ⟨i⟩ := t
  match i, h with
  | 0, _ => rfl
  | 1, _ => rfl
  | 2, _ => rfl
  | 3, _ => rfl
  | 4, _ => rfl

theorem mem_lineage_iff (h : t.index < types.next.index) :
    a ∈ types.lineage t ↔ a = t ∨ ∃ b, types.Extends t b ∧ a ∈ types.lineage b := by
  obtain ⟨declared⟩ := types
  induction declared with
  | nil =>
    have ht : t.index < builtin.length := h
    rw [lineage_builtin ht]
    unfold Extends builtinLineage
    rw [base_builtin ht]
    by_cases ho : t = .object
    · simp [ho]
    · -- Every other builtin type has the root as its base.
      have hlt : TypeId.object.index < t.index := by
        obtain ⟨i⟩ := t
        simp only [TypeId.object, TypeId.mk.injEq] at ho ⊢
        omega
      simp [ho, ht, hlt, lineage_object, and_assoc]
  | cons info older ih =>
    change t.index < (TypeTable.mk older).next.index + 1 at h
    show a ∈ (TypeTable.declare ⟨older⟩ info).lineage t ↔ a = t ∨ ∃ b, (TypeTable.declare ⟨older⟩ info).Extends t b ∧
      a ∈ (TypeTable.declare ⟨older⟩ info).lineage b
    by_cases ht : t.index < (TypeTable.mk older).next.index
    · rw [lineage_declare ht, ih ht]
      refine or_congr_right (exists_congr fun b => ?_)
      rw [extends_declare ht]
      refine and_congr_right fun hb => ?_
      rw [lineage_declare (Nat.lt_trans hb.2 ht)]
    -- The newest type: its base was declared before, or does not count.
    · obtain rfl : t = (TypeTable.mk older).next := by
        cases t
        simp only [next, TypeId.mk.injEq] at h ht ⊢
        omega
      rw [lineage_next, List.mem_cons]
      refine or_congr_right ?_
      unfold Extends
      rw [info_next]
      cases info.base with
      | none => simp
      | some base =>
        by_cases hb : base.index < (TypeTable.mk older).next.index
        · simp [hb, lineage_declare hb, and_assoc]
        · simp [hb, lineage_of_le (Nat.le_of_not_lt hb), and_assoc]

/-- What is assignable from a type of the table is where its bases lead to. -/
theorem isAssignable_iff :
    types.isAssignable a t = true ↔ t.index < types.next.index ∧ Relation.ReflTransGen types.Extends t a := by
  unfold isAssignable
  rw [decide_eq_true_eq]
  constructor
  · intro h
    have ht : t.index < types.next.index := by
      rcases Nat.lt_or_ge t.index types.next.index with hlt | hge
      · exact hlt
      · rw [lineage_of_le hge] at h
        cases h
    refine ⟨ht, ?_⟩
    induction hn : t.index using Nat.strongRecOn generalizing t with
    | ind n ih =>
      subst hn
      rcases (mem_lineage_iff ht).mp h with rfl | ⟨b, hb, h⟩
      · exact .refl
      · exact .head hb (ih b.index hb.2 h (Nat.lt_trans hb.2 ht) rfl)
  · rintro ⟨ht, h⟩
    induction h using Relation.ReflTransGen.head_induction_on with
    | refl => exact mem_lineage_self ht
    | head hb _ ih => exact (mem_lineage_iff ht).mpr (.inr ⟨_, hb, ih (Nat.lt_trans hb.2 ht)⟩)

theorem lineage_chain (ha : a ∈ types.lineage t) (hb : b ∈ types.lineage t) :
    a ∈ types.lineage b ∨ b ∈ types.lineage a := by
  obtain ⟨pre, post, hl⟩ := List.append_of_mem hb
  have hsuffix := lineage_suffix hl
  rw [hl] at ha
  rcases List.mem_append.mp ha with ha | ha
  · obtain ⟨pre', post', rfl⟩ := List.append_of_mem ha
    rw [List.append_assoc] at hl
    rw [lineage_suffix hl]
    simp
  · rw [hsuffix]
    exact .inl ha

/-- What is found on an ancestor is found on the type, on one that the ancestor's finding place is an ancestor of. -/
theorem findSome?_inherited {α : Type} {f : TypeId → Option α} {x : α} (ha : a ∈ types.lineage t)
    (hx : (types.lineage a).findSome? f = some x) :
    ∃ y s u, (types.lineage t).findSome? f = some y ∧ f s = some x ∧ f u = some y ∧ s ∈ types.lineage u := by
  obtain ⟨pre, s, post, hl, hs, -⟩ := List.findSome?_eq_some_iff.mp hx
  have hsa : s ∈ types.lineage a := by simp [hl]
  have hst := lineage_trans hsa ha
  cases hy : (types.lineage t).findSome? f with
  | none =>
    rw [List.findSome?_eq_none_iff.mp hy s hst] at hs
    cases hs
  | some y =>
    obtain ⟨u, -, hsu, hu⟩ := findSome?_in_front hy hst (by simp [hs])
    exact ⟨y, s, u, rfl, hs, hu, hsu⟩

end

/-- Assignability is the partial order that the bases give, and the ancestors of a type form a chain in it. What a lookup
finds on an ancestor of a type, it finds on the type as well: there or on a type in between. -/
theorem ancestors_chained (types : TypeTable) :
    (∀ a t, types.isAssignable a t = true ↔
      t.index < types.next.index ∧ Relation.ReflTransGen types.Extends t a) ∧
    (∀ t, t.index < types.next.index → types.isAssignable t t = true) ∧
    (∀ a b t, types.isAssignable a b = true → types.isAssignable b t = true → types.isAssignable a t = true) ∧
    (∀ a b, types.isAssignable a b = true → types.isAssignable b a = true → a = b) ∧
    (∀ a b t, types.isAssignable a t = true → types.isAssignable b t = true →
      types.isAssignable a b = true ∨ types.isAssignable b a = true) ∧
    (∀ a t name m, types.isAssignable a t = true → types.member? a name = some m →
      ∃ m', types.member? t name = some m' ∧ types.isAssignable m.id.owner m'.id.owner = true) ∧
    (∀ a t name arity m, types.isAssignable a t = true → types.method? a name arity = some m →
      ∃ m', types.method? t name arity = some m' ∧ types.isAssignable m.id.owner m'.id.owner = true) := by
  refine ⟨fun a t => isAssignable_iff, fun t ht => isAssignable_iff.mpr ⟨ht, .refl⟩, ?_, ?_, ?_, ?_, ?_⟩
  · intro a b t hab hbt
    simp only [isAssignable, decide_eq_true_eq] at hab hbt ⊢
    exact lineage_trans hab hbt
  · intro a b hab hba
    simp only [isAssignable, decide_eq_true_eq] at hab hba
    exact lineage_antisymm hab hba
  · intro a b t ha hb
    simp only [isAssignable, decide_eq_true_eq] at ha hb ⊢
    exact lineage_chain ha hb
  · intro a t name m ha hm
    simp only [isAssignable, decide_eq_true_eq] at ha ⊢
    obtain ⟨m', s, u, hm', hs, hu, hsu⟩ := findSome?_inherited ha hm
    have hsm := owner_of_declaredMember (mem_of_declaredMember? hs).1
    have hum := owner_of_declaredMember (mem_of_declaredMember? hu).1
    refine ⟨m', hm', ?_⟩
    rw [hsm, hum]
    exact hsu
  · intro a t name arity m ha hm
    simp only [isAssignable, decide_eq_true_eq] at ha ⊢
    obtain ⟨m', s, u, hm', hs, hu, hsu⟩ := findSome?_inherited ha hm
    have hsm := owner_of_declaredMethod (mem_of_declaredMethod? hs).1
    have hum := owner_of_declaredMethod (mem_of_declaredMethod? hu).1
    refine ⟨m', hm', ?_⟩
    rw [hsm, hum]
    exact hsu

end TypeTable

/-! ## Boats -/

namespace Boats

def boat : TypeInfo :=
  { name := "Boat", members := [⟨"Load", .property, .int, false, some (.slot "load"), none⟩]
    methods := [⟨"Move", [], none, true, .object, {}⟩] }

def ferry : TypeInfo :=
  { name := "Ferry", base := some ⟨5⟩, methods := [⟨"Move", [], none, false, .object, {}⟩] }

def carFerry : TypeInfo :=
  { name := "CarFerry", base := some ⟨6⟩, members := [⟨"Load", .field, .int, false, some (.slot "cars"), none⟩] }

def types : TypeTable := ⟨[carFerry, ferry, boat]⟩

/-- Boats and ferries are comparable as ancestors of car ferries, which have what boats have. -/
theorem carFerry_chained :
    types.isAssignable ⟨5⟩ ⟨7⟩ = true ∧ types.isAssignable ⟨7⟩ ⟨7⟩ = true ∧
      (types.isAssignable ⟨5⟩ ⟨6⟩ = true ∨ types.isAssignable ⟨6⟩ ⟨5⟩ = true) ∧
      (∃ m, types.member? ⟨7⟩ "Load" = some m ∧ types.isAssignable ⟨5⟩ m.id.owner = true) ∧
      ∃ m, types.method? ⟨7⟩ "Move" 0 = some m ∧ types.isAssignable ⟨5⟩ m.id.owner = true := by
  obtain ⟨-, hrefl, htrans, -, hchain, hmember, hmethod⟩ := TypeTable.ancestors_chained types
  have hboat : types.isAssignable ⟨5⟩ ⟨6⟩ = true := by decide
  have hferry : types.isAssignable ⟨6⟩ ⟨7⟩ = true := by decide
  have hboth := htrans _ _ _ hboat hferry
  refine ⟨hboth, hrefl _ (by decide), hchain _ _ _ hboth hferry, ?_, ?_⟩
  · exact hmember _ _ _ { boat.members[0] with id := ⟨⟨5⟩, 0⟩ } hboth rfl
  · exact hmethod _ _ _ _ { boat.methods[0] with id := ⟨⟨5⟩, 0⟩ } hboth rfl

end Boats

end DataBinding
