import DataBinding.Proofs.Schema.Lineage

/-!
# Declaring types

A new type changes nothing about the types before it: they keep their description and their lineage
(`lineage_declare`), and so do all lookups on them. The lineage of the new type goes on with that of its base
(`lineage_next`).
-/

namespace DataBinding.TypeTable

variable {types : TypeTable} {info : TypeInfo} {t : TypeId}

theorem info_declare (h : t.index < types.next.index) : (types.declare info).info t = types.info t := by
  unfold TypeTable.info declare
  cases hb : builtin[t.index]? with
  | some i => rfl
  | none =>
    have ht : builtin.length ≤ t.index := List.getElem?_eq_none_iff.mp hb
    simp only [next] at h
    simp only [List.reverse_cons]
    rw [List.getElem?_append_left (by simp; omega)]

theorem info_next : (types.declare info).info types.next = info := by
  unfold TypeTable.info declare
  rw [List.getElem?_eq_none (by simp [next])]
  simp [next]

theorem lineage_declare (h : t.index < types.next.index) : (types.declare info).lineage t = types.lineage t := by
  simp only [next] at h
  unfold lineage declare
  rw [lineageIn, if_neg (by omega)]

theorem lineage_next : (types.declare info).lineage types.next =
    types.next :: match info.base with
      | some base => types.lineage base
      | none => [] := by
  show lineageIn (info :: types.declared) types.next = _
  rw [lineageIn, if_pos (show types.next.index = builtin.length + types.declared.length from rfl)]
  rfl

theorem lineage_of_le (h : types.next.index ≤ t.index) : types.lineage t = [] := by
  cases hl : types.lineage t with
  | nil => rfl
  | cons a rest =>
    have ha := lineage_head types t a rest hl
    have hlt := lineageIn_lt types.declared t t (by rw [show lineageIn types.declared t = _ from hl, ha]; simp)
    simp only [next] at h
    omega

theorem declaredMembers_declare (h : t.index < types.next.index) :
    (types.declare info).declaredMembers t = types.declaredMembers t := by
  unfold declaredMembers
  rw [info_declare h]

theorem declaredMethods_declare (h : t.index < types.next.index) :
    (types.declare info).declaredMethods t = types.declaredMethods t := by
  unfold declaredMethods
  rw [info_declare h]

theorem findSome?_declare {α : Type} {f g : TypeId → Option α} (h : t.index < types.next.index)
    (hfg : ∀ a, a.index < types.next.index → f a = g a) :
    ((types.declare info).lineage t).findSome? f = (types.lineage t).findSome? g := by
  rw [lineage_declare h]
  have hline : ∀ a ∈ types.lineage t, f a = g a := fun a ha => hfg a (lineageIn_lt types.declared t a ha)
  generalize types.lineage t = line at hline ⊢
  induction line with
  | nil => rfl
  | cons a line ih =>
    rw [List.forall_mem_cons] at hline
    rw [List.findSome?_cons, List.findSome?_cons, hline.1, ih hline.2]

theorem member?_declare (h : t.index < types.next.index) (name : String) :
    (types.declare info).member? t name = types.member? t name :=
  findSome?_declare h fun a ha => by simp only [declaredMember?, declaredMembers_declare ha]

theorem method?_declare (h : t.index < types.next.index) (name : String) (arity : Nat) :
    (types.declare info).method? t name arity = types.method? t name arity :=
  findSome?_declare h fun a ha => by simp only [declaredMethod?, declaredMethods_declare ha]

theorem isValueType_declare (h : t.index < types.next.index) :
    (types.declare info).isValueType t = types.isValueType t := by
  unfold isValueType
  rw [info_declare h]

theorem override_declare (h : t.index < types.next.index) (m : Method) :
    (types.declare info).override t m = types.override t m := by
  unfold override
  rw [method?_declare h]

theorem lt_of_declaredMember {m : Member} (h : m ∈ types.declaredMembers t) : t.index < types.next.index := by
  rcases Nat.lt_or_ge t.index types.next.index with hlt | hge
  · exact hlt
  · rw [declaredMembers, info_of_le hge] at h
    cases h

theorem lt_of_declaredMethod {m : Method} (h : m ∈ types.declaredMethods t) : t.index < types.next.index := by
  rcases Nat.lt_or_ge t.index types.next.index with hlt | hge
  · exact hlt
  · rw [declaredMethods, info_of_le hge] at h
    cases h

end DataBinding.TypeTable
