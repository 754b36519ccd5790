import DataBinding.Proofs.Schema.Lineage

/-!
# Nearest declarations

A lookup by name stops at the first type of a lineage that declares the name. `Nearest` says of a declaration that no
type in front of it declares one with the wanted properties; so what a lookup finds is nearest if it has them
(`nearest_of_first`), and nothing is said of it if it lacks them.
-/

namespace DataBinding.TypeTable

/-- Among what the types of a line declare, `a` has the property and no type in front declares one that has it. -/
def Nearest {α : Type} (declared : TypeId → List α) (p : α → Prop) (line : List TypeId) (a : α) : Prop :=
  ∃ pre t post, line = pre ++ t :: post ∧ a ∈ declared t ∧ p a ∧ ∀ s ∈ pre, ∀ x ∈ declared s, ¬ p x

section
variable {α : Type} {declared : TypeId → List α} {p : α → Prop} {q : α → Bool} {line : List TypeId} {a first : α}

theorem nearest_of_first (hf : line.findSome? (fun t => (declared t).find? q) = some first) (hp : p first)
    (hq : ∀ x, p x → q x = true) : Nearest declared p line first := by
  obtain ⟨pre, t, post, rfl, ht, hpre⟩ := List.findSome?_eq_some_iff.mp hf
  refine ⟨pre, t, post, rfl, List.mem_of_find?_eq_some ht, hp, fun s hs x hx hpx => ?_⟩
  exact List.find?_eq_none.mp (hpre s hs) x hx (hq x hpx)

theorem exists_first {t : TypeId} (ht : t ∈ line) (ha : a ∈ declared t) (hq : q a = true) :
    ∃ first, line.findSome? (fun t => (declared t).find? q) = some first := by
  cases hf : line.findSome? (fun t => (declared t).find? q) with
  | some first => exact ⟨first, rfl⟩
  | none => exact absurd hq (List.find?_eq_none.mp (List.findSome?_eq_none_iff.mp hf t ht) a ha)

/-- A declaration with the property on a type in front of all that declare `a`. -/
theorem not_nearest {pre post : List TypeId} {s : TypeId} {x : α} (hx : x ∈ declared s) (hp : p x)
    (ha : ∀ t ∈ pre ++ [s], a ∉ declared t) : ¬ Nearest declared p (pre ++ s :: post) a := by
  rintro ⟨pre', t, post', hl, hat, -, hpre⟩
  have ht : t ∉ pre ++ [s] := fun ht => ha t ht hat
  simp only [List.mem_append, List.mem_singleton, not_or] at ht
  have hs : s ∈ pre' := by
    rcases List.append_eq_append_iff.mp hl with ⟨rest, rfl, hrest⟩ | ⟨rest, rfl, hrest⟩
    · cases rest with
      | nil => exact absurd (List.cons.inj hrest).1.symm ht.2
      | cons b rest =>
        rw [(List.cons.inj hrest).1]
        simp
    · cases rest with
      | nil => exact absurd (List.cons.inj hrest).1 ht.2
      | cons b rest =>
        rw [(List.cons.inj hrest).1] at ht
        exact absurd (by simp) ht.1
  exact hpre s hs x hx hp

end

end DataBinding.TypeTable

namespace DataBinding

def Method.Matches (m x : Method) : Prop := x.name = m.name ∧ x.arity = m.arity ∧ x.isStatic = false

def Member.Matches (m x : Member) : Prop := x.name = m.name ∧ x.kind = m.kind ∧ x.isStatic = false

namespace TypeTable

variable {types : TypeTable} {t : TypeId}

theorem owner_of_declaredMethod {m : Method} (h : m ∈ types.declaredMethods t) : m.id.owner = t := by
  obtain ⟨-, -, rfl⟩ := List.mem_map.mp h
  rfl

theorem owner_of_declaredMember {m : Member} (h : m ∈ types.declaredMembers t) : m.id.owner = t := by
  obtain ⟨-, -, rfl⟩ := List.mem_map.mp h
  rfl

theorem exists_method? {m : Method} {owner : TypeId} (hm : m ∈ types.declaredMethods owner)
    (ho : owner ∈ types.lineage t) : ∃ first, types.method? t m.name m.arity = some first :=
  exists_first ho hm (by simp)

theorem exists_member? {m : Member} {owner : TypeId} (hm : m ∈ types.declaredMembers owner)
    (ho : owner ∈ types.lineage t) : ∃ first, types.member? t m.name = some first :=
  exists_first ho hm (by simp)

theorem nearest_method? {m first : Method} (hf : types.method? t m.name m.arity = some first)
    (hm : m.Matches first) : Nearest types.declaredMethods m.Matches (types.lineage t) first :=
  nearest_of_first hf hm fun x hx => by simp [hx.1, hx.2.1]

theorem nearest_member? {m first : Member} (hf : types.member? t m.name = some first)
    (hm : m.Matches first) : Nearest types.declaredMembers m.Matches (types.lineage t) first :=
  nearest_of_first hf hm fun x hx => by simp [hx.1]

theorem override_of_first {m first : Method} (hv : m.isVirtual = true)
    (hf : types.method? t m.name m.arity = some first) :
    types.override t m = if first.isStatic then m else first := by
  unfold override
  rw [if_pos hv, hf]
  cases hs : first.isStatic with
  | true => rw [Option.filter_some_neg (by simp [hs]), Option.getD_none, if_pos rfl]
  | false => rw [Option.filter_some_pos (by simp [hs]), Option.getD_some, if_neg (by simp)]

end TypeTable

end DataBinding
