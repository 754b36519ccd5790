import DataBinding.Schema.Require

/-!
# Regular type tables

A lineage goes on from each of its types with that type's own lineage (`lineage_suffix`). A table is regular if no
type declares a name twice and what a type redeclares is called as what it inherits. There the nearest
declaration of an inherited name is as static as the inherited one (`Regular.isStatic_member`).
-/

namespace DataBinding.TypeTable

theorem lineageIn_lt (declared : List TypeInfo) (t a : TypeId) (h : a ∈ lineageIn declared t) :
    a.index < builtin.length + declared.length := by
  induction declared generalizing t with
  | nil =>
    unfold lineageIn builtinLineage at h
    split at h
    · simp_all [TypeId.object, builtin]
    · split at h
      · rcases List.mem_cons.mp h with rfl | h
        · assumption
        · simp_all [TypeId.object, builtin]
      · cases h
  | cons info older ih =>
    unfold lineageIn at h
    simp only [List.length_cons]
    split at h
    · rcases List.mem_cons.mp h with rfl | h
      · omega
      · cases hb : info.base with
        | none =>
          rw [hb] at h
          cases h
        | some base =>
          rw [hb] at h
          have := ih base h
          omega
    · have := ih t h
      omega

theorem mem_lineageIn_self (declared : List TypeInfo) (t : TypeId) (h : t.index < builtin.length + declared.length) :
    t ∈ lineageIn declared t := by
  induction declared with
  | nil =>
    unfold lineageIn builtinLineage
    split
    · simp_all
    · rw [if_pos (by simpa using h)]
      exact List.mem_cons_self
  | cons info older ih =>
    unfold lineageIn
    split
    · exact List.mem_cons_self
    · rw [List.length_cons] at h
      exact ih (by omega)

theorem builtinLineage_suffix (t b : TypeId) (pre post : List TypeId)
    (h : builtinLineage t = pre ++ b :: post) : builtinLineage b = b :: post := by
  unfold builtinLineage at h
  split at h
  · rename_i ht
    cases pre with
    | nil =>
      cases h
      rfl
    | cons a pre => simp at h
  · split at h
    · rename_i ho hl
      cases pre with
      | nil =>
        cases h
        unfold builtinLineage
        rw [if_neg ho, if_pos hl]
      | cons a pre =>
        cases pre with
        | nil =>
          cases h
          rfl
        | cons a' pre => simp at h
    · simp at h

theorem lineageIn_suffix (declared : List TypeInfo) (t b : TypeId) (pre post : List TypeId)
    (h : lineageIn declared t = pre ++ b :: post) : lineageIn declared b = b :: post := by
  induction declared generalizing t pre with
  | nil => exact builtinLineage_suffix t b pre post h
  | cons info older ih =>
    have older_of {u : TypeId} {pre : List TypeId} (hu : lineageIn older u = pre ++ b :: post) :
        lineageIn (info :: older) b = b :: post := by
      have hb := lineageIn_lt older u b (by rw [hu]; simp)
      rw [lineageIn, if_neg (by omega)]
      exact ih u pre hu
    by_cases ht : t.index = builtin.length + older.length
    · cases pre with
      | nil =>
        have hl := h
        rw [lineageIn, if_pos ht] at hl
        cases hl
        exact h
      | cons a pre =>
        rw [lineageIn, if_pos ht] at h
        cases hb : info.base with
        | none =>
          rw [hb] at h
          simp at h
        | some base =>
          rw [hb] at h
          exact older_of (List.cons.inj h).2
    · rw [lineageIn, if_neg ht] at h
      exact older_of h

theorem lineage_suffix {types : TypeTable} {t b : TypeId} {pre post : List TypeId}
    (h : types.lineage t = pre ++ b :: post) : types.lineage b = b :: post :=
  lineageIn_suffix types.declared t b pre post h

theorem lineage_head (types : TypeTable) (t : TypeId) : ∀ a rest, types.lineage t = a :: rest → a = t := by
  unfold lineage
  induction types.declared with
  | nil =>
    intro a rest h
    unfold lineageIn builtinLineage at h
    split at h
    · rename_i ht
      cases h
      exact ht.symm
    · split at h
      · cases h
        rfl
      · cases h
  | cons info older ih =>
    intro a rest h
    unfold lineageIn at h
    split at h
    · cases h
      rfl
    · exact ih a rest h

section
variable {types : TypeTable} {t : TypeId} {name : String}

theorem lineage_builtin (h : t.index < builtin.length) : types.lineage t = builtinLineage t := by
  unfold lineage
  induction types.declared with
  | nil => rfl
  | cons info older ih => rw [lineageIn, if_neg (by omega), ih]

theorem mem_lineage_self (h : t.index < types.next.index) : t ∈ types.lineage t :=
  mem_lineageIn_self types.declared t h

theorem lineage_trans {a b : TypeId} (hab : a ∈ types.lineage b) (hbt : b ∈ types.lineage t) : a ∈ types.lineage t := by
  obtain ⟨pre, post, hl⟩ := List.append_of_mem hbt
  rw [lineage_suffix hl] at hab
  rw [hl]
  exact List.mem_append_right pre hab

theorem lineage_antisymm {a b : TypeId} (hab : a ∈ types.lineage b) (hba : b ∈ types.lineage a) : a = b := by
  obtain ⟨pre, post, hb⟩ := List.append_of_mem hab
  obtain ⟨pre', post', ha⟩ := List.append_of_mem hba
  have hlen : (types.lineage b).length ≤ (types.lineage a).length := by
    rw [ha, lineage_suffix ha, List.length_append]
    omega
  -- Each lineage is a tail of the other one, so nothing stands in front.
  rw [lineage_suffix hb, hb, List.length_append] at hlen
  have hpre : pre = [] := List.eq_nil_of_length_eq_zero (by omega)
  subst hpre
  exact lineage_head types b a post hb

/-- What is found first in a lineage is found at or in front of a type that has something, which is one of its bases. -/
theorem findSome?_in_front {α : Type} {owner : TypeId} {f : TypeId → Option α} {found : α}
    (hf : (types.lineage t).findSome? f = some found) (ho : owner ∈ types.lineage t) (hs : (f owner).isSome = true) :
    ∃ a ∈ types.lineage t, owner ∈ types.lineage a ∧ f a = some found := by
  obtain ⟨pre, a, post, hl, ha, hpre⟩ := List.findSome?_eq_some_iff.mp hf
  refine ⟨a, by simp [hl], ?_, ha⟩
  rw [lineage_suffix hl]
  rw [hl] at ho
  rcases List.mem_append.mp ho with ho | ho
  · rw [hpre owner ho] at hs
    cases hs
  · exact ho

theorem mem_of_declaredMember? {m : Member} (h : types.declaredMember? name t = some m) :
    m ∈ types.declaredMembers t ∧ m.name = name :=
  ⟨List.mem_of_find?_eq_some h, by simpa using List.find?_some h⟩

theorem mem_of_declaredMethod? {m : Method} {arity : Nat} (h : types.declaredMethod? name arity t = some m) :
    m ∈ types.declaredMethods t ∧ m.name = name ∧ m.arity = arity :=
  ⟨List.mem_of_find?_eq_some h, by simpa using List.find?_some h⟩

theorem member?_eq_some {m : Member} (h : types.member? t name = some m) :
    ∃ pre a post, types.lineage t = pre ++ a :: post ∧ types.declaredMember? name a = some m ∧
      ∀ b ∈ pre, types.declaredMember? name b = none :=
  List.findSome?_eq_some_iff.mp h

theorem member?_owner {m : Member} (hm : types.declaredMember? m.name m.id.owner = some m) :
    types.member? m.id.owner m.name = none ∨ types.member? m.id.owner m.name = some m := by
  unfold member?
  cases hl : types.lineage m.id.owner with
  | nil => exact .inl rfl
  | cons a rest =>
    have ha := lineage_head types _ a rest hl
    rw [List.findSome?_cons, ha, hm]
    exact .inr rfl

theorem requireMember_eq_ok {m : Member} : types.requireMember t name = .ok m ↔ types.member? t name = some m := by
  unfold requireMember
  cases types.member? t name with
  | none => simp
  | some found => simp

theorem method?_eq_some {m : Method} {arity : Nat} (h : types.method? t name arity = some m) :
    ∃ pre a post, types.lineage t = pre ++ a :: post ∧ types.declaredMethod? name arity a = some m ∧
      ∀ b ∈ pre, types.declaredMethod? name arity b = none :=
  List.findSome?_eq_some_iff.mp h

end

theorem find?_of_nodup_map {α β : Type} {xs : List α} {f : α → β} {p : α → Bool} {a : α}
    (hn : (xs.map f).Nodup) (ha : a ∈ xs) (hp : ∀ x, p x = true ↔ f x = f a) : xs.find? p = some a := by
  induction xs with
  | nil => cases ha
  | cons x xs ih =>
    rw [List.map_cons, List.nodup_cons] at hn
    rcases List.mem_cons.mp ha with rfl | ha
    · exact List.find?_cons_of_pos ((hp a).mpr rfl)
    · have hx : ¬ p x = true := fun h => hn.1 ((hp x).mp h ▸ List.mem_map_of_mem ha)
      rw [List.find?_cons_of_neg hx]
      exact ih hn.2 ha

/-- The type declares no name twice, and redeclares none that it inherits with other staticness or with parameters
by reference. -/
structure RegularAt (types : TypeTable) (t : TypeId) : Prop where
  members : ((types.declaredMembers t).map (·.name)).Nodup
  methods : ((types.declaredMethods t).map fun m => (m.name, m.arity)).Nodup
  static : ∀ base ∈ types.lineage t, ∀ m ∈ types.declaredMembers base, ∀ m' ∈ types.declaredMembers t,
    m'.name = m.name → m'.isStatic = m.isStatic
  staticCall : ∀ base ∈ types.lineage t, ∀ m ∈ types.declaredMethods base, ∀ m' ∈ types.declaredMethods t,
    m'.name = m.name → m'.arity = m.arity → m'.isStatic = m.isStatic
  byValue : ∀ base ∈ types.lineage t, base ≠ t → ∀ m ∈ types.declaredMethods base,
    ∀ m' ∈ types.declaredMethods t, m'.name = m.name → m'.arity = m.arity → m'.hasByRefParams = false

instance (types : TypeTable) (t : TypeId) : Decidable (types.RegularAt t) :=
  decidable_of_iff (_ ∧ _ ∧ _ ∧ _ ∧ _)
    ⟨fun ⟨h₁, h₂, h₃, h₄, h₅⟩ => ⟨h₁, h₂, h₃, h₄, h₅⟩, fun h => ⟨h.1, h.2, h.3, h.4, h.5⟩⟩

def Regular (types : TypeTable) : Prop := ∀ t, types.RegularAt t

theorem info_of_le {types : TypeTable} {t : TypeId} (h : builtin.length + types.declared.length ≤ t.index) :
    types.info t = { name := "", base := none } := by
  unfold info
  rw [List.getElem?_eq_none (by omega)]
  simp only
  rw [List.getElem?_eq_none (by rw [List.length_reverse]; omega)]
  rfl

theorem regular_of_lt {types : TypeTable}
    (h : ∀ i < builtin.length + types.declared.length, types.RegularAt ⟨i⟩) : types.Regular := by
  intro t
  rcases Nat.lt_or_ge t.index (builtin.length + types.declared.length) with ht | ht
  · exact h t.index ht
  · have hi := info_of_le ht
    have hm : types.declaredMembers t = [] := by
      unfold declaredMembers
      rw [hi]
      rfl
    have hc : types.declaredMethods t = [] := by
      unfold declaredMethods
      rw [hi]
      rfl
    constructor <;> simp [hm, hc]

namespace Regular

variable {types : TypeTable} (h : types.Regular)
include h

theorem declaredMember?_eq {t : TypeId} {m : Member} (hm : m ∈ types.declaredMembers t) :
    types.declaredMember? m.name t = some m :=
  find?_of_nodup_map (h t).members hm fun _ => by simp

theorem declaredMethod?_eq {t : TypeId} {m : Method} (hm : m ∈ types.declaredMethods t) :
    types.declaredMethod? m.name m.arity t = some m :=
  find?_of_nodup_map (h t).methods hm fun _ => by simp

/-- A declaration in the lineage stands at or behind the nearest one of its name. -/
theorem isStatic_member {t owner : TypeId} {m found : Member} (hm : m ∈ types.declaredMembers owner)
    (ho : owner ∈ types.lineage t) (hf : types.member? t m.name = some found) : found.isStatic = m.isStatic := by
  obtain ⟨b, -, hob, hb⟩ := findSome?_in_front hf ho (by rw [h.declaredMember?_eq hm]; rfl)
  have hmem := mem_of_declaredMember? hb
  exact (h b).static owner hob m hm found hmem.1 hmem.2

theorem byValue_method {t owner : TypeId} {m found : Method} (hm : m ∈ types.declaredMethods owner)
    (ho : owner ∈ types.lineage t) (hf : types.method? t m.name m.arity = some found)
    (hv : m.hasByRefParams = false) : found.hasByRefParams = false := by
  obtain ⟨b, -, hob, hb⟩ := findSome?_in_front hf ho (by rw [h.declaredMethod?_eq hm]; rfl)
  have hmem := mem_of_declaredMethod? hb
  by_cases hbo : owner = b
  · subst hbo
    rw [h.declaredMethod?_eq hm] at hb
    cases hb
    exact hv
  · exact (h b).byValue owner hob hbo m hm found hmem.1 hmem.2.1 hmem.2.2

end Regular

theorem override_not_virtual {types : TypeTable} {t : TypeId} {m : Method} (hv : m.isVirtual = false) :
    types.override t m = m := by
  unfold override
  rw [if_neg (by simp [hv])]

section
variable (types : TypeTable) (t : TypeId) (m : Method)

theorem override_eq : types.override t m = m ∨
    (m.isVirtual = true ∧ types.method? t m.name m.arity = some (types.override t m) ∧
      (types.override t m).isStatic = false) := by
  unfold override
  split
  · rename_i hv
    cases hf : types.method? t m.name m.arity with
    | none => exact .inl rfl
    | some found =>
      by_cases hs : found.isStatic = true
      · rw [Option.filter_some_neg (by simp [hs])]
        exact .inl rfl
      · rw [Option.filter_some_pos (by simp [hs])]
        exact .inr ⟨hv, rfl, Bool.eq_false_iff.mpr hs⟩
  · exact .inl rfl

theorem override_isStatic (h : m.isStatic = false) : (types.override t m).isStatic = false := by
  rcases override_eq types t m with he | ⟨-, -, hs⟩
  · rw [he, h]
  · exact hs

theorem override_arity : (types.override t m).arity = m.arity := by
  rcases override_eq types t m with he | ⟨-, hf, -⟩
  · rw [he]
  · obtain ⟨-, a, -, -, ha, -⟩ := method?_eq_some hf
    exact (mem_of_declaredMethod? ha).2.2

end

end DataBinding.TypeTable
