import DataBinding.Proofs.Value.Same
import Mathlib.Data.List.Perm.Subperm

/-!
# Equality as an equivalence

Equality of records looks each field of its left side up in its right side, where a missing field reads as null, and
then compares numbers of fields. So a null field of the left side may stand opposite to a field that the left side
does not have. Equality both ways is an equivalence of all values (`Alike.trans`), equality one way is symmetric as
long as a field that is null in one record of a type is there in all records of the type (`same_comm`).
-/

namespace DataBinding.Value

/-- Made from values without fields, by setting the fields of records one after the other. -/
inductive Built : Value → Prop
  | scalar (v : Value) : v.IsScalar → Built v
  | record (t : TypeId) (sets : List (String × Value)) : (∀ f ∈ sets, Built f.2) →
    Built (record t (sets.foldl (fun fs f => setField f.1 f.2 fs) []))

/-- A record has the fields that its type requires, and no other one of its fields is null. -/
inductive Uniform (required : TypeId → String → Prop) : Value → Prop
  | scalar (v : Value) : v.IsScalar → Uniform required v
  | record (t : TypeId) (fs : List (String × Value)) : (∀ n, required t n → n ∈ fs.map Prod.fst) →
    (∀ n, (n, null) ∈ fs → required t n) → (∀ f ∈ fs, Uniform required f.2) → Uniform required (record t fs)

/-- Equality both ways. -/
def Alike (a b : Value) : Prop := a.same b = true ∧ b.same a = true

variable {required : TypeId → String → Prop} {a b c : Value} {t u : TypeId} {fs gs : List (String × Value)}
  {n : String}

theorem null_isScalar : null.IsScalar := fun _ _ h => by cases h

theorem Coherent.setFields (sets : List (String × Value)) (hs : ∀ f ∈ sets, Coherent f.2)
    (h : Coherent (.record t fs)) : Coherent (.record t (sets.foldl (fun fs f => Value.setField f.1 f.2 fs) fs)) := by
  induction sets generalizing fs with
  | nil => exact h
  | cons f sets ih =>
    exact ih (fun g hg => hs g (List.mem_cons_of_mem _ hg)) (h.setField (hs f List.mem_cons_self) f.1)

theorem Built.coherent (h : Built a) : Coherent a := by
  induction h with
  | scalar v hv => exact .scalar v hv
  | record t sets _ ih => exact .setFields sets ih (.record t [] List.nodup_nil (by simp))

theorem Coherent.nodup (h : Coherent (.record t fs)) : (fs.map Prod.fst).Nodup := by
  cases h with
  | scalar _ hs => exact absurd rfl (hs t fs)
  | record _ _ hd _ => exact hd

/-! ## What a record reads -/

theorem field_eq_null (h : n ∉ fs.map Prod.fst) : field fs n = null := by
  induction fs with
  | nil => rfl
  | cons f fs ih =>
    obtain ⟨m, v⟩ := f
    simp only [List.map_cons, List.mem_cons, not_or] at h
    rw [field, if_neg (Ne.symm h.1)]
    exact ih h.2

theorem mem_of_name (hd : (fs.map Prod.fst).Nodup) (h : n ∈ fs.map Prod.fst) : (n, field fs n) ∈ fs := by
  obtain ⟨f, hf, rfl⟩ := List.mem_map.mp h
  rw [field_of_mem hd hf]
  exact hf

/-- What holds of null and of all fields holds of all that is read. -/
theorem field_induction {P : Value → Prop} (hd : (fs.map Prod.fst).Nodup) (hnull : P null) (hf : ∀ f ∈ fs, P f.2)
    (n : String) : P (field fs n) := by
  by_cases h : n ∈ fs.map Prod.fst
  · exact hf _ (mem_of_name hd h)
  · rw [field_eq_null h]
    exact hnull

theorem Coherent.field (h : Coherent (.record t fs)) (n : String) : Coherent (Value.field fs n) := by
  cases h with
  | scalar _ hs => exact absurd rfl (hs t fs)
  | record _ _ hd hf => exact field_induction hd (.scalar _ null_isScalar) hf n

theorem Uniform.field (hd : (fs.map Prod.fst).Nodup) (h : Uniform required (.record t fs)) (n : String) :
    Uniform required (Value.field fs n) := by
  cases h with
  | scalar _ hs => exact absurd rfl (hs t fs)
  | record _ _ _ _ hf => exact field_induction hd (.scalar _ null_isScalar) hf n

theorem same_null_left : null.same a = true ↔ a = null := by
  rw [same_eq_sameScalar (.inl null_isScalar)]
  cases a <;> simp [sameScalar]

theorem same_null_right : a.same null = true ↔ a = null := by
  rw [same_eq_sameScalar (.inr null_isScalar)]
  cases a <;> simp [sameScalar]

theorem same_record_iff (hd : (fs.map Prod.fst).Nodup) : (record t fs).same (record u gs) = true ↔
    t = u ∧ fs.length = gs.length ∧ ∀ n ∈ fs.map Prod.fst, (field gs n).same (field fs n) = true := by
  rw [same_record, Bool.and_eq_true, Bool.and_eq_true, beq_iff_eq, beq_iff_eq, List.all_eq_true, and_assoc]
  refine and_congr_right fun _ => and_congr_right fun _ => ⟨fun h n hn => ?_, fun h f hf => ?_⟩
  · exact h _ (mem_of_name hd hn)
  · have hn := h f.1 (List.mem_map_of_mem hf)
    rwa [field_of_mem hd hf] at hn

/-! ## Both ways -/

theorem Alike.symm (h : a.Alike b) : b.Alike a := ⟨h.2, h.1⟩

theorem alike_null : a.Alike null ↔ a = null := by
  refine ⟨fun h => same_null_right.mp h.1, ?_⟩
  rintro rfl
  exact ⟨rfl, rfl⟩

/-- Records are alike if they read alike, whatever their fields are. -/
theorem alike_record (hf : (fs.map Prod.fst).Nodup) (hg : (gs.map Prod.fst).Nodup) :
    (record t fs).Alike (record u gs) ↔ t = u ∧ fs.length = gs.length ∧ ∀ n, (field fs n).Alike (field gs n) := by
  unfold Alike
  rw [same_record_iff hf, same_record_iff hg]
  constructor
  · rintro ⟨⟨ht, hl, hfg⟩, -, -, hgf⟩
    refine ⟨ht, hl, fun n => ?_⟩
    by_cases hn : n ∈ fs.map Prod.fst
    · by_cases hm : n ∈ gs.map Prod.fst
      · exact ⟨hgf n hm, hfg n hn⟩
      · have hs := hfg n hn
        rw [field_eq_null hm, same_null_left] at hs
        rw [field_eq_null hm, hs]
        exact ⟨rfl, rfl⟩
    · by_cases hm : n ∈ gs.map Prod.fst
      · have hs := hgf n hm
        rw [field_eq_null hn, same_null_left] at hs
        rw [field_eq_null hn, hs]
        exact ⟨rfl, rfl⟩
      · rw [field_eq_null hn, field_eq_null hm]
        exact ⟨rfl, rfl⟩
  · rintro ⟨rfl, hl, h⟩
    exact ⟨⟨rfl, hl, fun n _ => (h n).2⟩, rfl, hl.symm, fun n _ => (h n).1⟩

theorem Alike.trans (ha : a.Coherent) (hb : b.Coherent) (hc : c.Coherent) (hab : a.Alike b) (hbc : b.Alike c) :
    a.Alike c := by
  induction ha generalizing b c with
  | scalar a has =>
    have hbs := has.of_same hab.1
    have hcs := hbs.of_same hbc.1
    exact ⟨same_trans hbs (.inl has) hab.1 hbc.1, same_trans hbs (.inl hcs) hbc.2 hab.2⟩
  | record t fs hd hf ih =>
    cases b with
    | record u gs =>
      cases c with
      | record v hs =>
        rw [alike_record hd hb.nodup] at hab
        rw [alike_record hb.nodup hc.nodup] at hbc
        rw [alike_record hd hc.nodup]
        obtain ⟨rfl, hl, hr⟩ := hab
        obtain ⟨rfl, hl', hr'⟩ := hbc
        refine ⟨rfl, hl.trans hl', fun n => ?_⟩
        by_cases hn : n ∈ fs.map Prod.fst
        · exact ih _ (mem_of_name hd hn) (hb.field n) (hc.field n) (hr n) (hr' n)
        · -- the left record reads null, so the others do
          have h := hr n
          have h' := hr' n
          rw [field_eq_null hn] at h ⊢
          rw [alike_null.mp h.symm] at h'
          exact h'
      | _ => exact absurd hbc.1 (by simp [same, sameScalar])
    | _ => exact absurd hab.1 (by simp [same, sameScalar])

/-! ## One way -/

/-- A field without a counterpart would be null, so its type requires it of both records. -/
theorem names_subset (hd : (fs.map Prod.fst).Nodup) (ha : Uniform required (.record t fs))
    (hb : Uniform required (.record t gs)) (h : (record t fs).same (record t gs) = true) :
    fs.map Prod.fst ⊆ gs.map Prod.fst := by
  intro n hn
  refine Classical.byContradiction fun hm => ?_
  have hs := ((same_record_iff hd).mp h).2.2 n hn
  rw [field_eq_null hm, same_null_left] at hs
  have hmem := mem_of_name hd hn
  rw [hs] at hmem
  cases ha with
  | scalar _ hsc => exact hsc t fs rfl
  | record _ _ _ hnull _ =>
    cases hb with
    | scalar _ hsc => exact hsc t gs rfl
    | record _ _ hall _ _ => exact hm (hall n (hnull n hmem))

theorem names_iff (hf : (fs.map Prod.fst).Nodup) (ha : Uniform required (.record t fs))
    (hb : Uniform required (.record t gs)) (h : (record t fs).same (record t gs) = true) (n : String) :
    n ∈ fs.map Prod.fst ↔ n ∈ gs.map Prod.fst := by
  have hl := ((same_record_iff hf).mp h).2.1
  -- As many names on both sides, so the inclusion is enough.
  have hperm := (hf.subperm (names_subset hf ha hb h)).perm_of_length_le (by simp [hl])
  exact hperm.mem_iff

theorem same_comm (ha : a.Coherent) (hb : b.Coherent) (hau : a.Uniform required) (hbu : b.Uniform required) :
    a.same b = b.same a := by
  rw [Bool.eq_iff_iff]
  induction ha generalizing b with
  | scalar a has => exact ⟨same_symm (.inl has), same_symm (.inr has)⟩
  | record t fs hd hf ih =>
    cases b with
    | record u gs =>
      have hread (n : String) (hn : n ∈ fs.map Prod.fst) :
          (field fs n).same (field gs n) = true ↔ (field gs n).same (field fs n) = true :=
        ih _ (mem_of_name hd hn) (hb.field n) (hau.field hd n) (hbu.field hb.nodup n)
      constructor
      · intro h
        obtain ⟨rfl, hl, hr⟩ := (same_record_iff hd).mp h
        refine (same_record_iff hb.nodup).mpr ⟨rfl, hl.symm, fun n hn => ?_⟩
        have hn := (names_iff hd hau hbu h n).mpr hn
        exact (hread n hn).mpr (hr n hn)
      · intro h
        obtain ⟨rfl, hl, hr⟩ := (same_record_iff hb.nodup).mp h
        refine (same_record_iff hd).mpr ⟨rfl, hl.symm, fun n hn => ?_⟩
        exact (hread n hn).mp (hr n ((names_iff hb.nodup hbu hau h n).mpr hn))
    | _ => simp [same, sameScalar]

/-- Equality is reflexive. Both ways it is transitive, and one way it is symmetric and transitive on values that agree
on which fields are null. -/
theorem equality_laws (required : TypeId → String → Prop) {a b c : Value} (ha : a.Built) (hb : b.Built) (hc : c.Built) :
    a.same a = true ∧ (a.Alike b → b.Alike c → a.Alike c) ∧ (a.Uniform required → b.Uniform required →
      a.same b = b.same a ∧ (c.Uniform required → a.same b = true → b.same c = true → a.same c = true)) := by
  have htrans := Alike.trans ha.coherent hb.coherent hc.coherent
  refine ⟨same_refl ha.coherent, htrans, fun hau hbu => ?_⟩
  have hab := same_comm ha.coherent hb.coherent hau hbu
  refine ⟨hab, fun hcu h h' => ?_⟩
  have hbc := same_comm hb.coherent hc.coherent hbu hcu
  exact (htrans ⟨h, hab ▸ h⟩ ⟨h', hbc ▸ h'⟩).1

namespace Points

def point (fields : List (String × Value)) : Value := record ⟨5⟩ fields

theorem point_built {fs : List (String × Value)} (hs : ∀ f ∈ fs, f.2.IsScalar)
    (he : fs.foldl (fun gs f => setField f.1 f.2 gs) [] = fs) : (point fs).Built := by
  have hb := Built.record ⟨5⟩ fs fun f hf => .scalar _ (hs f hf)
  rwa [he] at hb

theorem point_uniform {fs : List (String × Value)} (hs : ∀ f ∈ fs, f.2.IsScalar) (hy : "Y" ∈ fs.map Prod.fst)
    (hnull : ∀ n, (n, null) ∈ fs → n = "Y") : (point fs).Uniform fun _ n => n = "Y" := by
  refine .record _ _ ?_ hnull fun f hf => .scalar _ (hs f hf)
  rintro n rfl
  exact hy

theorem integer_isScalar (i : Int64) : (integer i).IsScalar := fun _ _ h => by cases h

/-- Points whose ordinate may be null are equal whatever the order of their fields, and seen from either side. -/
theorem reordered_same : (point [("X", integer 1), ("Y", null)]).same (point [("Y", null), ("X", integer 1)]) =
    (point [("Y", null), ("X", integer 1)]).same (point [("X", integer 1), ("Y", null)]) := by
  have hs : ∀ f ∈ [("X", integer 1), ("Y", null)], f.2.IsScalar := by
    simp [null_isScalar, integer_isScalar]
  have hs' : ∀ f ∈ [("Y", null), ("X", integer 1)], f.2.IsScalar := by
    simp [null_isScalar, integer_isScalar]
  have hlaws := equality_laws (fun _ n => n = "Y") (point_built hs rfl) (point_built hs' rfl) (point_built hs rfl)
  exact (hlaws.2.2 (point_uniform hs (by simp) (by simp)) (point_uniform hs' (by simp) (by simp))).1

/-- A null field is equal to a field of another name, but not the other way round, and two null fields of different
names are equal. -/
theorem null_like_missing :
    (point [("A", null)]).Built ∧ (point [("B", null)]).Built ∧ (point [("A", integer 5)]).Built ∧
    (point [("B", null)]).same (point [("A", integer 5)]) = true ∧
    (point [("A", integer 5)]).same (point [("B", null)]) = false ∧
    (point [("A", null)]).same (point [("B", null)]) = true ∧
    (point [("A", null)]).same (point [("A", integer 5)]) = false := by
  refine ⟨point_built ?_ rfl, point_built ?_ rfl, point_built ?_ rfl, rfl, rfl, rfl, rfl⟩
  all_goals simp [null_isScalar, integer_isScalar]

end Points

end DataBinding.Value
