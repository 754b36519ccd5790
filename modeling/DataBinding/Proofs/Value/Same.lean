import DataBinding.Value.Equality

/-!
# Laws of equality

Two numbers are the same exactly if they are one number once the sign of zero is dropped (`sameNumber_iff`). A
record is the same as itself if it names no field twice (`same_refl`).
-/

namespace DataBinding

open Float.Model (UnpackedFloat)

/-- A number without the sign of zero. -/
def unsignedZero : UnpackedFloat → UnpackedFloat
  | .zero _ => .zero .positive
  | u => u

theorem compare_eq_iff {a : UnpackedFloat} (ha : a.isNaN = false) (b : UnpackedFloat) :
    a.compare b = some .eq ↔ unsignedZero a = unsignedZero b := by
  cases a with
  | notANumber => cases ha
  | infinity s =>
    cases b with
    | infinity s' =>
      cases s <;> cases s' <;>
        first | exact iff_of_true rfl rfl | exact iff_of_false (fun hc => by cases hc) (fun hu => by cases hu)
    | _ => exact iff_of_false (fun hc => by cases s <;> cases hc) (fun hu => by cases hu)
  | zero s =>
    cases b with
    | zero s' => exact iff_of_true rfl rfl
    | notANumber => exact iff_of_false (fun hc => by cases hc) (fun hu => by cases hu)
    | infinity s' => exact iff_of_false (fun hc => by cases s' <;> cases hc) (fun hu => by cases hu)
    | finite s' m e h => exact iff_of_false (fun hc => by cases s' <;> cases hc) (fun hu => by cases hu)
  | finite s m e h =>
    cases b with
    | finite s' m' e' h' =>
      show _ ↔ UnpackedFloat.finite s m e h = .finite s' m' e' h'
      rw [UnpackedFloat.finite.injEq]
      cases s <;> cases s'
      · show some ((compare e e').then (compare m m')).swap = _ ↔ _
        simp [Ordering.then_eq_eq, and_comm]
      · exact iff_of_false (fun hc => by cases hc) (fun hs => by cases hs.1)
      · exact iff_of_false (fun hc => by cases hc) (fun hs => by cases hs.1)
      · show some ((compare e e').then (compare m m')) = _ ↔ _
        simp [Ordering.then_eq_eq, and_comm]
    | infinity s' => exact iff_of_false (fun hc => by cases s' <;> cases hc) (fun hu => by cases hu)
    | _ => exact iff_of_false (fun hc => by cases s <;> cases hc) (fun hu => by cases hu)

theorem unsignedZero_eq_notANumber {a : UnpackedFloat} : unsignedZero a = .notANumber ↔ a.isNaN = true := by
  cases a with
  | notANumber => exact ⟨fun _ => rfl, fun _ => rfl⟩
  | _ => exact ⟨(fun h => by cases h), (fun h => by cases h)⟩

namespace Value

theorem sameNumber_iff (x y : Float) :
    sameNumber x y = true ↔ unsignedZero x.toModel.unpack = unsignedZero y.toModel.unpack := by
  have hbeq : (x == y) = (x.toModel.unpack.compare y.toModel.unpack == some .eq) := rfl
  have hx : x.isNaN = x.toModel.unpack.isNaN := rfl
  have hy : y.isNaN = y.toModel.unpack.isNaN := rfl
  rw [sameNumber, hbeq, hx, hy, Bool.or_eq_true, beq_iff_eq, Bool.and_eq_true]
  cases hn : x.toModel.unpack.isNaN with
  | false => simp [compare_eq_iff hn]
  | true =>
    have hu := unsignedZero_eq_notANumber.mpr hn
    have hc : x.toModel.unpack = .notANumber := by
      cases hm : x.toModel.unpack <;> rw [hm] at hn <;> first | rfl | cases hn
    have hnone : UnpackedFloat.notANumber.compare y.toModel.unpack = none := by
      cases y.toModel.unpack <;> rfl
    rw [hu, hc, hnone, eq_comm (a := UnpackedFloat.notANumber), unsignedZero_eq_notANumber]
    simp

def IsScalar (v : Value) : Prop := ∀ t fs, v ≠ record t fs

theorem sameScalar_refl {v : Value} (h : v.IsScalar) : sameScalar v v = true := by
  cases v with
  | number x => exact (sameNumber_iff x x).mpr rfl
  | record t fs => exact absurd rfl (h t fs)
  | _ => simp [sameScalar]

/-- Records name no field twice, however deep they are. -/
inductive Coherent : Value → Prop
  | scalar (v : Value) : v.IsScalar → Coherent v
  | record (t : TypeId) (fs : List (String × Value)) : (fs.map Prod.fst).Nodup → (∀ f ∈ fs, Coherent f.2) →
    Coherent (record t fs)

theorem mem_setField {name : String} {v : Value} {fs : List (String × Value)} {f : String × Value}
    (hf : f ∈ setField name v fs) : f ∈ fs ∨ f = (name, v) := by
  induction fs with
  | nil => exact .inr (List.mem_singleton.mp hf)
  | cons g gs ih =>
    obtain ⟨n, w⟩ := g
    rw [setField] at hf
    split at hf
    · rename_i hn
      subst hn
      exact (List.mem_cons.mp hf).elim .inr fun hg => .inl (List.mem_cons_of_mem _ hg)
    · rcases List.mem_cons.mp hf with rfl | hg
      · exact .inl List.mem_cons_self
      · exact (ih hg).imp (List.mem_cons_of_mem _) id

theorem nodup_setField {name : String} {v : Value} {fs : List (String × Value)} (h : (fs.map Prod.fst).Nodup) :
    ((setField name v fs).map Prod.fst).Nodup := by
  induction fs with
  | nil => simp [setField]
  | cons g gs ih =>
    obtain ⟨n, w⟩ := g
    rw [List.map_cons, List.nodup_cons] at h
    rw [setField]
    split
    · exact List.nodup_cons.mpr h
    · rename_i hn
      refine List.nodup_cons.mpr ⟨fun hm => ?_, ih h.2⟩
      obtain ⟨f, hf, hfn⟩ := List.mem_map.mp hm
      rcases mem_setField hf with hg | rfl
      · exact h.1 (List.mem_map.mpr ⟨f, hg, hfn⟩)
      · exact hn hfn.symm

/-- Setting fields, as records are built, keeps them coherent. -/
theorem Coherent.setField {t : TypeId} {fs : List (String × Value)} (h : Coherent (.record t fs)) {v : Value}
    (hv : v.Coherent) (name : String) : Coherent (.record t (setField name v fs)) := by
  cases h with
  | scalar _ hs => exact absurd rfl (hs t fs)
  | record _ _ hd hf =>
    refine .record t _ (nodup_setField hd) fun f hm => ?_
    rcases mem_setField hm with hg | rfl
    · exact hf f hg
    · exact hv

theorem field_of_mem {fs : List (String × Value)} (hd : (fs.map Prod.fst).Nodup) {f : String × Value}
    (hf : f ∈ fs) : field fs f.1 = f.2 := by
  induction fs with
  | nil => cases hf
  | cons g gs ih =>
    obtain ⟨n, v⟩ := g
    rw [List.map_cons, List.nodup_cons] at hd
    rcases List.mem_cons.mp hf with rfl | hg
    · simp [field]
    · have hne : n ≠ f.1 := fun he => hd.1 (List.mem_map.mpr ⟨f, hg, he.symm⟩)
      rw [field, if_neg hne]
      exact ih hd.2 hg

theorem same_refl {v : Value} (h : v.Coherent) : same v v = true := by
  induction h with
  | scalar v hv =>
    have hs := sameScalar_refl hv
    cases v with
    | record t fs => exact absurd rfl (hv t fs)
    | _ => exact hs
  | record t fs hd _ ih =>
    rw [same_record]
    simp only [beq_self_eq_true, Bool.true_and, List.all_eq_true]
    intro f hf
    rw [field_of_mem hd hf]
    exact ih f hf

/-! ## Scalars -/

section
variable {a b c : Value}

theorem same_eq_sameScalar (h : a.IsScalar ∨ b.IsScalar) : same a b = sameScalar a b := by
  cases a with
  | record t fs =>
    cases b with
    | record u gs => exact absurd rfl (h.elim (fun h => h t fs) fun h => absurd rfl (h u gs))
    | _ => rfl
  | _ => rfl

theorem sameScalar_symm (h : sameScalar a b = true) : sameScalar b a = true := by
  cases a <;> cases b <;> simp only [sameScalar, beq_iff_eq, Bool.false_eq_true] at h ⊢
  case number.number x y => exact (sameNumber_iff y x).mpr ((sameNumber_iff x y).mp h).symm
  all_goals exact h.symm

theorem sameScalar_trans (h : sameScalar a b = true) (h' : sameScalar b c = true) : sameScalar a c = true := by
  cases a <;> cases b <;> simp only [sameScalar, beq_iff_eq, Bool.false_eq_true] at h
  all_goals cases c <;> simp only [sameScalar, beq_iff_eq, Bool.false_eq_true] at h' ⊢
  case number.number.number x y z =>
    exact (sameNumber_iff x z).mpr (((sameNumber_iff x y).mp h).trans ((sameNumber_iff y z).mp h'))
  all_goals exact h.trans h'

theorem same_symm (ha : a.IsScalar ∨ b.IsScalar) (h : same a b = true) : same b a = true := by
  rw [same_eq_sameScalar ha] at h
  rw [same_eq_sameScalar ha.symm]
  exact sameScalar_symm h

theorem same_trans (hb : b.IsScalar) (hac : a.IsScalar ∨ c.IsScalar) (h : same a b = true) (h' : same b c = true) :
    same a c = true := by
  rw [same_eq_sameScalar (.inr hb)] at h
  rw [same_eq_sameScalar (.inl hb)] at h'
  rw [same_eq_sameScalar hac]
  exact sameScalar_trans h h'

theorem IsScalar.of_same (ha : a.IsScalar) (h : a.same b = true) : b.IsScalar := by
  rintro t fs rfl
  rw [same_eq_sameScalar (.inl ha)] at h
  cases a <;> cases h

end

end Value

end DataBinding
