import DataBinding.Value.Basic

/-!
# Equality of values

Strict equality has no promotion between numbers, takes objects by identity, and lets an undefined number
equal itself. Records are equal if they have one type, as many fields, and each field of the first is equal
to what the second reads under its name (`same_record`). Loose equality compares integers with numbers.
-/

namespace DataBinding.Value

/-- Equality of numbers in which an undefined number equals itself. -/
def sameNumber (x y : Float) : Bool := x == y || (x.isNaN && y.isNaN)

/-- Equality of values that are not both records. -/
def sameScalar : Value → Value → Bool
  | null, null => true
  | boolean a, boolean b => a == b
  | integer a, integer b => a == b
  | number a, number b => sameNumber a b
  | text a, text b => a == b
  | object a, object b => a.name == b.name
  | _, _ => false

mutual
def same (a b : Value) : Bool :=
  match a, b with
  | record t fs, record u gs => t == u && fs.length == gs.length && fieldsSame fs gs
  | a, b => sameScalar a b
termination_by structural a
/-- Strict equality seen from its right side. -/
def sameFlip (a b : Value) : Bool :=
  match a, b with
  | record t fs, record u gs => u == t && gs.length == fs.length && gs.all fun f => fieldSame fs f.1 f.2
  | a, b => sameScalar b a
termination_by structural a
/-- Every field of the first record is equal to what the second reads under its name. -/
def fieldsSame (fs gs : List (String × Value)) : Bool :=
  match fs with
  | [] => true
  | (n, v) :: fs => sameFlip v (field gs n) && fieldsSame fs gs
termination_by structural fs
/-- What the record reads under the name is equal to `w`. -/
def fieldSame (fs : List (String × Value)) (n : String) (w : Value) : Bool :=
  match fs with
  | [] => sameScalar null w
  | (m, v) :: fs => if m = n then same v w else fieldSame fs n w
termination_by structural fs
end

theorem fieldSame_eq (fs : List (String × Value)) (n : String) (w : Value) :
    fieldSame fs n w = same (field fs n) w := by
  induction fs with
  | nil => simp [fieldSame, field, same]
  | cons f fs ih => grind [fieldSame, field]

theorem sizeOf_field_le (fs : List (String × Value)) (n : String) : sizeOf (field fs n) ≤ sizeOf fs := by
  induction fs with
  | nil => simp [field]
  | cons f fs ih =>
    obtain ⟨m, v⟩ := f
    simp only [field]
    split <;> simp <;> omega

theorem fieldsSame_eq_all (fs gs : List (String × Value))
    (h : ∀ f ∈ fs, sameFlip f.2 (field gs f.1) = same (field gs f.1) f.2) :
    fieldsSame fs gs = fs.all fun f => same (field gs f.1) f.2 := by
  induction fs with
  | nil => simp [fieldsSame]
  | cons f fs ih =>
    simp only [fieldsSame, List.all_cons, h f (by simp)]
    rw [ih fun g hg => h g (by simp [hg])]

theorem sameFlip_eq (a b : Value) : sameFlip a b = same b a := by
  induction hn : sizeOf a + sizeOf b using Nat.strongRecOn generalizing a b with
  | ind n ih =>
    cases a with
    | record t fs =>
      cases b with
      | record u gs =>
        have hw : ∀ f ∈ gs, sameFlip f.2 (field fs f.1) = same (field fs f.1) f.2 := by
          intro f hf
          have h₁ := List.sizeOf_lt_of_mem hf
          have h₂ : sizeOf f.2 < sizeOf f := by
            cases f
            simp only [Prod.mk.sizeOf_spec]
            omega
          have h₃ := sizeOf_field_le fs f.1
          refine ih (sizeOf f.2 + sizeOf (field fs f.1)) ?_ _ _ rfl
          simp only [record.sizeOf_spec] at hn
          omega
        simp only [sameFlip, same, fieldsSame_eq_all gs fs hw, fieldSame_eq]
      | _ => simp [sameFlip, same]
    | _ => simp [sameFlip, same]

/-- Equality of records: one type, as many fields, and each field of the first is what the second reads. -/
theorem same_record (t u : TypeId) (fs gs : List (String × Value)) :
    same (record t fs) (record u gs) =
      (t == u && fs.length == gs.length && fs.all fun f => same (field gs f.1) f.2) := by
  simp only [same]
  rw [fieldsSame_eq_all fs gs fun f _ => sameFlip_eq f.2 _]

/-- Equality of an integer and a number, by value; strict equality otherwise. -/
def looselySame : Value → Value → Bool
  | integer i, number x => i.toFloat == x
  | number x, integer i => i.toFloat == x
  | a, b => same a b

end DataBinding.Value
