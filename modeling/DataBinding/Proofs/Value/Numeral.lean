import Mathlib.Data.List.Induction
import Mathlib.Data.Nat.Digits.Defs
import DataBinding.Value.Convert

/-!
# Integers as texts

A text becomes an integer if it is a numeral with blanks around it: one or more decimal digits, with a sign in front or
without one, whose value fits into 64 bits. Every other text is refused, and what an integer is shown as is a numeral
of that integer (`integer_texts`).
-/

namespace DataBinding

namespace Decimal

/-- The value of decimal digits by their places, the last one counting ones. -/
def placeValue (ds : List Char) : Nat := Nat.ofDigits 10 (ds.reverse.map digitValue)

def IsDigits (ds : List Char) : Prop := ds ≠ [] ∧ ∀ d ∈ ds, d.isDigit = true

/-- Decimal digits with an optional sign, and their value. -/
inductive Numeral : List Char → Int → Prop
  | unsigned {ds : List Char} : IsDigits ds → Numeral ds (placeValue ds)
  | plus {ds : List Char} : IsDigits ds → Numeral ('+' :: ds) (placeValue ds)
  | minus {ds : List Char} : IsDigits ds → Numeral ('-' :: ds) (-placeValue ds)

/-- The text is a numeral with blanks around it. -/
def Written (s : String) (n : Int) : Prop :=
  ∃ lead cs trail, s.toList = lead ++ cs ++ trail ∧ (∀ c ∈ lead ++ trail, Text.isBlank c = true) ∧ Numeral cs n

theorem natOfDigits_append (ds : List Char) (d : Char) :
    natOfDigits (ds ++ [d]) = 10 * natOfDigits ds + digitValue d := by
  simp [natOfDigits]

/-- Reading from the left gives every digit the value of its place. -/
theorem natOfDigits_eq (ds : List Char) : natOfDigits ds = placeValue ds := by
  induction ds using List.reverseRecOn with
  | nil => rfl
  | append_singleton ds d ih =>
    rw [natOfDigits_append, ih, placeValue, placeValue, List.reverse_append, List.reverse_singleton,
      List.singleton_append, List.map_cons, Nat.ofDigits_cons]
    exact Nat.add_comm _ _

theorem splitSign_digits {ds : List Char} (h : IsDigits ds) : splitSign ds = (false, ds) := by
  unfold splitSign
  split
  · exact absurd (h.2 _ List.mem_cons_self) (by decide)
  · exact absurd (h.2 _ List.mem_cons_self) (by decide)
  · rfl

theorem numeral_iff_splitSign {cs : List Char} {n : Int} :
    Numeral cs n ↔
      IsDigits (splitSign cs).2 ∧
        n = if (splitSign cs).1 then -(placeValue (splitSign cs).2 : Int) else placeValue (splitSign cs).2 := by
  constructor
  · intro h
    cases h with
    | unsigned h =>
      rw [splitSign_digits h]
      exact ⟨h, rfl⟩
    | plus h => exact ⟨h, rfl⟩
    | minus h => exact ⟨h, rfl⟩
  · rintro ⟨h, rfl⟩
    unfold splitSign at h ⊢
    split at h
    · exact .minus h
    · exact .plus h
    · exact .unsigned h

theorem readInt?_eq_some {cs : List Char} {n : Int} : readInt? cs = some n ↔ Numeral cs n := by
  have hdigits : ((splitSign cs).2 ≠ [] ∧ (splitSign cs).2.all Char.isDigit = true) ↔ IsDigits (splitSign cs).2 := by
    rw [List.all_eq_true, IsDigits]
  simp only [readInt?, hdigits, natOfDigits_eq, numeral_iff_splitSign, Option.ite_none_right_eq_some, Option.some.injEq]
  grind

theorem readInt64?_eq_some {cs : List Char} {i : Int64} : readInt64? cs = some i ↔ Numeral cs i.toInt := by
  rw [← readInt?_eq_some, readInt64?]
  cases readInt? cs with
  | none => simp
  | some n =>
    by_cases hfits : inInt64 n = true
    · simp [hfits, ← Int64.toInt_inj, toInt_ofInt hfits]
    · have hne : n ≠ i.toInt := by
        rintro rfl
        exact hfits (inInt64_toInt i)
      simp [hfits, hne]

theorem natOfDigits_decimalDigits (n : Nat) : natOfDigits (decimalDigits n) = n :=
  Nat.ofDigitChars_ten_toDigits

theorem intDigits_numeral (n : Int) : Numeral (intDigits n) n := by
  have hdigits : IsDigits (decimalDigits n.natAbs) :=
    ⟨Nat.toDigits_ne_nil, fun _ => Nat.isDigit_of_mem_toDigits (by decide) (by decide)⟩
  have hvalue : placeValue (decimalDigits n.natAbs) = n.natAbs := by
    rw [← natOfDigits_eq, natOfDigits_decimalDigits]
  unfold intDigits
  split
  next hneg =>
    have h := Numeral.minus hdigits
    rwa [hvalue, Int.ofNat_natAbs_of_nonpos (Int.le_of_lt hneg), Int.neg_neg] at h
  next hpos =>
    have h := Numeral.unsigned hdigits
    rwa [hvalue, Int.natAbs_of_nonneg (Int.not_lt.mp hpos)] at h

theorem isBlank_of_isDigit {c : Char} (h : c.isDigit = true) : Text.isBlank c = false := by
  have hrange : 48 ≤ c.toNat ∧ c.toNat ≤ 57 := by
    simpa [Char.isDigit, UInt32.le_iff_toNat_le] using h
  simp only [Text.isBlank, Bool.or_eq_false_iff, Bool.and_eq_false_iff, decide_eq_false_iff_not, beq_eq_false_iff_ne]
  omega

theorem Numeral.not_isBlank {cs : List Char} {n : Int} (h : Numeral cs n) : ∀ c ∈ cs, Text.isBlank c = false := by
  cases h with
  | unsigned h => exact fun c hc => isBlank_of_isDigit (h.2 c hc)
  | plus h => exact List.forall_mem_cons.mpr ⟨rfl, fun c hc => isBlank_of_isDigit (h.2 c hc)⟩
  | minus h => exact List.forall_mem_cons.mpr ⟨rfl, fun c hc => isBlank_of_isDigit (h.2 c hc)⟩

theorem readInt64?_trim {s : String} {i : Int64} :
    readInt64? (Text.trim s.toList) = some i ↔ Written s i.toInt := by
  constructor
  · intro h
    obtain ⟨lead, trail, hs, hblank⟩ := Text.exists_trim s.toList
    exact ⟨lead, _, trail, hs, hblank, readInt64?_eq_some.mp h⟩
  · rintro ⟨lead, cs, trail, hs, hblank, hn⟩
    have hcs := hn.not_isBlank
    rw [hs, Text.trim_surrounded hblank (fun c hc => hcs c (List.mem_of_mem_head? hc))
      (fun c hc => hcs c (List.mem_of_mem_getLast? hc))]
    exact readInt64?_eq_some.mpr hn

theorem written_intText (n : Int) : Written (intText n) n := by
  refine ⟨[], intDigits n, [], ?_, nofun, intDigits_numeral n⟩
  rw [intText, String.toList_ofList, List.nil_append, List.append_nil]

end Decimal

namespace Value

open Decimal

variable (types : TypeTable)

theorem change_text_int (s : String) :
    (text s).change types .int =
      match readInt64? (Text.trim s.toList) with
      | some i => .ok (integer i)
      | none => .error (.invalidCast "String" "Int") := by
  have hconvert : (text s).convert? types .int .string = (readInt64? (Text.trim s.toList)).map integer := rfl
  simp only [change, type?]
  rw [if_neg (by decide), hconvert]
  cases readInt64? (Text.trim s.toList) <;> rfl

theorem change_integer_string (i : Int64) : (integer i).change types .string = .ok (text (intText i.toInt)) := rfl

/-- Conversions between texts and integers are exact. A text becomes the integer that is written there and is refused if
there is none of 64 bits; the text that an integer becomes gives it back. -/
theorem integer_texts :
    (∀ s : String,
      (∀ i : Int64, (text s).change types .int = .ok (integer i) ↔ Written s i.toInt) ∧
        ((∀ i : Int64, ¬ Written s i.toInt) →
          (text s).change types .int = .error (.invalidCast "String" "Int"))) ∧
      ∀ i : Int64, ∃ s, (integer i).change types .string = .ok (text s) ∧ (text s).change types .int = .ok (integer i) := by
  have hread : ∀ s i, (text s).change types .int = .ok (integer i) ↔ Written s i.toInt := by
    intro s i
    rw [← readInt64?_trim, change_text_int]
    cases readInt64? (Text.trim s.toList) <;> simp
  refine ⟨fun s => ⟨hread s, fun hnone => ?_⟩, fun i => ?_⟩
  · rw [change_text_int]
    cases hi : readInt64? (Text.trim s.toList) with
    | none => rfl
    | some i => exact absurd (readInt64?_trim.mp hi) (hnone i)
  · exact ⟨_, change_integer_string types i, (hread _ i).mpr (written_intText i.toInt)⟩

end Value

end DataBinding
