import DataBinding.Decimal.Layout

/-!
# Reading decimals

Integers of 64 bits and doubles from text. The whole text has to belong to the number; blanks around it are
the caller's affair.
-/

namespace DataBinding.Decimal

def digitValue (c : Char) : Nat := c.toNat - '0'.toNat

def natOfDigits (ds : List Char) : Nat := ds.foldl (fun n d => 10 * n + digitValue d) 0

def splitSign : List Char → Bool × List Char
  | '-' :: cs => (true, cs)
  | '+' :: cs => (false, cs)
  | cs => (false, cs)

def splitDigits (cs : List Char) : List Char × List Char := (cs.takeWhile Char.isDigit, cs.dropWhile Char.isDigit)

/-- One or more digits with an optional sign. -/
def readInt? (cs : List Char) : Option Int :=
  let (negative, ds) := splitSign cs
  if ds ≠ [] ∧ ds.all Char.isDigit then
    some (if negative then -(natOfDigits ds : Int) else natOfDigits ds)
  else none

def inInt64 (n : Int) : Bool := -0x8000000000000000 ≤ n && n < 0x8000000000000000

theorem inInt64_iff {n : Int} : inInt64 n = true ↔ -0x8000000000000000 ≤ n ∧ n < 0x8000000000000000 := by
  simp [inInt64]

theorem inInt64_toInt (i : Int64) : inInt64 i.toInt = true := inInt64_iff.mpr ⟨i.le_toInt, i.toInt_lt⟩

theorem toInt_ofInt {n : Int} (h : inInt64 n = true) : (Int64.ofInt n).toInt = n :=
  Int64.toInt_ofInt_of_le (inInt64_iff.mp h).1 (inInt64_iff.mp h).2

def readInt64? (cs : List Char) : Option Int64 :=
  match readInt? cs with
  | some n => if inInt64 n then some (Int64.ofInt n) else none
  | none => none

/-- The exponent part: nothing, or a mark, an optional sign and digits. -/
def readExponent? : List Char → Option Int
  | [] => some 0
  | c :: cs => if c = 'e' ∨ c = 'E' then readInt? cs else none

/-- Digits with at most one point, at least one digit, and an optional exponent. -/
def readScaled? (cs : List Char) : Option Scaled :=
  let (whole, rest) := splitDigits cs
  let (fraction, rest) := match rest with
    | '.' :: rest => splitDigits rest
    | rest => ([], rest)
  if whole ++ fraction = [] then none
  else (readExponent? rest).map fun e => ⟨natOfDigits (whole ++ fraction), e - fraction.length⟩

/-- The double nearest to a decimal. Decimals far beyond the range of doubles are decided by the exponent of
their leading digit. -/
def Scaled.toFloat (s : Scaled) : Float :=
  let size := s.exponent + (decimalDigits s.digits).length
  if s.digits = 0 ∨ size < -400 then 0.0
  else if 400 < size then 1.0 / 0.0
  else match s.exponent with
    | .ofNat e => Float.ofScientific s.digits false e
    | .negSucc e => Float.ofScientific s.digits true (e + 1)

/-- The values that are named and not written in digits, whatever the case of the letters. -/
def readNamed? (cs : List Char) : Option Float :=
  let name := cs.map Char.toLower
  if name = "inf".toList ∨ name = "infinity".toList then some (1.0 / 0.0)
  else if name = "nan".toList then some (0.0 / 0.0)
  else none

/-- A double: an optional sign, then a decimal or a named value. -/
def readFloat? (cs : List Char) : Option Float :=
  let (negative, body) := splitSign cs
  let magnitude := match readScaled? body with
    | some s => some s.toFloat
    | none => readNamed? body
  magnitude.map fun x => if negative then -x else x

end DataBinding.Decimal
