/-!
# Binary fractions

A finite double as `mantissa · 2 ^ exponent` with a sign, and the exact operations that are read off this
form: rounding to an integer with halves going to the even neighbour, and the remainder of a division.
-/

namespace DataBinding.Decimal

/-- The magnitude `mantissa · 2 ^ exponent` of a finite double. `narrow` tells that the next double below
is half as far away as the next one above. -/
structure Binary where
  mantissa : Nat
  exponent : Int
  narrow : Bool
deriving DecidableEq, Repr

inductive Shape where
  | undefined
  | infinite (negative : Bool)
  | finite (negative : Bool) (magnitude : Binary)
deriving DecidableEq, Repr

/-- The eleven exponent bits and the 52 fraction bits of a double, taken apart. -/
def shape (x : Float) : Shape :=
  let bits : Nat := x.toBits.toNat
  let negative := bits / Nat.pow 2 63 % 2 == 1
  let biased : Nat := bits / Nat.pow 2 52 % 2048
  let fraction : Nat := bits % Nat.pow 2 52
  if biased = 2047 then
    if fraction = 0 then .infinite negative else .undefined
  else if biased = 0 then .finite negative ⟨fraction, -1074, false⟩
  else .finite negative ⟨Nat.pow 2 52 + fraction, (biased : Int) - 1075, fraction == 0 && 1 < biased⟩

/-- `num / den` rounded to the nearest integer, a half to the even neighbour. -/
def roundHalfEven (num den : Nat) : Nat :=
  let q := num / den
  let r := 2 * (num % den)
  if r < den then q else if den < r then q + 1 else q + q % 2

/-- The magnitude rounded to the nearest integer, a half to the even neighbour. -/
def Binary.round (b : Binary) : Nat :=
  match b.exponent with
  | .ofNat e => b.mantissa * Nat.pow 2 e
  | .negSucc e => roundHalfEven b.mantissa (Nat.pow 2 (e + 1))

/-- The nearest integer, a half to the even neighbour; `none` unless the double is finite. -/
def nearestInt? (x : Float) : Option Int :=
  match shape x with
  | .finite negative b => some (if negative then -(b.round : Int) else b.round)
  | _ => none

/-- The double nearest to `n · 2 ^ e`. -/
def scaled (n : Nat) : Int → Float
  | .ofNat e => Float.ofScientific (n * Nat.pow 2 e) false 0
  | .negSucc e => Float.ofScientific (n * Nat.pow 5 (e + 1)) true (e + 1)

/-- The remainder of the division of `x` by `y` truncated toward zero, exactly; it has the sign of `x`. -/
def remainder (x y : Float) : Float :=
  match shape x, shape y with
  | .finite negative a, .finite _ b =>
    if b.mantissa = 0 then 0.0 / 0.0
    else
      let low := min a.exponent b.exponent
      let r := (a.mantissa * Nat.pow 2 (a.exponent - low).toNat) % (b.mantissa * Nat.pow 2 (b.exponent - low).toNat)
      let magnitude := scaled r low
      if negative then -magnitude else magnitude
  | .finite .., .infinite _ => x
  | _, _ => 0.0 / 0.0

theorem roundHalfEven_of_dvd (q : Nat) {den : Nat} (h : 0 < den) : roundHalfEven (q * den) den = q := by
  simp [roundHalfEven, h]

example : nearestInt? 2.5 = some 2 ∧ nearestInt? 3.5 = some 4 ∧ nearestInt? (-0.5) = some 0 := by
  decide

example : remainder 5.5 2.0 = 1.5 ∧ remainder (-7.0) 4.0 = -3.0 := by decide +kernel

end DataBinding.Decimal
