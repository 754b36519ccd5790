import DataBinding.Decimal.Binary

/-!
# Shortest decimals

The decimal with the fewest digits that reads back as a given double, and of those the nearest one.
A decimal reads back if it lies between the midpoints to the two neighbouring doubles; the midpoints
themselves count when the mantissa is even.
-/

namespace DataBinding.Decimal

/-- The number `digits · 10 ^ exponent`. -/
structure Scaled where
  digits : Nat
  exponent : Int
deriving DecidableEq, Repr

/-- What to take when two decimals are equally near. -/
inductive Tie where
  | toEven
  | upward
deriving DecidableEq, Repr

/-- Where a decimal grid of step `10 ^ k` and a binary magnitude meet: in a common unit a quarter of the
mantissa's last place is `quarter` and a step of the grid is `step`. -/
structure Grid where
  quarter : Nat
  step : Nat

def Grid.of (b : Binary) (k : Int) : Grid :=
  let e := b.exponent - 2
  ⟨Nat.pow 2 e.toNat * Nat.pow 10 (-k).toNat, Nat.pow 2 (-e).toNat * Nat.pow 10 k.toNat⟩

/-- Whether `c` steps of the grid lie in the interval of numbers that round to `b`. -/
def Binary.readsBack (b : Binary) (g : Grid) (c : Nat) : Bool :=
  let low := (4 * b.mantissa - (if b.narrow then 1 else 2)) * g.quarter
  let high := (4 * b.mantissa + 2) * g.quarter
  let x := c * g.step
  if b.mantissa % 2 = 0 then low ≤ x && x ≤ high else low < x && x < high

/-- The exponent of the leading digit of `num / den`. -/
def leadingExponent (num den : Nat) : Int :=
  let guess : Int := (Nat.toDigits 10 num).length - (Nat.toDigits 10 den).length
  if num * Nat.pow 10 (-guess).toNat < den * Nat.pow 10 guess.toNat then guess - 1 else guess

/-- The neighbour of the value on the grid that reads back, the nearer one if both do. -/
def Binary.onGrid (b : Binary) (tie : Tie) (g : Grid) : Option Nat :=
  let value := 4 * b.mantissa * g.quarter
  let below := value / g.step
  match b.readsBack g below && below != 0, b.readsBack g (below + 1) with
  | false, false => none
  | true, false => some below
  | false, true => some (below + 1)
  | true, true =>
    let excess := 2 * (value % g.step)
    if excess < g.step then some below
    else if g.step < excess then some (below + 1)
    else match tie with
      | .upward => some (below + 1)
      | .toEven => some (below + below % 2)

/-- Moves the factors of ten in the digits to the exponent; `fuel` bounds their number. -/
def Scaled.stripZeros : Nat → Scaled → Scaled
  | 0, s => s
  | fuel + 1, s =>
    if s.digits ≠ 0 ∧ s.digits % 10 = 0 then stripZeros fuel ⟨s.digits / 10, s.exponent + 1⟩ else s

/-- The decimal with the fewest digits that reads back as `b`: the first grid, from coarse to fine, with a
hit. Seventeen digits always suffice for a double. -/
def Binary.shortest (tie : Tie) (b : Binary) : Scaled :=
  let lead := leadingExponent (b.mantissa * Nat.pow 2 b.exponent.toNat) (Nat.pow 2 (-b.exponent).toNat)
  let attempt (n : Nat) : Option Scaled :=
    let k := lead - n
    (b.onGrid tie (Grid.of b k)).map (Scaled.stripZeros 17 ⟨·, k⟩)
  ((List.range 17).findSome? attempt).getD ⟨b.mantissa, b.exponent⟩

end DataBinding.Decimal
