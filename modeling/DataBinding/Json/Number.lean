import DataBinding.Decimal.Reading

/-!
# Numbers of documents

A number in a document is an integer of 64 bits, signed or not, or else a double. A double is computed from
the leading digits that fit into 64 bits and one multiplication or division by a power of ten.
-/

namespace DataBinding.Json

open DataBinding.Decimal

/-- An integer between `-2 ^ 63` and `2 ^ 64 - 1`, or a double. -/
inductive Number where
  | integer (n : Int)
  | real (x : Float)
deriving DecidableEq

structure Numeral where
  negative : Bool
  whole : List Char
  fraction : List Char
  /-- The digits after the exponent mark, and whether a minus sign is in front of them. -/
  exponent : Option (Bool × List Char)

/-- Takes digits into the significand while it fits into 64 bits; returns how many were taken. -/
def takeDigits (significand : Nat) : List Char → Nat × Nat
  | [] => (significand, 0)
  | d :: ds =>
    let next := 10 * significand + digitValue d
    if next < Nat.pow 2 64 then
      let (s, taken) := takeDigits next ds
      (s, taken + 1)
    else (significand, 0)

/-- Brings an exponent below `-308` into range; a significand of 64 bits is zero after two steps. -/
def scaleDown : Nat → Float → Int → Float × Int
  | 0, x, e => (x, e)
  | steps + 1, x, e => if e < -308 ∧ x ≠ 0.0 then scaleDown steps (x / 1e308) (e + 308) else (x, e)

/-- `significand · 10 ^ exponent` as a double; `none` if it is beyond the largest one. -/
def magnitude? (significand : Nat) (exponent : Int) : Option Float :=
  if significand = 0 then some 0.0
  else
    let (x, e) := scaleDown 3 (Float.ofNat significand) exponent
    if 308 < e then none
    else if 0 ≤ e then
      let y := x * Float.ofScientific 1 false e.toNat
      if y.isInf then none else some y
    else if e < -308 then some 0.0
    else some (x / Float.ofScientific 1 false (-e).toNat)

/-- The exponent that is written, in 32 bits; `none` if it does not fit. -/
def Numeral.writtenExponent (n : Numeral) : Option Int :=
  match n.exponent with
  | none => some 0
  | some (negative, ds) =>
    let e := natOfDigits ds
    if e < Nat.pow 2 31 then some (if negative then -(e : Int) else e) else none

/-- The magnitude of a numeral as a double. An exponent that does not fit gives zero or leaves the range. -/
def Numeral.real? (n : Numeral) : Option Float :=
  let (whole, taken) := takeDigits 0 n.whole
  let dropped : Int := (n.whole.length - taken : Nat)
  let (significand, places) := takeDigits whole n.fraction
  match n.writtenExponent with
  | some e => magnitude? significand (dropped - places + e)
  | none =>
    match n.exponent with
    | some (false, _) => if significand = 0 then some 0.0 else none
    | _ => some 0.0

/-- The value of a numeral; `none` if it is out of range. A negative zero is a double. -/
def Numeral.value? (n : Numeral) : Option Number :=
  let whole := natOfDigits n.whole
  if n.fraction = [] ∧ n.exponent = none ∧ !n.negative ∧ whole < Nat.pow 2 64 then some (.integer whole)
  else if n.fraction = [] ∧ n.exponent = none ∧ n.negative ∧ 0 < whole ∧ whole ≤ Nat.pow 2 63 then
    some (.integer (-(whole : Int)))
  else n.real?.map fun x => .real (if n.negative then -x else x)

/-- The text of a number; a double always shows a fraction or an exponent. -/
def Number.text : Number → String
  | .integer n => intText n
  | .real x => Layout.document.text x

end DataBinding.Json
