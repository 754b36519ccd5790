import DataBinding.Decimal.Shortest

/-!
# Decimal text of doubles

Two layouts share one function: the display of numbers is positional at every size, and a number inside
a document has a fraction or an exponent, so that it reads back as a double.
-/

namespace DataBinding.Decimal

/-- The decisions that a layout takes: which of two equally near decimals it shows, for which exponents of
the leading digit it is positional, and whether an integral value gets a fraction `.0`. -/
structure Layout where
  tie : Tie
  positional : Int → Bool
  pointZero : Bool

/-- The display of a number: positional always, and a whole number has no fraction. -/
def Layout.display : Layout := ⟨.upward, fun _ => true, false⟩

/-- A number in a document: an exponent below `10 ^ -5` and from `10 ^ 16` on, and a fraction always. -/
def Layout.document : Layout := ⟨.toEven, fun e => -5 ≤ e && e < 16, true⟩

def decimalDigits (n : Nat) : List Char := Nat.toDigits 10 n

/-- Digits with a point where the exponent puts it. -/
def positionalText (pointZero : Bool) (s : Scaled) : List Char :=
  let ds := decimalDigits s.digits
  match s.exponent with
  | .ofNat k => ds ++ List.replicate k '0' ++ (if pointZero then ['.', '0'] else [])
  | .negSucc k =>
    let places := k + 1
    if places < ds.length then ds.take (ds.length - places) ++ '.' :: ds.drop (ds.length - places)
    else '0' :: '.' :: (List.replicate (places - ds.length) '0' ++ ds)

/-- One digit before the point, and a signed exponent. -/
def scientificText (s : Scaled) (lead : Int) : List Char :=
  let mantissa := match decimalDigits s.digits with
    | [] => []
    | [d] => [d]
    | d :: ds => d :: '.' :: ds
  let exponent := if lead < 0 then '-' :: decimalDigits lead.natAbs else '+' :: decimalDigits lead.natAbs
  mantissa ++ 'e' :: exponent

def Layout.magnitude (l : Layout) (s : Scaled) : List Char :=
  let lead := s.exponent + (decimalDigits s.digits).length - 1
  if l.positional lead then positionalText l.pointZero s else scientificText s lead

/-- A double in the given layout, with a minus sign also for the negative zero. -/
def Layout.text (l : Layout) (x : Float) : String :=
  let signed (negative : Bool) (cs : List Char) := String.ofList (if negative then '-' :: cs else cs)
  match shape x with
  | .undefined => "NaN"
  | .infinite negative => signed negative ['i', 'n', 'f']
  | .finite negative b =>
    signed negative (l.magnitude (if b.mantissa = 0 then ⟨0, 0⟩ else b.shortest l.tie))

def intDigits (n : Int) : List Char := if n < 0 then '-' :: decimalDigits n.natAbs else decimalDigits n.natAbs

def intText (n : Int) : String := String.ofList (intDigits n)

example : Layout.display.text 0.1 = "0.1" ∧ Layout.display.text 1e21 = "1000000000000000000000" := by
  decide

example : Layout.display.text 2.98023223876953125e-8 = "0.000000029802322387695313" := by decide

example : Layout.document.text 1e16 = "1e+16" ∧ Layout.document.text 1e-5 = "0.00001" ∧
    Layout.document.text 1e-7 = "1e-7" ∧ Layout.document.text (-0.0) = "-0.0" := by decide

end DataBinding.Decimal
