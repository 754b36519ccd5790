import DataBinding.Json.Number

/-!
# Tokens of documents

Punctuation, the three words, numbers and texts. A number that is out of range and a text with an unpaired
surrogate are tokens without a value: they may stand where the value is not needed.
-/

namespace DataBinding.Json

open DataBinding.Decimal

inductive Token where
  | mark (c : Char)
  | null
  | bool (b : Bool)
  | number (n : Option Number)
  | text (s : Option String)

/-- The four characters that may stand between tokens. -/
def isSpace (c : Char) : Bool := c == ' ' || c == '\t' || c == '\n' || c == '\r'

/-- A part of a text: a character that stands for itself, or a unit of 16 bits given by number. -/
inductive Piece where
  | char (c : Char)
  | unit (n : Nat)

def hexValue? (c : Char) : Option Nat :=
  if c.isDigit then some (c.toNat - '0'.toNat)
  else if 'a' ≤ c ∧ c ≤ 'f' then some (c.toNat - 'a'.toNat + 10)
  else if 'A' ≤ c ∧ c ≤ 'F' then some (c.toNat - 'A'.toNat + 10)
  else none

def unit? (a b c d : Char) : Option Nat := do
  return (((← hexValue? a) * 16 + (← hexValue? b)) * 16 + (← hexValue? c)) * 16 + (← hexValue? d)

def escape? : Char → Option Char
  | '"' => some '"'
  | '\\' => some '\\'
  | '/' => some '/'
  | 'b' => some '\x08'
  | 'f' => some '\x0c'
  | 'n' => some '\n'
  | 'r' => some '\r'
  | 't' => some '\t'
  | _ => none

/-- The pieces up to the closing quote, and what follows it. Control characters have to be escaped. -/
def scanText : List Char → Option (List Piece × List Char)
  | [] => none
  | '"' :: rest => some ([], rest)
  | '\\' :: 'u' :: a :: b :: c :: d :: rest => do
    let n ← unit? a b c d
    let (ps, rest) ← scanText rest
    return (.unit n :: ps, rest)
  | '\\' :: e :: rest => do
    let c ← escape? e
    let (ps, rest) ← scanText rest
    return (.char c :: ps, rest)
  | c :: rest =>
    if c = '\\' ∨ c.toNat < 0x20 then none
    else do
      let (ps, rest) ← scanText rest
      return (.char c :: ps, rest)

def isHighUnit (n : Nat) : Bool := 0xD800 ≤ n && n < 0xDC00

def isLowUnit (n : Nat) : Bool := 0xDC00 ≤ n && n < 0xE000

/-- Joins the units: a high unit has to be followed by a low one, and no low unit stands alone. -/
def joinPieces : List Piece → Option (List Char)
  | [] => some []
  | .char c :: ps => (c :: ·) <$> joinPieces ps
  | .unit h :: .unit l :: ps =>
    if isHighUnit h then
      if isLowUnit l then
        (Char.ofNat (0x10000 + (h - 0xD800) * 0x400 + (l - 0xDC00)) :: ·) <$> joinPieces ps
      else none
    else if isLowUnit h then none
    else (Char.ofNat h :: ·) <$> joinPieces (.unit l :: ps)
  | .unit n :: ps =>
    if isHighUnit n || isLowUnit n then none else (Char.ofNat n :: ·) <$> joinPieces ps

/-- The digits and the sign of an exponent, if one starts here. At least one digit has to follow. -/
def scanExponent : List Char → Option (Option (Bool × List Char) × List Char)
  | c :: cs =>
    if c = 'e' ∨ c = 'E' then
      let (negative, rest) := splitSign cs
      let (ds, rest) := splitDigits rest
      if ds = [] then none else some (some (negative, ds), rest)
    else some (none, c :: cs)
  | [] => some (none, [])

/-- The digits after a point, if one stands here. At least one digit has to follow. -/
def scanFraction : List Char → Option (List Char × List Char)
  | '.' :: cs =>
    let (ds, rest) := splitDigits cs
    if ds = [] then none else some (ds, rest)
  | cs => some ([], cs)

/-- An unsigned number. A zero in front stands alone. -/
def scanNumber (negative : Bool) (cs : List Char) : Option (Numeral × List Char) := do
  let (whole, rest) := splitDigits cs
  if whole = [] ∨ (whole.head? = some '0' ∧ 1 < whole.length) then none
  let (fraction, rest) ← scanFraction rest
  let (exponent, rest) ← scanExponent rest
  return (⟨negative, whole, fraction, exponent⟩, rest)

def scanToken (c : Char) (cs : List Char) : Option (Token × List Char) :=
  match c, cs with
  | '"', cs => (scanText cs).map fun (ps, rest) => (.text ((joinPieces ps).map String.ofList), rest)
  | 'n', 'u' :: 'l' :: 'l' :: rest => some (.null, rest)
  | 't', 'r' :: 'u' :: 'e' :: rest => some (.bool true, rest)
  | 'f', 'a' :: 'l' :: 's' :: 'e' :: rest => some (.bool false, rest)
  | '-', cs => (scanNumber true cs).map fun (n, rest) => (.number n.value?, rest)
  | c, cs =>
    if c.isDigit then (scanNumber false (c :: cs)).map fun (n, rest) => (.number n.value?, rest)
    else if c ∈ ['[', ']', '\x7b', '\x7d', ',', ':'] then some (.mark c, cs)
    else none

def tokens? (cs : List Char) : Option (List Token) :=
  match cs.dropWhile isSpace with
  | [] => some []
  | c :: rest =>
    match scanToken c rest with
    | none => none
    | some (t, rest) => if rest.length < cs.length then (t :: ·) <$> tokens? rest else none
termination_by cs.length

end DataBinding.Json
