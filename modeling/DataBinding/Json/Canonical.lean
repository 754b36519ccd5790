import DataBinding.Json.Document

/-!
# Canonical documents

Every number and text has its value, and the members of an object have different keys in ascending order.
A document becomes canonical by keeping the last of the members with one key.
-/

namespace DataBinding.Json

inductive Canonical where
  | null
  | bool (b : Bool)
  | number (n : Number)
  | text (s : String)
  | array (items : List Canonical)
  | object (members : List (String × Canonical))

/-- How deep containers may be nested. -/
def depthLimit : Nat := 127

/-- Puts a member at its place; a member with this key gives way to it. -/
def insertMember (key : String) (value : Canonical) : List (String × Canonical) → List (String × Canonical)
  | [] => [(key, value)]
  | (k, v) :: rest =>
    if key < k then (key, value) :: (k, v) :: rest
    else if key = k then (key, value) :: rest
    else (k, v) :: insertMember key value rest

mutual
/-- The canonical form, with at most `depth` containers inside each other; `none` if a number is out of
range, a text has an unpaired surrogate or the nesting is too deep. -/
def Document.canonical? (depth : Nat) : Document → Option Canonical
  | .null => some .null
  | .bool b => some (.bool b)
  | .number n => n.map .number
  | .text s => s.map .text
  | .array items => if depth = 0 then none else (canonicalItems? (depth - 1) items).map .array
  | .object members => if depth = 0 then none else (canonicalMembers? (depth - 1) [] members).map .object
def canonicalItems? (depth : Nat) : List Document → Option (List Canonical)
  | [] => some []
  | d :: ds => do
    let c ← d.canonical? depth
    let cs ← canonicalItems? depth ds
    return c :: cs
def canonicalMembers? (depth : Nat) (done : List (String × Canonical)) :
    List (Option String × Document) → Option (List (String × Canonical))
  | [] => some done
  | (key, d) :: ms => do
    let key ← key
    let c ← d.canonical? depth
    canonicalMembers? depth (insertMember key c done) ms
end

def hexDigit (n : Nat) : Char := (Nat.toDigits 16 n).headD '0'

/-- A character inside the quotes of a document: the quote, the backslash and controls are escaped. -/
def escapeChar (c : Char) : List Char :=
  if c = '"' then ['\\', '"']
  else if c = '\\' then ['\\', '\\']
  else if c = '\x08' then ['\\', 'b']
  else if c = '\x0c' then ['\\', 'f']
  else if c = '\n' then ['\\', 'n']
  else if c = '\r' then ['\\', 'r']
  else if c = '\t' then ['\\', 't']
  else if c.toNat < 0x20 then ['\\', 'u', '0', '0', hexDigit (c.toNat / 16), hexDigit (c.toNat % 16)]
  else [c]

def quoted (s : String) : String := String.ofList ('"' :: (s.toList.flatMap escapeChar ++ ['"']))

mutual
def Canonical.compact : Canonical → String
  | .null => "null"
  | .bool b => if b then "true" else "false"
  | .number n => n.text
  | .text s => quoted s
  | .array items => "[" ++ ",".intercalate (compactItems items) ++ "]"
  | .object members => "\x7b" ++ ",".intercalate (compactMembers members) ++ "\x7d"
def compactItems : List Canonical → List String
  | [] => []
  | c :: cs => c.compact :: compactItems cs
def compactMembers : List (String × Canonical) → List String
  | [] => []
  | (k, c) :: ms => (quoted k ++ ":" ++ c.compact) :: compactMembers ms
end

def Canonical.read? (s : String) : Option Canonical := do
  (← Document.read? s).canonical? depthLimit

end DataBinding.Json
