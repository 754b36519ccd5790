import DataBinding.Text.Blank
import DataBinding.Decimal.Layout

/-!
# Binding flags

The switches of a binding as a set of 32 bits, three of which have names. Unknown bits are kept.
-/

namespace DataBinding

/-- A set of switches. The empty set is a one-way binding with an initial assignment. -/
structure Flags where
  bits : UInt32
deriving DecidableEq, Repr

namespace Flags

def empty : Flags := ⟨0⟩

/-- Changes of the left side are carried over to the right side too. -/
def twoWay : Flags := ⟨1⟩

/-- One assignment, then every subscription is released. -/
def oneTime : Flags := ⟨2⟩

/-- No evaluation when the binding is built. -/
def noInitialTrigger : Flags := ⟨8⟩

def union (a b : Flags) : Flags := ⟨a.bits ||| b.bits⟩

def contains (a b : Flags) : Bool := a.bits &&& b.bits == b.bits

def isTwoWay (f : Flags) : Bool := f.contains twoWay

def isOneTime (f : Flags) : Bool := f.contains oneTime

def hasInitialTrigger (f : Flags) : Bool := !f.contains noInitialTrigger

/-- The named switches in the order in which they are written. -/
def named : List (String × Flags) :=
  [("TWO_WAY", twoWay), ("ONE_TIME", oneTime), ("NO_INITIAL_TRIGGER", noInitialTrigger)]

/-- The bits without a name. -/
def rest (f : Flags) : UInt32 := f.bits &&& ~~~(twoWay.bits ||| oneTime.bits ||| noInitialTrigger.bits)

def hexText (n : Nat) : String := "0x" ++ String.ofList (Nat.toDigits 16 n)

/-- The names of the switches that are on, then the rest in base sixteen. -/
def text (f : Flags) : String :=
  let names := (named.filter fun (_, g) => f.contains g).map Prod.fst
  let unnamed := if f.rest = 0 then [] else [hexText f.rest.toNat]
  " | ".intercalate (names ++ unnamed)

def hexValue? (c : Char) : Option Nat :=
  if c.isDigit then some (c.toNat - '0'.toNat)
  else if 'a' ≤ c ∧ c ≤ 'f' then some (c.toNat - 'a'.toNat + 10)
  else if 'A' ≤ c ∧ c ≤ 'F' then some (c.toNat - 'A'.toNat + 10)
  else none

/-- Digits in base sixteen, at least one, with an optional plus sign, within 32 bits. -/
def ofHex? (cs : List Char) : Option Flags :=
  let ds := match cs with
    | '+' :: ds => ds
    | ds => ds
  if ds = [] then none
  else do
    let n ← ds.foldlM (fun n d => (16 * n + ·) <$> hexValue? d) 0
    if n < Nat.pow 2 32 then some ⟨n.toUInt32⟩ else none

/-- One part of a text: a name, or bits in base sixteen. -/
def ofPart? (cs : List Char) : Option Flags :=
  match cs with
  | '0' :: 'x' :: ds => ofHex? ds
  | cs => (named.find? fun (name, _) => name.toList == cs).map Prod.snd

/-- Parts between bars, with blanks around them; a blank text is the empty set. -/
def ofText? (s : String) : Option Flags :=
  if Text.trim s.toList = [] then some empty
  else (s.toList.splitOn '|').foldlM (fun f part => f.union <$> ofPart? (Text.trim part)) empty

end Flags

end DataBinding
