import DataBinding.Text.Combining
import DataBinding.Text.Unprintable

/-!
# Quoted text

A text between double quotes in which every character without a plain visible form is escaped.
-/

namespace DataBinding.Text

def hexDigits (n : Nat) : List Char := Nat.toDigits 16 n

/-- The halfwidth sound marks: they belong to the letter before them, but take up a place of their own. -/
def isSoundMark (c : Char) : Bool := c.toNat == 0xFF9E || c.toNat == 0xFF9F

/-- The Hangul fillers: letters that are never seen. -/
def isFiller (c : Char) : Bool :=
  c.toNat == 0x115F || c.toNat == 0x1160 || c.toNat == 0x3164 || c.toNat == 0xFFA0

/-- A character that would not be seen as it is, or would run into the one before it. -/
def isHidden (c : Char) : Bool := (isCombining c && !isSoundMark c) || isUnprintable c || isFiller c

/-- How one character is written inside double quotes: four controls, the quote and the backslash have
short forms, hidden characters are given by number, all others stand for themselves. -/
def escapeChar (c : Char) : List Char :=
  if c.toNat = 0 then ['\\', '0']
  else if c = '\t' then ['\\', 't']
  else if c = '\r' then ['\\', 'r']
  else if c = '\n' then ['\\', 'n']
  else if c = '"' then ['\\', '"']
  else if c = '\\' then ['\\', '\\']
  else if isHidden c then ['\\', 'u', '\x7b'] ++ hexDigits c.toNat ++ ['\x7d']
  else [c]

def quoted (s : String) : String :=
  String.ofList ('"' :: (s.toList.flatMap escapeChar ++ ['"']))

end DataBinding.Text
