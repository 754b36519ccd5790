import DataBinding.Schema.Lookup
import DataBinding.Text.Quoted
import DataBinding.Decimal.Layout

/-!
# Texts of values

A value has a display text, which joins with other texts, and an inspection text, which shows its kind.
-/

namespace DataBinding.Value

open Decimal

def boolText (b : Bool) : String := if b then "true" else "false"

/-- The name of a value's type, with a name of its own for null. -/
def typeName (types : TypeTable) (v : Value) : String :=
  match v.type? with
  | some t => types.name t
  | none => "null"

/-- The text that a value adds to a longer one; null adds nothing. -/
def display (types : TypeTable) : Value → String
  | null => ""
  | boolean b => boolText b
  | integer i => intText i.toInt
  | number x => Layout.display.text x
  | text s => s
  | record t _ => types.name t
  | object r => types.name r.type

mutual
/-- The text that shows what kind of value this is. -/
def inspect (types : TypeTable) : Value → String
  | null => "Null"
  | boolean b => "Boolean(" ++ boolText b ++ ")"
  | integer i => "Integer(" ++ intText i.toInt ++ ")"
  | number x => "Number(" ++ Layout.display.text x ++ ")"
  | text s => "String(" ++ Text.quoted s ++ ")"
  | record t fields =>
    match inspectFields types fields with
    | [] => types.name t
    | parts => types.name t ++ " \x7b " ++ ", ".intercalate parts ++ " \x7d"
  | object r => "Object(<" ++ types.name r.type ++ ">)"
def inspectFields (types : TypeTable) : List (String × Value) → List String
  | [] => []
  | (n, v) :: rest => (n ++ ": " ++ inspect types v) :: inspectFields types rest
end

def concat (types : TypeTable) (a b : Value) : Value := text (a.display types ++ b.display types)

end DataBinding.Value
