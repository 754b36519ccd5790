import DataBinding.Value.Text
import DataBinding.Value.Equality
import DataBinding.Error
import DataBinding.Decimal.Reading
import DataBinding.Json.Canonical
import DataBinding.Text.Blank

/-!
# Conversions

`change` makes a value of the wanted type out of another one, `cast` lets a value pass unchanged or not at
all, and the `to…` functions take a value for what it is.
-/

namespace DataBinding.Value

open Decimal

/-- `true` and `false` in any case, with blanks around them. -/
def readBool? (s : String) : Option Bool :=
  let word := (Text.trim s.toList).map Char.toLower
  if word = "true".toList then some true else if word = "false".toList then some false else none

/-- The integer nearest to a number, if it fits. -/
def roundToInt64? (x : Float) : Option Int64 :=
  match nearestInt? x with
  | some n => if inInt64 n then some (Int64.ofInt n) else none
  | none => none

def toBool? : Value → Option Value
  | integer i => some (boolean (i != 0))
  | number x => some (boolean (x != 0.0))
  | text s => (readBool? s).map boolean
  | _ => none

def toInt? : Value → Option Value
  | boolean b => some (integer (if b then 1 else 0))
  | number x => (roundToInt64? x).map integer
  | text s => (readInt64? (Text.trim s.toList)).map integer
  | _ => none

def toFloat? : Value → Option Value
  | boolean b => some (number (if b then 1.0 else 0.0))
  | integer i => some (number i.toFloat)
  | text s => (readFloat? (Text.trim s.toList)).map number
  | _ => none

/-- Conversion to texts: only scalars have one. -/
def toText? (types : TypeTable) : Value → Option Value
  | boolean b => some (text ((boolean b).display types))
  | integer i => some (text ((integer i).display types))
  | number x => some (text ((number x).display types))
  | _ => none

/-- Conversion of a value of type `source` to another type: the builtin scalars have rules of their own,
every other type takes what is assignable to it. -/
def convert? (types : TypeTable) (target source : TypeId) (v : Value) : Option Value :=
  if target = .bool then v.toBool?
  else if target = .int then v.toInt?
  else if target = .float then v.toFloat?
  else if target = .string then v.toText? types
  else if types.isAssignable target source then some v
  else none

/-- The value as one of the wanted type. Null stands for every reference type and for no value type. -/
def change (types : TypeTable) (target : TypeId) (v : Value) : Except Error Value :=
  match v.type? with
  | none => if types.isValueType target then .error (.invalidCast "null" (types.name target)) else .ok null
  | some source =>
    if source = target then .ok v
    else match v.convert? types target source with
      | some w => .ok w
      | none => .error (.invalidCast (types.name source) (types.name target))

/-- The value itself, if it is null or assignable to the type. -/
def cast (types : TypeTable) (target : TypeId) (v : Value) : Except Error Value :=
  match v.type? with
  | none => .ok v
  | some source =>
    if types.isAssignable target source then .ok v
    else .error (.invalidCast (types.name source) (types.name target))

def mismatch (types : TypeTable) (wanted : String) (v : Value) : Error :=
  .typeMismatch (.expected wanted (v.typeName types))

def toBool (types : TypeTable) (v : Value) : Except Error Bool :=
  match v.asBool? with
  | some b => .ok b
  | none => .error (v.mismatch types "Bool")

def toInt (types : TypeTable) (v : Value) : Except Error Int64 :=
  match v.asInt? with
  | some i => .ok i
  | none => .error (v.mismatch types "Int")

/-- Integers count as numbers. -/
def toNumber (types : TypeTable) (v : Value) : Except Error Float :=
  match v.asNumber? with
  | some x => .ok x
  | none => .error (v.mismatch types "Float")

def toText (types : TypeTable) (v : Value) : Except Error String :=
  match v.asText? with
  | some s => .ok s
  | none => .error (v.mismatch types "String")

/-- A text, or nothing for null. -/
def toOptionalText (types : TypeTable) (v : Value) : Except Error (Option String) :=
  match v with
  | null => .ok none
  | v => (v.toText types).map some

def stored (types : TypeTable) (t : TypeId) (v : Value) : Except Error Value :=
  if t = .bool then (v.toBool types).map boolean
  else if t = .int then (v.toInt types).map integer
  else if t = .float then (v.toNumber types).map number
  else if t = .string then (v.toOptionalText types).map fun s => (s.map text).getD null
  else .ok v

def ofNumber : Json.Number → Value
  | .integer n => if inInt64 n then integer (Int64.ofInt n) else number (Float.ofInt n)
  | .real x => number x

/-- The value of a document: containers are kept as their text. -/
def ofJson : Json.Canonical → Value
  | .null => null
  | .bool b => boolean b
  | .number n => ofNumber n
  | .text s => text s
  | d => text d.compact

end DataBinding.Value
