/-!
# Values

The dynamic values that flow through bindings: scalars, records that are copied, and references to host
objects. Types are named by their place in a type table; the first five are builtin.
-/

namespace DataBinding

/-- A type, named by its place in the type table. -/
structure TypeId where
  index : Nat
deriving DecidableEq, Repr, Inhabited

namespace TypeId

/-- The root of every hierarchy. -/
def object : TypeId := ⟨0⟩
def bool : TypeId := ⟨1⟩
def int : TypeId := ⟨2⟩
def float : TypeId := ⟨3⟩
def string : TypeId := ⟨4⟩

/-- The three value types that numbers and truth values have. -/
def isPrimitive (t : TypeId) : Bool := t = bool || t = int || t = float

end TypeId

/-- What a host object offers: slots and events, or nothing but its type. -/
inductive ObjectKind where
  | model
  | foreign
deriving DecidableEq, Repr, Inhabited

/-- A reference to a host object. Two references are the same object if their names agree. -/
structure ObjectRef where
  name : String
  type : TypeId
  kind : ObjectKind
deriving DecidableEq, Repr, Inhabited

/-- A dynamic value. -/
inductive Value where
  | null
  | boolean (b : Bool)
  | integer (i : Int64)
  | number (x : Float)
  | text (s : String)
  | record (type : TypeId) (fields : List (String × Value))
  | object (ref : ObjectRef)
deriving Inhabited

namespace Value

/-- The field of this name; a record reads null where it has none. -/
def field : List (String × Value) → String → Value
  | [], _ => null
  | (n, v) :: rest, name => if n = name then v else field rest name

/-- The fields after one is set: at its place if it is there, else at the end. -/
def setField (name : String) (v : Value) : List (String × Value) → List (String × Value)
  | [] => [(name, v)]
  | (n, w) :: rest => if n = name then (n, v) :: rest else (n, w) :: setField name v rest

def isNull : Value → Bool
  | null => true
  | _ => false

def asBool? : Value → Option Bool
  | boolean b => some b
  | _ => none

def asInt? : Value → Option Int64
  | integer i => some i
  | _ => none

/-- Integers count as numbers. -/
def asNumber? : Value → Option Float
  | number x => some x
  | integer i => some i.toFloat
  | _ => none

def asText? : Value → Option String
  | text s => some s
  | _ => none

def asObject? : Value → Option ObjectRef
  | object r => some r
  | _ => none

def intOrZero (v : Value) : Int64 := v.asInt?.getD 0

def type? : Value → Option TypeId
  | null => none
  | boolean _ => some .bool
  | integer _ => some .int
  | number _ => some .float
  | text _ => some .string
  | record t _ => some t
  | object r => some r.type

theorem type?_eq_none_iff (v : Value) : v.type? = none ↔ v = null := by
  cases v <;> simp [type?]

theorem field_setField (name other : String) (v : Value) (fs : List (String × Value)) :
    field (setField name v fs) other = if name = other then v else field fs other := by
  induction fs with
  | nil => simp [setField, field]
  | cons f fs ih => grind [setField, field]

end Value

end DataBinding
