import DataBinding.Expr.Text
import DataBinding.Schema.Require

/-!
# Building expressions

Constructors that work out the static type and look members and methods up by name. A member access takes
the identity of its node from the caller.
-/

namespace DataBinding.Expr

variable (types : TypeTable)

/-- The type of a constant; null counts as an object. -/
def constantType (v : Value) : TypeId := v.type?.getD .object

def ofValue (v : Value) : Expr := constant v (constantType v) none

def ofVar (name : String) (v : Value) : Expr := constant v (constantType v) (some name)

def nullOf (t : TypeId) : Expr := constant .null t none

/-- A member access, on its type if there is no target. -/
def access (node : NodeId) (target : Option Expr) (m : Member) : Expr :=
  match target with
  | some e => member node e m
  | none => typeMember node m

def invoke (target : Option Expr) (m : Method) (args : List Expr) : Expr :=
  match target with
  | some e => call e m args
  | none => typeCall m args

def requireType (e : Expr) : Except Error TypeId :=
  match e.type? with
  | some t => .ok t
  | none => .error (.typeMismatch (.noValue (e.render types)))

def memberNamed (node : NodeId) (e : Expr) (name : String) : Except Error Expr := do
  let t ← e.requireType types
  let m ← types.requireMember t name
  return member node e m

def typeMemberNamed (node : NodeId) (t : TypeId) (name : String) : Except Error Expr := do
  let m ← types.requireMember t name
  return typeMember node m

def callNamed (e : Expr) (name : String) (args : List Expr) : Except Error Expr := do
  let t ← e.requireType types
  let m ← types.requireMethod t name args.length
  return call e m args

def typeCallNamed (t : TypeId) (name : String) (args : List Expr) : Except Error Expr := do
  let m ← types.requireMethod t name args.length
  return typeCall m args

/-- The type of an arithmetic result: text before number before whatever the left side is. -/
def arithmeticType (left right : Expr) : TypeId :=
  let either (t : TypeId) : Bool := left.type? = some t || right.type? = some t
  if either .string then .string
  else if either .float then .float
  else left.type?.getD .object

/-- An operator with the usual result type: a truth value for comparisons, else that of the arithmetic. -/
def arithmetic (op : BinaryOp) (left right : Expr) : Expr :=
  binary op left right (if op.isComparison then .bool else arithmeticType left right)

/-- An operator with the result type that its kind has. -/
def operation (op : BinaryOp) (left right : Expr) : Expr :=
  match op with
  | .andAlso | .orElse => binary op left right .bool
  | .coalesce => binary op left right (left.type?.getD .object)
  | op => arithmetic op left right

def equal (left right : Expr) : Expr := operation .equal left right

def negation (e : Expr) : Expr := unary .not e .bool none

def opposite (e : Expr) : Expr := unary .negate e (e.type?.getD .object) none

def conversion (e : Expr) (t : TypeId) (m : Option Method) : Expr := unary .convert e t m

def choice (test yes no : Expr) : Expr := conditional test yes no (yes.type?.getD .object)

end DataBinding.Expr
