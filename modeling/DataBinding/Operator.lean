import DataBinding.Value.Convert

/-!
# Operators

The binary and unary operators of expressions, and what the strict ones give for two values. Integer
arithmetic is exact or fails; integers next to numbers count as numbers; null makes arithmetic null.
-/

namespace DataBinding

inductive BinaryOp where
  | equal
  | notEqual
  | andAlso
  | orElse
  | coalesce
  | add
  | subtract
  | multiply
  | divide
  | modulo
  | less
  | lessEqual
  | greater
  | greaterEqual
deriving DecidableEq, Repr

inductive UnaryOp where
  | not
  | negate
  | convert
deriving DecidableEq, Repr

namespace BinaryOp

def symbol : BinaryOp → String
  | equal => "=="
  | notEqual => "!="
  | andAlso => "&&"
  | orElse => "||"
  | coalesce => "??"
  | add => "+"
  | subtract => "-"
  | multiply => "*"
  | divide => "/"
  | modulo => "%"
  | less => "<"
  | lessEqual => "<="
  | greater => ">"
  | greaterEqual => ">="

def isComparison : BinaryOp → Bool
  | equal | notEqual | less | lessEqual | greater | greaterEqual => true
  | _ => false

def all : List BinaryOp :=
  [equal, notEqual, andAlso, orElse, coalesce, add, subtract, multiply, divide, modulo, less, lessEqual,
    greater, greaterEqual]

def ofSymbol? (s : String) : Option BinaryOp := all.find? (·.symbol == s)

theorem ofSymbol?_symbol (op : BinaryOp) : ofSymbol? op.symbol = some op := by cases op <;> decide

end BinaryOp

namespace Value

open Decimal

/-- The order of two integers, two texts or two numbers; other values have none. -/
def compare? : Value → Value → Option Ordering
  | integer x, integer y => some (compare x.toInt y.toInt)
  | text x, text y => some (if x < y then .lt else if x = y then .eq else .gt)
  | a, b =>
    match a.asNumber?, b.asNumber? with
    | some x, some y => if x < y then some .lt else if x == y then some .eq else if y < x then some .gt else none
    | _, _ => none

def holds (op : BinaryOp) (o : Ordering) : Bool :=
  match op with
  | .less => o == .lt
  | .lessEqual => o != .gt
  | .greater => o == .gt
  | _ => o != .lt

/-- The exact result of integer arithmetic; division and remainder go toward zero, and have none by zero. -/
def exactResult? (op : BinaryOp) (x y : Int) : Option Int :=
  match op with
  | .add => some (x + y)
  | .subtract => some (x - y)
  | .multiply => some (x * y)
  | .divide => if y = 0 then none else some (x.tdiv y)
  | .modulo => if y = 0 then none else some (x.tmod y)
  | _ => none

/-- Whether a remainder is refused although it fits: the quotient that belongs to it does not. -/
def refusesRemainder (op : BinaryOp) (x y : Int) : Bool := op == .modulo && !(y != 0 && inInt64 (x.tdiv y))

def arithmetic? (op : BinaryOp) (x y : Int64) : Option Int64 :=
  match exactResult? op x.toInt y.toInt with
  | some n =>
    if inInt64 n && !refusesRemainder op x.toInt y.toInt then some (Int64.ofInt n) else none
  | none => none

def realArithmetic? (op : BinaryOp) (x y : Float) : Option Float :=
  match op with
  | .add => some (x + y)
  | .subtract => some (x - y)
  | .multiply => some (x * y)
  | .divide => some (x / y)
  | .modulo => some (remainder x y)
  | _ => none

def isText : Value → Bool
  | text _ => true
  | _ => false

/-- Arithmetic on two values. A text takes part in additions only. -/
def calculate (types : TypeTable) (op : BinaryOp) (a b : Value) : Except Error Value :=
  if op = .add ∧ (a.isText || b.isText) then .ok (concat types a b)
  else if a.isNull || b.isNull then .ok null
  else match a, b with
    | integer x, integer y =>
      match arithmetic? op x y with
      | some n => .ok (integer n)
      | none => .error (.arithmetic x op.symbol y)
    | a, b =>
      match a.asNumber?, b.asNumber? with
      | some x, some y =>
        match realArithmetic? op x y with
        | some z => .ok (number z)
        | none => .error (.typeMismatch (.unknownOperator op.symbol))
      | _, _ => .error (.typeMismatch (.operands op.symbol (a.typeName types) (b.typeName types)))

/-- What an operator gives for the values of its two operands. Values without an order are in none. -/
def apply (types : TypeTable) (op : BinaryOp) (a b : Value) : Except Error Value :=
  match op with
  | .equal => .ok (boolean (looselySame a b))
  | .notEqual => .ok (boolean (!looselySame a b))
  | .less | .lessEqual | .greater | .greaterEqual =>
    .ok (boolean (((compare? a b).map (holds op)).getD false))
  | op => calculate types op a b

def expectBool (types : TypeTable) (operator : String) (v : Value) : Except Error Bool :=
  match v.asBool? with
  | some b => .ok b
  | none => .error (.typeMismatch (.notBool operator (v.typeName types)))

/-- The negated value. The least integer is its own negation. -/
def negate (types : TypeTable) : Value → Except Error Value
  | integer i => .ok (integer (-i))
  | number x => .ok (number (-x))
  | null => .ok null
  | v => .error (.typeMismatch (.negation (v.typeName types)))

end Value

end DataBinding
