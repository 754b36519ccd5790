import DataBinding.Decimal.Layout

/-!
# Errors

What can go wrong, by cause. Types, members and expressions are given by their text, since an error outlives
what it tells about.
-/

namespace DataBinding

/-- Why a value or a type does not fit. -/
inductive Mismatch where
  | expected (wanted found : String)
  /-- An object of another host class than the one wanted. -/
  | wrongClass (typeName label : String)
  | notBool (operator found : String)
  | operands (operator left right : String)
  | unknownOperator (operator : String)
  | negation (found : String)
  | noValue (expression : String)
  | typeAsTarget (typeName : String)
  | foreignHandler
  | silentTarget (typeName : String)
  | notInstance (typeName : String)
deriving DecidableEq, Repr

inductive Error where
  | unsupportedExpression (expression reason : String)
  | constantBinding (expression : String)
  | nullArgument (name : String)
  | unregisteredEvent (event typeName : String)
  | nullReference (member expression : String)
  | invalidCast (source target : String)
  | typeMismatch (cause : Mismatch)
  | argumentCount (method : String) (expected actual : Nat)
  | memberNotFound (member typeName : String)
  | unsupportedMethod (method : String)
  | notReadable (member : String)
  | notWritable (member : String)
  | invalidSettings
  /-- A failure that host code reports. -/
  | host (message : String)
  /-- An integer result that does not exist or does not fit. -/
  | arithmetic (left : Int64) (operator : String) (right : Int64)
  /-- An error in one entry of a list of bindings. -/
  | entry (index : Nat) (expression : Option String) (source : Error)
deriving DecidableEq, Repr

def Mismatch.message : Mismatch → String
  | expected wanted found => "expected " ++ wanted ++ ", got " ++ found
  | wrongClass typeName label => "object of type [" ++ typeName ++ "] is not a " ++ label
  | notBool operator found => "operator " ++ operator ++ " expects Bool, got " ++ found
  | operands operator left right => "operator " ++ operator ++ " cannot be applied to " ++ left ++ " and " ++ right
  | unknownOperator operator => "unexpected operator " ++ operator
  | negation found => "cannot negate " ++ found
  | noValue expression => "`" ++ expression ++ "` has no value"
  | typeAsTarget typeName => "type [" ++ typeName ++ "] cannot be used as a trigger target"
  | foreignHandler => "handler was created by a different trigger"
  | silentTarget typeName => "[" ++ typeName ++ "] does not raise property change notifications"
  | notInstance typeName => "[" ++ typeName ++ "] is not an instance"

namespace Error

def message : Error → String
  | unsupportedExpression expression reason =>
    "unsupported binding expression `" ++ expression ++ "`: " ++ reason
  | constantBinding expression =>
    "cannot bind `" ++ expression ++
      "`: constant to constant or constant to method call bindings are not supported"
  | nullArgument name => "argument `" ++ name ++ "` must not be null or empty"
  | unregisteredEvent event typeName =>
    "event [" ++ event ++ "] has not been configured for type [" ++ typeName ++ "]"
  | nullReference member expression => "[" ++ member ++ "] is null in expression `" ++ expression ++ "`"
  | invalidCast source target => "invalid cast from " ++ source ++ " to " ++ target
  | typeMismatch cause => "type mismatch: " ++ cause.message
  | argumentCount method expected actual =>
    "`" ++ method ++ "` expects " ++ toString expected ++ " arguments, got " ++ toString actual
  | memberNotFound member typeName => "member [" ++ member ++ "] not found on type [" ++ typeName ++ "]"
  | unsupportedMethod method => "method [" ++ method ++ "] cannot be represented by a method delegate"
  | notReadable member => "member [" ++ member ++ "] cannot be read"
  | notWritable member => "member [" ++ member ++ "] cannot be written"
  | invalidSettings => "invalid settings"
  | host text => text
  | arithmetic left operator right =>
    "integer overflow or division by zero in " ++ Decimal.intText left.toInt ++ " " ++ operator ++ " " ++
      Decimal.intText right.toInt
  | entry index expression source =>
    let shown := match expression with
      | some e => " `" ++ e ++ "`"
      | none => ""
    "error in entry " ++ toString index ++ shown ++ ": " ++ source.message

/-- The error inside all entry positions. -/
def root : Error → Error
  | entry _ _ source => source.root
  | e => e

/-- Gives an error the position of the entry that caused it. -/
def atEntry (e : Error) (index : Nat) (expression : Option String) : Error := entry index expression e

@[simp] theorem root_atEntry (e : Error) (index : Nat) (expression : Option String) :
    (e.atEntry index expression).root = e.root := rfl

end Error

end DataBinding
