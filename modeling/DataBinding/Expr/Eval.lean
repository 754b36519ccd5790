import DataBinding.Host.Member
import DataBinding.Expr.Text

/-!
# Evaluating expressions

The evaluator takes expressions of every shape as they are and keeps nothing between two evaluations. Target
before arguments, left before right; the operands of `&&`, `||`, `??` and of a conditional only as needed.
-/

namespace DataBinding

open Effect

def Expr.nullTarget (types : TypeTable) (target whole : Expr) : Error :=
  .nullReference (target.render types) (whole.render types)

namespace Member

/-- The member that an access means on a receiver: the nearest one of its name on the receiver's type, if
that has the same kind. -/
def visibleFrom (types : TypeTable) (m : Member) (receiver : Value) : Member :=
  if m.isStatic then m
  else
    match receiver.type? with
    | some t => ((types.member? t m.name).filter fun found => found.kind = m.kind).getD m
    | none => m

end Member

namespace Method

/-- The method that a call means on a receiver: what overrides it on the receiver's type. -/
def visibleFrom (types : TypeTable) (m : Method) (receiver : Value) : Method :=
  match receiver.type? with
  | some t => types.override t m
  | none => m

/-- Calls a method without any checks of the arguments. -/
def invoke (host : Host) (m : Method) (receiver : Option Value) (args : List Value) : Effect Value := do
  match m.convention, receiver with
  | .static, _ => return (← m.run host .null args).1
  | _, some r => return (← m.run host r args).1
  | _, none => fail (.nullReference "receiver" "instance call")

end Method

namespace Expr

def applyUnary (host : Host) (op : UnaryOp) (t : TypeId) (conversion : Option Method) (v : Value) : Effect Value :=
  match op with
  | .not => do
    let b ← ofExcept (v.expectBool host.types "!")
    return .boolean !b
  | .negate => ofExcept (v.negate host.types)
  | .convert =>
    if !host.types.isValueType t then ofExcept (v.cast host.types t)
    else match conversion with
      | some m => m.invoke host none [v]
      | none => ofExcept (v.change host.types t)

/-- What a strict binary operator gives for the values of its operands. An addition of type text takes null
for an empty text. -/
def applyBinary (types : TypeTable) (op : BinaryOp) (t : TypeId) (a b : Value) : Except Error Value :=
  if op = .add ∧ t = .string then .ok (Value.concat types a b) else Value.apply types op a b

mutual
def eval (host : Host) (e : Expr) : Effect Value :=
  match e with
  | constant v _ _ => pure v
  | member node target m => do
    let v ← target.eval host
    if v.isNull then fail (nullTarget host.types target (member node target m))
    (m.visibleFrom host.types v).read host v
  | typeMember _ m => (m.visibleFrom host.types .null).read host .null
  | binary .andAlso left right _ => do
    let l ← ofExcept ((← left.eval host).expectBool host.types "&&")
    if !l then return .boolean false
    let r ← ofExcept ((← right.eval host).expectBool host.types "&&")
    return .boolean r
  | binary .orElse left right _ => do
    let l ← ofExcept ((← left.eval host).expectBool host.types "||")
    if l then return .boolean true
    let r ← ofExcept ((← right.eval host).expectBool host.types "||")
    return .boolean r
  | binary .coalesce left right _ => do
    let l ← left.eval host
    if l.isNull then right.eval host else return l
  | binary op left right t => do
    let a ← left.eval host
    let b ← right.eval host
    ofExcept (applyBinary host.types op t a b)
  | unary op operand t conversion => do
    applyUnary host op t conversion (← operand.eval host)
  | call target m args => do
    let v ← target.eval host
    -- Asked before the arguments are evaluated, and of the targets of static methods too.
    if v.isNull then fail (nullTarget host.types target (call target m args))
    let vs ← evalAll host args
    (m.visibleFrom host.types v).invoke host (some v) vs
  | typeCall m args => do
    let vs ← evalAll host args
    m.invoke host none vs
  | conditional test yes no _ => do
    let b ← ofExcept ((← test.eval host).expectBool host.types "?:")
    if b then yes.eval host else no.eval host
termination_by structural e
def evalAll (host : Host) (es : List Expr) : Effect (List Value) :=
  match es with
  | [] => pure []
  | e :: es => do
    let v ← e.eval host
    let vs ← evalAll host es
    return v :: vs
termination_by structural es
end

end Expr

end DataBinding
