import DataBinding.Expr.Eval

/-!
# Running compiled expressions

Getters give values and setters take them. A getter that is not compiled falls back to the evaluator.
-/

namespace DataBinding

open Effect

namespace Receiver

def type? (w : World) : Receiver → Option TypeId
  | shared v => v.type?
  | boxed b => (w.box b).type?
  | type t => some t

/-- The receiver as the target of a trigger: of a box, a copy of what it holds. -/
def target (w : World) : Receiver → Target
  | shared v => .value v
  | boxed b => .value (w.box b)
  | type t => .type t

/-- The value that host code sees as the receiver. -/
def value (w : World) : Receiver → Value
  | shared v => v
  | boxed b => w.box b
  | type _ => .null

def read (host : Host) (r : Receiver) (a : Accessor) : Effect Value := do
  a.get host (r.value (← get))

/-- Writes through an accessor. The content of a box is replaced when the write has succeeded. -/
def write (host : Host) (r : Receiver) (a : Accessor) (v : Value) : Effect Unit := do
  -- Host code works on a copy, so the box keeps what it has if the write fails.
  let after ← a.set host (r.value (← get)) v
  match r with
  | boxed b => modify (·.setBox b after)
  | _ => pure ()

end Receiver

namespace Dispatch

def delegate (host : Host) (args : List Value) : Dispatch → Except Error Delegate
  | fixed d => .ok d
  | byReceiver m =>
    match args.head?.bind Value.type? with
    | some t => Delegate.on host.types m t
    | none => .error (Delegate.missingReceiver host.types m)

end Dispatch

namespace Getter

mutual
def run (host : Host) (g : Getter) : Effect Value :=
  match g with
  | constant v => pure v
  | read r a => r.read host a
  | coalesce l r => do
    let v ← l.run host
    if v.isNull then r.run host else return v
  | andAlso l r => do
    let a ← ofExcept ((← l.run host).expectBool host.types "&&")
    if !a then return .boolean false
    let b ← ofExcept ((← r.run host).expectBool host.types "&&")
    return .boolean b
  | orElse l r => do
    let a ← ofExcept ((← l.run host).expectBool host.types "||")
    if a then return .boolean true
    let b ← ofExcept ((← r.run host).expectBool host.types "||")
    return .boolean b
  | equal l r => do
    let a ← l.run host
    let b ← r.run host
    return .boolean (a.looselySame b)
  | concat l r => do
    let a ← l.run host
    let b ← r.run host
    return Value.concat host.types a b
  | not g => do
    let b ← ofExcept ((← g.run host).expectBool host.types "!")
    return .boolean !b
  | cast g t => do ofExcept ((← g.run host).cast host.types t)
  | change g t => do ofExcept ((← g.run host).change host.types t)
  | convert g d => do
    let v ← g.run host
    return (← d.invoke host [v]).1.getD .null
  | call dispatch args => do
    let vs ← runAll host args
    let d ← ofExcept (dispatch.delegate host vs)
    return (← d.invoke host vs).1.getD .null
  | evaluate e => e.eval host
termination_by structural g
def runAll (host : Host) (gs : List Getter) : Effect (List Value) :=
  match gs with
  | [] => pure []
  | g :: gs => do
    let v ← g.run host
    let vs ← runAll host gs
    return v :: vs
termination_by structural gs
end

end Getter

namespace CustomSetter

def run (host : Host) (c : CustomSetter) (target : Target) (v : Value) : Effect Unit :=
  match c with
  | report tag =>
    tell ("override " ++ tag ++ " " ++ target.typeName host.types ++ " " ++ v.inspect host.types)
  | slot name refusal =>
    match target with
    | .type t => fail (.typeMismatch (.notInstance (host.types.name t)))
    | .value receiver => do
      let r ← ofExcept (host.downcast .model receiver)
      tell ("custom set " ++ r.name ++ "." ++ name ++ " " ++ v.inspect host.types)
      Member.refuse refusal
      modify (·.setSlot r.name name v)
      host.raiseNamed r .textChanged

end CustomSetter

namespace Setter

def run (host : Host) (v : Value) : Setter → Effect Unit
  | write r a => r.write host a v
  | custom c target => c.run host target v
  | change t inner => do
    let v ← ofExcept (v.change host.types t)
    inner.run host v

end Setter

end DataBinding
