import DataBinding.Trigger.Attach
import DataBinding.Compiled.Compile

/-!
# Collecting triggers

The triggers of an expression are those of its member accesses, each before its target, in the order in
which the expression is written. A member that occurs twice gives two triggers.
-/

namespace DataBinding

open Compile

namespace Expr

variable (host : Host) (config : Configuration)

/-- The trigger of an access to an instance member, which needs its receiver. -/
def instanceTrigger (m : Member) (receiver : Compile Receiver) : Compile (List Trigger) := do
  let r ← receiver
  let w := (← get).world
  let target := r.target w
  let type := match target with
    | .value v => v.type?
    | .type _ => none
  return match config.memberSource? host.types m type with
    | some s => [⟨target, s, host.types.qualifiedMember m, none⟩]
    | none => []

/-- The trigger of an access to a static member; only a registered source is used. -/
def staticTrigger (m : Member) : List Trigger :=
  match config.memberSource? host.types m none with
  | some s => [⟨.type m.id.owner, s, host.types.qualifiedMember m, none⟩]
  | none => []

mutual
/-- The triggers of an expression, not subscribed yet. -/
def triggers (e : Expr) : Compile (List Trigger) :=
  match e with
  | constant .. => pure []
  | member node target m => do
    let own ← if m.isStatic then pure (staticTrigger host config m)
      else instanceTrigger host config m (memberReceiver host node target m)
    let inner ← triggers target
    return own ++ inner
  | typeMember node m =>
    if m.isStatic then pure (staticTrigger host config m)
    else instanceTrigger host config m (typeReceiver node m)
  | binary _ left right _ => do
    let l ← triggers left
    let r ← triggers right
    return l ++ r
  | unary _ operand _ _ => triggers operand
  | call target _ args => do
    let t ← triggers target
    let a ← triggersAll args
    return t ++ a
  | typeCall _ args => triggersAll args
  | conditional test yes no _ => do
    let t ← triggers test
    let y ← triggers yes
    let n ← triggers no
    return t ++ y ++ n
termination_by structural e
def triggersAll (es : List Expr) : Compile (List Trigger) :=
  match es with
  | [] => pure []
  | e :: es => do
    let t ← triggers e
    let ts ← triggersAll es
    return t ++ ts
termination_by structural es
end

end Expr

end DataBinding
