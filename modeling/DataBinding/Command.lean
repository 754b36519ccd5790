import DataBinding.Event.Raise

/-!
# Commands

A command runs its script only if asked to; trying it asks its guard first.
-/

namespace DataBinding.Command

open Effect

/-- Whether the command allows to be executed with a parameter. A command without a guard always does. -/
def canExecute (host : Host) (c : Command) (parameter : Value) : Effect Bool := do
  match c.guard with
  | .none => return true
  | guard =>
    tell ("can " ++ parameter.inspect host.types)
    match guard with
    | .fixed allowed => return allowed
    | .parameterGiven => return !parameter.isNull
    | .slot o name => return ((← get).slot o.name name).same (.boolean true)
    | .none => return true

def execute (host : Host) (c : Command) (parameter : Value) : Effect Unit := do
  tell ("exec " ++ parameter.inspect host.types)
  host.run c.acts

def tryExecute (host : Host) (c : Command) (parameter : Value) : Effect Bool := do
  if !(← c.canExecute host parameter) then return false
  c.execute host parameter
  return true

end DataBinding.Command
