import DataBinding.Trigger.Attach

/-!
# Disposing bindings

A disposed binding has released every subscription that could be released. Disposing it again does nothing.
-/

namespace DataBinding

open Effect

/-- The event of an object that can be reached without a registration. -/
def World.exposedEvent? (w : World) (v : Value) (event : String) : Option EventKey :=
  match v with
  | .object r =>
    if r.kind = .model && (w.object r.name).exposed.contains event then
      (EventName.ofText? event).map (.named r.name)
    else none
  | _ => none

namespace World

def updateEquality (w : World) (id : BindingId) (f : EqualityBinding → EqualityBinding) : World :=
  match w.equality? id with
  | some b => w.setBinding id (.equality (f b))
  | none => w

def updateAction (w : World) (id : BindingId) (f : ActionBinding → ActionBinding) : World :=
  match w.action? id with
  | some b => w.setBinding id (.action (f b))
  | none => w

end World

def removeExposed (target : Value) (event : String) (h : Handler) : Effect Bool := do
  match (← get).exposedEvent? target event with
  | some k => removeUniversal k h
  | none => pure false

/-- Detaches the handler of an event binding. What goes wrong is told. -/
def EventBinding.release (host : Host) (b : EventBinding) (target : Value) (h : Handler) : Effect Unit := do
  let typeName := target.typeName host.types
  match b.source with
  | some s =>
    match (← attempt (s.detach host (.value target) h)) with
    | .ok () => pure ()
    | .error e => warn ("failed to remove [" ++ b.event ++ "] handler from " ++ typeName ++ ": " ++ e.message)
  | none =>
    if !(← removeExposed target b.event h) then
      warn ("[" ++ b.event ++ "] handler was not attached to " ++ typeName)
  debug ("Removed handler [" ++ b.event ++ "] for " ++ typeName)

def EqualityBinding.dispose (host : Host) (id : BindingId) (b : EqualityBinding) : Effect Unit := do
  if b.disposed then return
  -- Set before anything is released: what detaching sets off meets a binding that is disposed.
  modify (·.setBinding id (.equality { b with disposed := true }))
  let left ← Trigger.unsubscribeAll host b.left
  let right ← Trigger.unsubscribeAll host b.right
  modify (·.setBinding id (.equality { b with disposed := true, left, right }))

def ActionBinding.dispose (host : Host) (id : BindingId) (b : ActionBinding) : Effect Unit := do
  if b.disposed then return
  modify (·.setBinding id (.action { b with disposed := true }))
  let triggers ← Trigger.unsubscribeAll host b.triggers
  modify (·.setBinding id (.action { b with disposed := true, triggers }))

def EventBinding.dispose (host : Host) (id : BindingId) (b : EventBinding) : Effect Unit := do
  if b.disposed then return
  modify (·.setBinding id (.event { b with disposed := true, target := none, handler := none }))
  match b.target, b.handler with
  | some target, some h => b.release host target h
  | _, _ => pure ()

namespace Host

/-- Disposes a binding; one that does not exist is left alone. -/
def dispose (host : Host) (id : BindingId) : Effect Unit := do
  match (← get).bindings.find? id with
  | some (.equality b) => b.dispose host id
  | some (.action b) => b.dispose host id
  | some (.event b) => b.dispose host id
  | some (.custom name) => tell ("custom dispose " ++ name)
  | none => pure ()

def disposeNamed (host : Host) (name : String) : Effect Unit := do
  match (← get).namedBindings.find? name with
  | some id => host.dispose id
  | none => pure ()

def nameBinding (host : Host) (name : String) (id : BindingId) : Effect Unit := do
  let before := (← get).namedBindings.find? name
  modify fun w => { w with namedBindings := w.namedBindings.insert name id }
  match before with
  | some old => host.dispose old
  | none => pure ()

/-- Takes a name away from its binding, which is disposed by that. -/
def dropNamed (host : Host) (name : String) : Effect Unit := do
  match (← get).namedBindings.find? name with
  | some id =>
    modify fun w => { w with namedBindings := w.namedBindings.erase name }
    host.dispose id
  | none => pure ()

end Host

end DataBinding
