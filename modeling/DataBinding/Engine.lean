import DataBinding.Binding.Set
import DataBinding.Command

/-!
# The engine

Performing actions: scripts act by act, and the reactions of bindings. Host code may raise events whose
handlers perform further actions, so the engine takes fuel, one unit for each action inside another.
-/

namespace DataBinding

open Effect

/-- How many queued jobs one act runs. -/
def flushLimit : Nat := 8

namespace Host

def readNamed (host : Host) (o : ObjectRef) (name : String) : Effect Value := do
  let m ← ofExcept (host.types.requireMember o.type name)
  m.read host (.object o)

def writeNamed (host : Host) (o : ObjectRef) (name : String) (v : Value) : Effect Unit := do
  let m ← ofExcept (host.types.requireMember o.type name)
  let _ ← m.write host (.object o) v

end Host

/-- Makes a handler for free events that tells its name and runs a script, under that name. -/
def Effect.makeNamedHandler (name : String) (acts : List Act) : Effect Unit := do
  let h : Handler := ⟨← fresh, .number, .report name acts⟩
  modify fun w => { w with namedHandlers := w.namedHandlers.insert name h }

def Effect.listen (k : EventKey) (h : Handler) : Effect Unit := do
  modify fun w => { w with listenings := ⟨k, h, true⟩ :: w.listenings }
  Effect.addHandler k h

/-- Removes a handler of the host from an event; tells whether it was there. -/
def Effect.unlisten (k : EventKey) (h : Handler) : Effect Bool := do
  modify fun w => { w with listenings := ⟨k, h, false⟩ :: w.listenings }
  Effect.removeHandler k h.id

def Effect.addNamedHandler (event handler : String) : Effect Unit := do
  match (← get).namedHandlers.find? handler with
  | some h => listen (.free event) h
  | none => pure ()

def Effect.removeNamedHandler (event handler : String) : Effect Bool := do
  match (← get).namedHandlers.find? handler with
  | some h => unlisten (.free event) h
  | none => return false

namespace Act

def run (host : Host) : Act → Effect Unit
  | log text => tell ("log " ++ text)
  | fail message => Effect.fail (.host message)
  | write o name v => host.writeNamed o name v
  | poke o slot v => modify (·.setSlot o.name slot v)
  | increment o name => do
    let v ← host.readNamed o name
    host.writeNamed o name (.integer (v.intOrZero + 1))
  | copy source sourceName target targetName => do
    let v ← host.readNamed source sourceName
    host.writeNamed target targetName v
  | notify o property => host.notify o property
  | raise o e => host.raiseNamed o e
  | dispose name => host.disposeNamed name
  | drop name => host.dropNamed name
  | addHandler event handler => addNamedHandler event handler
  | removeHandler event handler => do
    let removed ← removeNamedHandler event handler
    tell ("removed " ++ Value.boolText removed)
  | raiseFree event i => host.raise (.free event) (.number i)
  | flush => DataBinding.flush host flushLimit
  | fire tag => host.fire tag

end Act

/-- Performs one action; what it causes is performed through the host. -/
def Action.step (host : Host) : Action → Effect Unit
  | script acts => acts.forM (Act.run host)
  | follow id source target => EqualityBinding.follow host id source target
  | rerun id call => ActionBinding.rerun host id call
  | once id inner => do
    host.perform inner
    host.dispose id
  | command c => do
    let _ ← c.tryExecute host .null

/-- Performs actions nested at most `fuel` deep. -/
def Engine.perform (p : Platform) : Nat → Action → Effect Unit
  | 0, _ => throw .exhausted
  | fuel + 1, a => a.step ⟨p, Engine.perform p fuel⟩

def Platform.withFuel (p : Platform) (fuel : Nat) : Host := ⟨p, Engine.perform p fuel⟩

end DataBinding
