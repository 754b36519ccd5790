import DataBinding.Event.Raise

/-!
# Attaching handlers

How each source of change makes a handler out of an action, and how it attaches and detaches one. Sources
that share an event take each other's handlers only if these take the same arguments.
-/

namespace DataBinding

open Effect

namespace Target

def object (host : Host) (wanted : ObjectKind) : Target → Except Error ObjectRef
  | value v => host.downcast wanted v
  | type t => .error (.typeMismatch (.typeAsTarget (host.types.name t)))

def inspect (types : TypeTable) : Target → String
  | value v => "instance " ++ v.inspect types
  | type t => "type " ++ types.name t

/-- The object whose property changes can be listened to. -/
def notifier (types : TypeTable) (w : World) (t : Target) : Except Error ObjectRef :=
  let silent : Error := .typeMismatch (.silentTarget (t.typeName types))
  match t with
  | value (.object r) => if r.kind = .model && (w.object r.name).offersChanges then .ok r else .error silent
  | _ => .error silent

end Target

/-- A handler fits where its arguments are told. -/
def Handler.require (h : Handler) (k : EventKey) : Except Error Unit :=
  if h.payload = k.payload then .ok () else .error (.typeMismatch .foreignHandler)

namespace ChangeSource

def createHandler (s : ChangeSource) (a : Action) : Effect Handler := do
  match s with
  | event e => return ⟨← fresh, e.payload, .always a⟩
  | traced e tag _ =>
    tell ("handler " ++ tag)
    return ⟨← fresh, e.payload, .always a⟩
  | hidden => return ⟨← fresh, .none, .always a⟩
  | property name => return ⟨← fresh, .property, .onProperty name a⟩
  | direct _ => return ⟨← fresh, .direct, .always a⟩

/-- The event of a target that handlers are attached to; direct sources have none. -/
def event? (host : Host) (s : ChangeSource) (target : Target) : Effect (Option EventKey) := do
  match s with
  | event e | traced e _ _ => return some (.named (← ofExcept (target.object host .model)).name e)
  | hidden => return some (.hidden (← ofExcept (target.object host .foreign)).name)
  | property _ => return some (.changed (← ofExcept (target.notifier host.types (← get))).name)
  | direct _ => return none

/-- The event of a target, which has to take the handler. -/
def key? (host : Host) (s : ChangeSource) (target : Target) (h : Handler) : Effect (Option EventKey) := do
  let key ← s.event? host target
  match key with
  | some k => ofExcept (h.require k)
  | none => pure ()
  return key

/-- What a traced source tells and refuses before it touches its event. -/
def checkTraced (s : ChangeSource) (fault : Fault) (k : EventKey) : Effect Unit :=
  match s, k with
  | traced _ tag refusing, .named o _ => do
    let (mark, verb) := match fault with
      | .attach => ("sub ", "subscribe ")
      | .detach => ("unsub ", "unsubscribe ")
    tell (mark ++ tag ++ " " ++ o)
    if refusing = some fault then fail (.host ("cannot " ++ verb ++ tag))
  | _, _ => pure ()

def attach (host : Host) (s : ChangeSource) (target : Target) (h : Handler) : Effect Unit := do
  match (← s.key? host target h), s with
  | some k, s =>
    s.checkTraced .attach k
    addHandler k h
  | none, direct tag =>
    tell ("sub " ++ tag ++ " " ++ target.inspect host.types)
    modify fun w => { w with direct := w.direct ++ [(tag, h)] }
  | none, _ => pure ()

/-- Detaches a handler from a target. A direct source lets go of every occurrence, under whatever tag. -/
def detach (host : Host) (s : ChangeSource) (target : Target) (h : Handler) : Effect Unit := do
  match (← s.key? host target h), s with
  | some k, s =>
    s.checkTraced .detach k
    -- A handler that is not there is passed over in silence.
    let _ ← removeHandler k h.id
  | none, direct tag =>
    tell ("unsub " ++ tag ++ " " ++ target.inspect host.types)
    modify fun w => { w with direct := w.direct.filter fun (_, g) => g.id ≠ h.id }
  | none, _ => pure ()

end ChangeSource

namespace Trigger

def tellState (host : Host) (t : Trigger) (state : String) : Effect Unit :=
  debug (state ++ " [target=" ++ t.target.typeName host.types ++ ", trigger=" ++ t.label ++ "]")

/-- Detaches the handler, if there is one. The trigger gives it up also if that fails. -/
def unsubscribe (host : Host) (t : Trigger) : Effect (Except Error Unit × Trigger) := do
  match t.handler with
  | none => return (.ok (), t)
  | some h =>
    let outcome ← attempt do
      t.source.detach host t.target h
      t.tellState host "unsubscribed"
    -- An event that still has the handler keeps it, but the trigger will not ask for it again.
    return (outcome, { t with handler := none })

/-- Attaches a new handler for an action, in place of the one before. -/
def subscribe (host : Host) (t : Trigger) (a : Action) : Effect (Except Error Unit × Trigger) := do
  let (outcome, t) ← t.unsubscribe host
  match outcome with
  | .error e => return (.error e, t)
  | .ok () =>
    let outcome ← attempt do
      let h ← t.source.createHandler a
      t.source.attach host t.target h
      t.tellState host "subscribed"
      return h
    match outcome with
    | .error e => return (.error e, t)
    | .ok h => return (.ok (), { t with handler := some h })

/-- Subscribes all triggers in order, up to the first that fails. -/
def subscribeAll (host : Host) (a : Action) : List Trigger → Effect (List Trigger)
  | [] => pure []
  | t :: ts => do
    let (outcome, t) ← t.subscribe host a
    ofExcept outcome
    let ts ← subscribeAll host a ts
    return t :: ts

/-- Unsubscribes all triggers; failures are told and do not stop it. -/
def unsubscribeAll (host : Host) : List Trigger → Effect (List Trigger)
  | [] => pure []
  | t :: ts => do
    let (outcome, t) ← t.unsubscribe host
    match outcome with
    | .ok () => pure ()
    | .error e => warn ("failed to unsubscribe: " ++ e.message ++ " [trigger=" ++ t.label ++ "]")
    let ts ← unsubscribeAll host ts
    return t :: ts

end Trigger

end DataBinding
