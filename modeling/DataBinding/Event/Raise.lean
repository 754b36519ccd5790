import DataBinding.Host.Basic
import DataBinding.Event.HandlerList

/-!
# Raising events

A raise calls the handlers that are there when it starts, in order, and stops at the first error. A host may
limit how deep raises are nested.
-/

namespace DataBinding

namespace Effect

/-- Runs a computation one level deeper, whatever its outcome, unless that is too deep. -/
def nested (limit : Option Nat) (x : Effect Unit) : Effect Unit := fun w =>
  if limit.any (· ≤ w.depth) then .error (.failed (.host "raise depth exceeded")) w
  else
    match x { w with depth := w.depth + 1 } with
    | .ok a w' => .ok a { w' with depth := w.depth }
    | .error e w' => .error e { w' with depth := w.depth }

def addHandler (k : EventKey) (h : Handler) : Effect Unit :=
  modify fun w => w.setHandlers k (w.handlersOf k ++ [h])

/-- Removes the latest occurrence of a handler; tells whether there was one. -/
def removeHandler (k : EventKey) (id : Nat) : Effect Bool := do
  match HandlerList.removeLatest? id ((← get).handlersOf k) with
  | some hs => modify (·.setHandlers k hs); pure true
  | none => pure false

theorem removeHandler_run (k : EventKey) (id : Nat) (w : World) :
    removeHandler k id w =
      match HandlerList.removeLatest? id (w.handlersOf k) with
      | some hs => .ok true (w.setHandlers k hs)
      | none => .ok false w := by
  have hfound : removeHandler k id w = (match HandlerList.removeLatest? id (w.handlersOf k) with
    | some hs => (do modify fun w : World => w.setHandlers k hs; pure true : Effect Bool)
    | none => pure false) w := rfl
  rw [hfound]
  cases HandlerList.removeLatest? id (w.handlersOf k) <;> rfl

/-- Adds a new handler for an action, whatever the event tells. -/
def addUniversal (k : EventKey) (a : Action) : Effect Handler := do
  let h : Handler := ⟨← fresh, k.payload, .always a⟩
  addHandler k h
  return h

/-- Removes a handler that was made for an event of this kind; tells whether it was there. -/
def removeUniversal (k : EventKey) (h : Handler) : Effect Bool :=
  if h.payload = k.payload then removeHandler k h.id else pure false

end Effect

open Effect

namespace EventArgs

def numberText : EventArgs → String
  | number i => Decimal.intText i.toInt
  | _ => ""

end EventArgs

def Handler.respond (host : Host) (args : EventArgs) (h : Handler) : Effect Unit :=
  match h.response with
  | .always a => host.perform a
  | .onProperty name a => if args = .property name then host.perform a else pure ()
  | .report name acts => do
    tell ("handler " ++ name ++ " " ++ args.numberText)
    host.run acts

def respondAll (host : Host) (args : EventArgs) (hs : List Handler) : Effect Unit :=
  hs.forM (Handler.respond host args)

namespace Host

def raise (host : Host) (k : EventKey) (args : EventArgs) : Effect Unit :=
  -- The list is read once; handlers added or removed meanwhile count from the next raise on.
  nested host.raiseLimit do respondAll host args ((← get).handlersOf k)

def notify (host : Host) (o : ObjectRef) (property : String) : Effect Unit := do
  tell ("changed " ++ o.name ++ "." ++ property)
  host.raise (.changed o.name) (.property property)

def argsOf : EventName → EventArgs
  | .clicked => .none
  | .textChanged => .text "text"
  | .ticked => .number 1

def raiseNamed (host : Host) (o : ObjectRef) (e : EventName) : Effect Unit := do
  tell ("raise " ++ o.name ++ "." ++ e.text)
  host.raise (.named o.name e) (argsOf e)

/-- Performs the actions that are attached directly under a tag; handlers made for events are not called. -/
def fire (host : Host) (tag : String) : Effect Unit :=
  nested host.raiseLimit do
    let attached := (← get).direct.filter fun (t, h) => t == tag && h.payload == .direct
    respondAll host .none (attached.map Prod.snd)

end Host

end DataBinding
