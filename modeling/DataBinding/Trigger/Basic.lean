import DataBinding.Compiled.Basic
import DataBinding.Flags

/-!
# Triggers

Actions, the handlers that carry them to events, and the sources of change that handlers are attached to.
A trigger is a subscription of one binding to one source, live or not.
-/

namespace DataBinding

/-- A binding, named for its whole life. -/
structure BindingId where
  index : Nat
deriving DecidableEq, Repr

/-- When a command allows to be executed. -/
inductive Guard where
  | none
  | fixed (allowed : Bool)
  | parameterGiven
  /-- When a slot holds the truth value true. -/
  | slot (o : ObjectRef) (name : String)

structure Command where
  guard : Guard
  acts : List Act

/-- What happens when something fires. -/
inductive Action where
  | script (acts : List Act)
  /-- Carries the value of one side of an equality binding to the other side. -/
  | follow (binding : BindingId) (source : Getter) (target : Setter)
  /-- Calls the method of an action binding again. -/
  | rerun (binding : BindingId) (call : Getter)
  /-- Acts, and disposes an event binding after that. -/
  | once (binding : BindingId) (inner : Action)
  /-- Executes a command with a null parameter, if it allows that. -/
  | command (c : Command)

inductive EventArgs where
  | none
  | text (s : String)
  | number (i : Int64)
  | property (name : String)
deriving DecidableEq

/-- The kind of arguments that a handler takes. A direct handler is the action itself. -/
inductive Payload where
  | none
  | text
  | number
  | property
  | direct
deriving DecidableEq, Repr

def EventName.payload : EventName → Payload
  | clicked => .none
  | textChanged => .text
  | ticked => .number

/-- How a handler answers. -/
inductive Response where
  /-- Whatever the arguments. -/
  | always (a : Action)
  /-- If the arguments name this property. -/
  | onProperty (name : String) (a : Action)
  /-- Tells its name and the number, then runs a script. -/
  | report (name : String) (acts : List Act)

/-- A handler; its identity is its number. -/
structure Handler where
  id : Nat
  payload : Payload
  response : Response

/-- An event of a model object, the hidden event of a foreign object, or a free event. -/
inductive EventKey where
  | changed (o : String)
  | named (o : String) (e : EventName)
  | hidden (o : String)
  | free (name : String)
deriving DecidableEq, Repr

def EventKey.payload : EventKey → Payload
  | changed _ => .property
  | named _ e => e.payload
  | hidden _ => .none
  | free _ => .number

/-- Whether attaching or detaching goes wrong. -/
inductive Fault where
  | attach
  | detach
deriving DecidableEq, Repr

/-- Where changes are signalled, and how handlers get there. -/
inductive ChangeSource where
  | event (e : EventName)
  /-- An event whose handlers are logged, and that may refuse them. -/
  | traced (e : EventName) (tag : String) (fault : Option Fault)
  | hidden
  | property (name : String)
  /-- A list of actions under a tag, whatever the target. -/
  | direct (tag : String)

/-- A subscription of one binding to one source of change. -/
structure Trigger where
  target : Target
  source : ChangeSource
  label : String
  handler : Option Handler := none

def Trigger.isSubscribed (t : Trigger) : Bool := t.handler.isSome

end DataBinding
