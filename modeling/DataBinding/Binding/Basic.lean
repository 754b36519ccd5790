import DataBinding.Configuration

/-!
# Bindings

The states of the bindings: an equality keeps one expression equal to another, an action calls a method
again whenever one of its inputs changes, and an event binding runs an action when an event is raised.
-/

namespace DataBinding

structure EqualityBinding where
  dispatcher : Option Dispatcher
  flags : Flags
  /-- The value that was carried over last, in either direction. -/
  value : Value := .null
  left : List Trigger := []
  right : List Trigger := []
  disposed : Bool := false

structure ActionBinding where
  dispatcher : Option Dispatcher
  flags : Flags
  triggers : List Trigger := []
  disposed : Bool := false

structure EventBinding where
  event : String
  /-- The registered source of the event; without one the event itself is used. -/
  source : Option ChangeSource
  /-- The object whose event is bound, until the binding is disposed. -/
  target : Option Value
  handler : Option Handler := none
  disposed : Bool := false

inductive Binding where
  | equality (b : EqualityBinding)
  | action (b : ActionBinding)
  | event (b : EventBinding)
  /-- A binding of the host, which tells when it is disposed. -/
  | custom (name : String)

namespace Binding

def isDisposed : Binding → Bool
  | equality b => b.disposed
  | action b => b.disposed
  | event b => b.disposed
  | custom _ => false

end Binding

def subscribedCount (ts : List Trigger) : Nat := (ts.filter Trigger.isSubscribed).length

namespace EqualityBinding

def subscriptions (b : EqualityBinding) : Nat := subscribedCount b.left + subscribedCount b.right

end EqualityBinding

namespace ActionBinding

def subscriptions (b : ActionBinding) : Nat := subscribedCount b.triggers

end ActionBinding

namespace EventBinding

def isAttached (b : EventBinding) : Bool := b.handler.isSome

end EventBinding

structure Assignment where
  binding : BindingId
  target : Setter
  value : Value

/-- A unit of work that a binding hands to a dispatcher. -/
inductive Job where
  | assign (a : Assignment)
  /-- Evaluates and drops the value. -/
  | call (g : Getter)

end DataBinding
