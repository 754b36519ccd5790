import DataBinding.Expr.Basic
import DataBinding.Access.Accessor
import DataBinding.Access.Delegate

/-!
# Compiled expressions

Getters and setters: what is left of an expression once the receivers of its member accesses are resolved.
A record receiver lives in a box, so that all getters and setters of one node see each other's writes.
-/

namespace DataBinding

structure BoxId where
  index : Nat
deriving DecidableEq, Repr

/-- What a member is read from: a value, or a type for static members. -/
inductive Target where
  | value (v : Value)
  | type (t : TypeId)

namespace Target

def typeName (types : TypeTable) : Target → String
  | value v => v.typeName types
  | type t => types.name t

end Target

/-- The resolved receiver of a member access. -/
inductive Receiver where
  | shared (v : Value)
  | boxed (b : BoxId)
  | type (t : TypeId)

inductive Dispatch where
  | fixed (d : Delegate)
  /-- From the type of the first argument, at every call. -/
  | byReceiver (m : Method)

inductive Getter where
  | constant (v : Value)
  | read (r : Receiver) (a : Accessor)
  | coalesce (l r : Getter)
  | andAlso (l r : Getter)
  | orElse (l r : Getter)
  | equal (l r : Getter)
  | concat (l r : Getter)
  | not (g : Getter)
  | cast (g : Getter) (t : TypeId)
  | change (g : Getter) (t : TypeId)
  | convert (g : Getter) (d : Delegate)
  /-- A call with its arguments, the receiver in front. -/
  | call (dispatch : Dispatch) (args : List Getter)
  /-- An expression that is not compiled: the evaluator takes it as it is. -/
  | evaluate (e : Expr)

/-- A setter that a configuration puts in place of a member's own one. -/
inductive CustomSetter where
  /-- Only tells what it was given. -/
  | report (tag : String)
  /-- Stores into a slot of a model object and raises its text event. -/
  | slot (name : String) (refusal : Option String)

inductive Setter where
  | write (r : Receiver) (a : Accessor)
  | custom (c : CustomSetter) (target : Target)
  /-- Changes the type of the value first. -/
  | change (t : TypeId) (inner : Setter)

end DataBinding
