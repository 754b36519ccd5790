import DataBinding.Value.Basic

/-!
# Scripts

What host code does, as data: a list of acts, and the bodies of methods and computed members, which run a
script, set slots of their receiver and give a result.
-/

namespace DataBinding

/-- The named events that every model object has. -/
inductive EventName where
  | clicked
  | textChanged
  | ticked
deriving DecidableEq, Repr

namespace EventName

def text : EventName → String
  | clicked => "Clicked"
  | textChanged => "TextChanged"
  | ticked => "Ticked"

def ofText? (s : String) : Option EventName := [clicked, textChanged, ticked].find? (·.text == s)

theorem ofText?_text (e : EventName) : ofText? e.text = some e := by cases e <;> decide

end EventName

/-- One step of host code. Bindings, handlers and free events are given by the names they go by when the
step runs. -/
inductive Act where
  | log (text : String)
  | fail (message : String)
  | write (target : ObjectRef) (member : String) (v : Value)
  /-- Stores into a slot without telling anyone. -/
  | poke (target : ObjectRef) (slot : String) (v : Value)
  /-- Reads an integer member and writes its successor. -/
  | increment (target : ObjectRef) (member : String)
  /-- Reads a member and writes it to another. -/
  | copy (source : ObjectRef) (sourceMember : String) (target : ObjectRef) (targetMember : String)
  | notify (target : ObjectRef) (property : String)
  | raise (target : ObjectRef) (event : EventName)
  | dispose (binding : String)
  | drop (binding : String)
  | addHandler (event handler : String)
  | removeHandler (event handler : String)
  | raiseFree (event : String) (argument : Int64)
  | flush
  | fire (tag : String)

/-- A value that a body computes from its arguments and its receiver. -/
inductive Operand where
  | constant (v : Value)
  | argument (i : Nat)
  | slot (name : String)
  /-- The integer in a slot, plus one. -/
  | successor (slot : String)
  /-- The display texts of all arguments, joined. -/
  | joined
  /-- The sum of the integers among the arguments. -/
  | total
  /-- A tag and the display text of the first argument. -/
  | tagged (tag : String)

/-- The body of a method or a computed member. Its parts take effect in the order of the fields. -/
structure Body where
  /-- Whether a call is logged. -/
  traced : Bool := false
  acts : List Act := []
  /-- Slots of the receiver that are set. -/
  sets : List (String × Operand) := []
  /-- The message of the failure that the body ends with. -/
  failure : Option String := none
  result : Operand := .constant .null

end DataBinding
