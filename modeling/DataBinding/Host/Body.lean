import DataBinding.Event.Raise

/-!
# Running bodies

The bodies of methods and computed members, over a receiver and arguments.
-/

namespace DataBinding

open Effect

/-- What a receiver has under a name: a slot of a model object or a field of a record. -/
def World.slotOf (w : World) (receiver : Value) (name : String) : Value :=
  match receiver with
  | .object r => if r.kind = .model then w.slot r.name name else .null
  | .record _ fields => Value.field fields name
  | _ => .null

namespace Operand

def value (types : TypeTable) (w : World) (receiver : Value) (args : List Value) : Operand → Value
  | constant v => v
  | argument i => args[i]?.getD .null
  | slot name => w.slotOf receiver name
  | successor name => .integer ((w.slotOf receiver name).intOrZero + 1)
  | joined => .text (String.join (args.map (Value.display types)))
  | total => .integer (args.foldl (fun n v => n + v.intOrZero) 0)
  | tagged tag => .text (tag ++ "#" ++ ((args.head?.map (Value.display types)).getD ""))

end Operand

namespace Body

/-- Sets one slot of the receiver: where receivers are changed in place a field of a record, else a slot of a
model object. Receivers of other kinds stay as they are. -/
def setSlot (inPlace : Bool) (receiver : Value) (name : String) (v : Value) : Effect Value :=
  match inPlace, receiver with
  | true, .record t fields => pure (.record t (Value.setField name v fields))
  | false, .object r => do
    if r.kind = .model then modify (·.setSlot r.name name v)
    pure receiver
  | _, _ => pure receiver

def setSlots (types : TypeTable) (inPlace : Bool) (args : List Value) :
    Value → List (String × Operand) → Effect Value
  | receiver, [] => pure receiver
  | receiver, (name, operand) :: rest => do
    let v := operand.value types (← get) receiver args
    let receiver ← setSlot inPlace receiver name v
    setSlots types inPlace args receiver rest

def run (host : Host) (label : String) (inPlace : Bool) (receiver : Value) (args : List Value) (b : Body) :
    Effect (Value × Value) := do
  if b.traced then
    tell ("call " ++ label ++ "(" ++ ", ".intercalate (args.map (Value.inspect host.types)) ++ ")")
  host.run b.acts
  let receiver ← setSlots host.types inPlace args receiver b.sets
  match b.failure with
  | some message => fail (.host message)
  | none => pure (b.result.value host.types (← get) receiver args, receiver)

end Body

namespace Method

/-- Runs a method; gives the result and the receiver afterwards. A static method without a result type gives
null whatever its body says. -/
def run (host : Host) (m : Method) (receiver : Value) (args : List Value) : Effect (Value × Value) :=
  let label := host.types.qualifiedMethod m
  match m.convention with
  | .static => do
    let (v, _) ← m.body.run host label false .null args
    pure (if m.returns.isNone then .null else v, receiver)
  | .object => do
    let _ ← ofExcept (host.downcast .model receiver)
    m.body.run host label false receiver args
  | .record => m.body.run host label true receiver args

end Method

end DataBinding
