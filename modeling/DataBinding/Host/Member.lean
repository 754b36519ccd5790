import DataBinding.Host.Body

/-!
# Reading and writing members

Members are read and written through what their type declares, and accessors and delegates through the
members and methods that they stand for.
-/

namespace DataBinding

open Effect

/-- Whether storing `v` over `old` would change nothing. Numbers are compared as numbers, so an undefined
one always counts as a change. -/
def Value.settles (v old : Value) : Bool :=
  match old, v with
  | .number x, .number y => x == y
  | old, v => old.same v

namespace Member

def read (host : Host) (m : Member) (receiver : Value) : Effect Value :=
  match m.reader with
  | none => fail (.notReadable (host.types.qualifiedMember m))
  | some (.slot name) => do
    let r ← ofExcept (host.downcast .model receiver)
    return (← get).slot r.name name
  | some (.recordField name) =>
    match receiver with
    | .record _ fields => pure (Value.field fields name)
    | v => fail (v.mismatch host.types "a struct")
  | some (.computed body) => do
    let (v, _) ← body.run host (host.types.qualifiedMember m) false receiver []
    return v
  | some (.stored initial) => do
    return ((← get).static? m.id).getD initial
  | some (.fixed v) => pure v
  | some .textLength =>
    match receiver with
    | .text s => pure (.integer (Int64.ofNat s.length))
    | _ => pure .null

/-- Stores into a slot. A loud writer keeps what it has if that is equal, and else tells about the change. -/
def store (host : Host) (m : Member) (r : ObjectRef) (slot : String) (loud : Bool) (v : Value) : Effect Unit := do
  if loud && v.settles ((← get).slot r.name slot) then return
  -- Stored before it is told: handlers read the new value.
  modify (·.setSlot r.name slot v)
  if loud then host.notify r m.name

/-- Fails with the reason for which a writer takes no values, if there is one. -/
def refuse : Option String → Effect Unit
  | some message => fail (.host message)
  | none => pure ()

def write (host : Host) (m : Member) (receiver v : Value) : Effect Value :=
  match m.writer with
  | none => fail (.notWritable (host.types.qualifiedMember m))
  | some (.slot name refusal loud) => do
    let r ← ofExcept (host.downcast .model receiver)
    -- A refusal comes before the conversion: a value of the wrong type is refused the same way.
    refuse refusal
    let v ← ofExcept (v.stored host.types m.type)
    m.store host r name loud v
    return receiver
  | some (.stored refusal) => do
    refuse refusal
    let v ← ofExcept (v.stored host.types m.type)
    modify (·.setStatic m.id v)
    return receiver
  | some (.recordField name) =>
    match receiver with
    | .record t fields => pure (.record t (Value.setField name v fields))
    | v => fail (v.mismatch host.types "a struct")

end Member

namespace Accessor

/-- Reads through an accessor; static members do not see the receiver. -/
def get (host : Host) (a : Accessor) (receiver : Value) : Effect Value :=
  a.member.read host (if a.member.isStatic then .null else receiver)

def set (host : Host) (a : Accessor) (receiver v : Value) : Effect Value :=
  if !a.canWrite then fail (.notWritable (host.types.qualifiedMember a.member))
  else if a.member.isStatic then do
    let _ ← a.member.write host .null v
    return receiver
  else a.member.write host receiver v

end Accessor

namespace Delegate

def missingReceiver (types : TypeTable) (m : Method) : Error :=
  .nullReference "receiver" (types.qualifiedMethod m)

/-- Calls a delegate with its arguments, the receiver in front; gives the result, if there is one, and the
arguments afterwards. -/
def invoke (host : Host) (d : Delegate) (args : List Value) : Effect (Option Value × List Value) := do
  if args.length ≠ d.kind.arity then
    fail (.argumentCount (host.types.qualifiedMethod d.method) d.kind.arity args.length)
  let result (v : Value) : Option Value := if d.kind.returnsValue then some v else none
  if d.method.isStatic then
    let (v, _) ← d.method.run host .null args
    return (result v, args)
  else
    match args with
    | [] => fail (missingReceiver host.types d.method)
    | receiver :: rest =>
      if receiver.isNull then fail (missingReceiver host.types d.method)
      let (v, receiver) ← d.method.run host receiver rest
      return (result v, receiver :: rest)

end Delegate

end DataBinding
