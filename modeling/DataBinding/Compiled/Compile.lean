import DataBinding.Compiled.Run
import DataBinding.Expr.Build

/-!
# Compiling expressions

The receiver of each member access is resolved once and kept; getters and setters are built over these
receivers. An expression of another shape has no compiled form, which is no error. What was resolved before
an error stays resolved.
-/

namespace DataBinding

/-- The receivers of the member accesses that were met so far. -/
abbrev Receivers := Table NodeId Receiver

structure Workbench where
  world : World
  receivers : Receivers

/-- A computation that also resolves receivers. -/
abbrev Compile := EStateM Stop Workbench

namespace Compile

/-- Computations on the world leave the receivers alone. -/
def lift {α : Type} (x : Effect α) : Compile α := fun s =>
  match x s.world with
  | .ok a w => .ok a { s with world := w }
  | .error e w => .error e { s with world := w }

instance : MonadLift Effect Compile := ⟨lift⟩

def fail {α : Type} (e : Error) : Compile α := throw (.failed e)

/-- Runs a compilation on given receivers; gives the receivers afterwards, also after an error. -/
def withReceivers {α : Type} (rs : Receivers) (x : Compile α) : Effect (Except Error α × Receivers) := fun w =>
  match x ⟨w, rs⟩ with
  | .ok a s => .ok (.ok a, s.receivers) s.world
  | .error (.failed e) s => .ok (.error e, s.receivers) s.world
  | .error .exhausted s => .error .exhausted s.world

/-- The receiver of a node: the one it has, or else a new one that it keeps. -/
def kept (node : NodeId) (make : Compile Receiver) : Compile Receiver := do
  match (← get).receivers.find? node with
  | some r => pure r
  | none =>
    -- A receiver that cannot be made is not kept, so the next access tries again.
    let r ← make
    modify fun s => { s with receivers := s.receivers.insert node r }
    pure r

end Compile

open Compile

namespace Receiver

/-- A receiver for a value; a record gets a box of its own. -/
def ofValue (v : Value) : Effect Receiver :=
  match v with
  | .record .. => do
    let b := BoxId.mk (← Effect.fresh)
    modify (·.setBox b v)
    return boxed b
  | v => pure (shared v)

def accessor (host : Host) (r : Receiver) (m : Member) (whole : Expr) : Effect Accessor := do
  match r.type? (← get) with
  | some t => return Accessor.on host.types m t
  | none => Effect.fail (.nullReference (host.types.qualifiedMember m) (whole.render host.types))

end Receiver

namespace Expr

variable (host : Host)

/-- The receiver of a member access whose target gives its value by `value`. -/
def receiverOn (node : NodeId) (target : Expr) (m : Member) (value : Compile Value) : Compile Receiver :=
  kept node do
    let v ← value
    if v.isNull then fail (nullTarget host.types target (member node target m))
    Receiver.ofValue v

def typeReceiver (node : NodeId) (m : Member) : Compile Receiver := kept node (pure (.type m.id.owner))

def readThrough (r : Receiver) (m : Member) (whole : Expr) : Effect Value := do
  let a ← r.accessor host m whole
  r.read host a

/-- The value that a target has: chains of members go through their receivers, all else is evaluated. -/
def targetValue : Expr → Compile Value
  | constant v _ _ => pure v
  | member node target m => do
    let r ← receiverOn host node target m (targetValue target)
    readThrough host r m (member node target m)
  | typeMember node m => do
    let r ← typeReceiver node m
    readThrough host r m (typeMember node m)
  | e => e.eval host

def memberReceiver (node : NodeId) (target : Expr) (m : Member) : Compile Receiver :=
  receiverOn host node target m (targetValue host target)

/-- What a member access reads from, as a target; other expressions have none. -/
def findTarget? : Expr → Compile (Option Target)
  | member node target m => do
    let r ← memberReceiver host node target m
    return some (r.target (← get).world)
  | typeMember node m => do
    let r ← typeReceiver node m
    return some (r.target (← get).world)
  | _ => pure none

def memberGetter (m : Member) (whole : Expr) (receiver : Compile Receiver) : Compile (Option Getter) := do
  if m.reader.isNone then return none
  let r ← receiver
  let a ← r.accessor host m whole
  return if a.canRead then some (.read r a) else none

def binaryGetter (op : BinaryOp) (t : TypeId) : Option (Getter → Getter → Getter) :=
  match op with
  | .coalesce => some .coalesce
  | .andAlso => some .andAlso
  | .orElse => some .orElse
  | .equal => some .equal
  | .add => if t = .string then some .concat else none
  | _ => none

def conversionGetter (t : TypeId) (conversion : Option Method) (g : Getter) : Except Error (Option Getter) :=
  if !host.types.isValueType t then .ok (some (.cast g t))
  else match conversion with
    | none => .ok (some (.change g t))
    | some m =>
      if m.isSupported then (Delegate.on host.types m m.id.owner).map fun d => some (.convert g d)
      else .ok none

def dispatchOf (m : Method) : Except Error Dispatch :=
  if m.isVirtual && !m.isStatic then .ok (.byReceiver m)
  else (Delegate.on host.types m m.id.owner).map .fixed

mutual
def getter? (e : Expr) : Compile (Option Getter) :=
  match e with
  | constant v _ _ => pure (some (.constant v))
  | member node target m =>
    memberGetter host m (member node target m) (memberReceiver host node target m)
  | typeMember node m => memberGetter host m (typeMember node m) (typeReceiver node m)
  | binary op left right t =>
    match binaryGetter op t with
    | none => pure none
    | some combine => do
      let l ← getter? left
      let r ← getter? right
      return match l, r with
        | some l, some r => some (combine l r)
        | _, _ => none
  | unary .not operand _ _ =>
    if operand.type? = some .bool then do
      return (← getter? operand).map .not
    else pure none
  | unary .convert operand t conversion => do
    match (← getter? operand) with
    | none => pure none
    | some g => Effect.ofExcept (conversionGetter host t conversion g)
  | unary .negate _ _ _ => pure none
  | call target m args =>
    if !m.isSupported then pure none
    else if m.isStatic then do
      match (← getters? args) with
      | none => pure none
      | some gs => Effect.ofExcept ((dispatchOf host m).map fun d => some (.call d gs))
    else do
      match (← getter? target) with
      | none => pure none
      | some r =>
        match (← getters? args) with
        | none => pure none
        | some gs => Effect.ofExcept ((dispatchOf host m).map fun d => some (.call d (r :: gs)))
  | typeCall m args =>
    if !m.isSupported || !m.isStatic then pure none
    else do
      match (← getters? args) with
      | none => pure none
      | some gs => Effect.ofExcept ((dispatchOf host m).map fun d => some (.call d gs))
  | conditional .. => pure none
termination_by structural e
/-- The compiled forms of a list of expressions, up to the first that has none. -/
def getters? (es : List Expr) : Compile (Option (List Getter)) :=
  match es with
  | [] => pure (some [])
  | e :: es => do
    match (← getter? e) with
    | none => pure none
    | some g => return (← getters? es).map (g :: ·)
termination_by structural es
end

/-- The setter of a member access: a custom one, or else the member's own if it can be written. -/
def memberSetter (custom : Option (Table DeclId CustomSetter)) (m : Member) (whole : Expr)
    (receiver : Compile Receiver) : Compile (Option Setter) := do
  match custom.bind (·.find? m.id) with
  | some c =>
    let r ← receiver
    return some (.custom c (r.target (← get).world))
  | none =>
    if m.writer.isNone then return none
    let r ← receiver
    let a ← r.accessor host m whole
    return if a.canWrite then some (.write r a) else none

def isImplicit (conversion : Option Method) : Bool :=
  match conversion with
  | some m => m.name == "op_Implicit"
  | none => true

def setter? (custom : Option (Table DeclId CustomSetter)) : Expr → Compile (Option Setter)
  | member node target m =>
    memberSetter host custom m (member node target m) (memberReceiver host node target m)
  | typeMember node m => memberSetter host custom m (typeMember node m) (typeReceiver node m)
  | unary .convert operand _ conversion =>
    match operand.type? with
    | some t =>
      if isImplicit conversion && t.isPrimitive then do
        return (← setter? custom operand).map (.change t)
      else pure none
    | none => pure none
  | _ => pure none

end Expr

end DataBinding
