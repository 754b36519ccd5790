import DataBinding.Binding.Dispatch
import DataBinding.Binding.Dispose
import DataBinding.Trigger.Collect

/-!
# Building and running bindings

How each kind of binding is built from its parts, and what it does when something it observes changes.
A binding that fails to build is disposed; it never comes alive again.
-/

namespace DataBinding

open Effect

/-- The compiled form of an expression, or the expression itself for the evaluator. -/
def Expr.getterOrFallback (host : Host) (e : Expr) : Compile Getter := do
  match (← e.getter? host) with
  | some g => pure g
  | none =>
    debug ("using the expression evaluator [expr=" ++ e.render host.types ++ "]")
    pure (.evaluate e)

/-- Builds a binding; if that fails, the binding is disposed. -/
def building (host : Host) (id : BindingId) (x : Compile Unit) : Effect BindingId := do
  let (outcome, _) ← Compile.withReceivers .empty x
  match outcome with
  | .ok () => return id
  | .error e =>
    host.dispose id
    fail e

namespace EqualityBinding

def assign (host : Host) (id : BindingId) (s : Setter) (v : Value) : Effect Unit := do
  match (← get).equality? id with
  | none => pure ()
  | some b =>
    dispatch host b.dispatcher (.assign ⟨id, s, v⟩)
    if b.flags.isOneTime then host.dispose id

/-- What happens when a side has changed: its value is carried over unless it was carried over last. -/
def follow (host : Host) (id : BindingId) (source : Getter) (target : Setter) : Effect Unit := do
  match (← get).equality? id with
  | none => pure ()
  | some b =>
    if b.disposed then return
    let v ← source.run host
    -- Running the source may have carried a value over: the state is read again.
    match (← get).equality? id with
    | none => pure ()
    | some b =>
      if b.value.same v then return
      -- Set down before the write, so that what the write sets off finds the value carried over and stops.
      modify (·.updateEquality id fun b => { b with value := v })
      assign host id target v

/-- The evaluation when a side is bound, with the write unless that is switched off. Gives whether the
binding has done its work. -/
def start (host : Host) (id : BindingId) (flags : Flags) (source : Getter) (target : Setter) : Effect Bool := do
  let v ← source.run host
  modify (·.updateEquality id fun b => { b with value := v })
  if !flags.hasInitialTrigger then return false
  assign host id target v
  return flags.isOneTime

def observe (host : Host) (config : Configuration) (id : BindingId) (side : Expr) (source : Getter)
    (target : Setter) : Compile (List Trigger) := do
  let ts ← side.triggers host config
  Trigger.subscribeAll host (.follow id source target) ts

def disabled (side expression : String) : String :=
  "Value setting to the " ++ side ++ " side of expression [" ++ expression ++
    "] is DISABLED: no assignable target member found"

def untriggered (expression : String) : String :=
  "Could not find any triggering members for binding from expression [" ++ expression ++ "]"

def text (types : TypeTable) (left right : Expr) : String := left.render types ++ " == " ++ right.render types

/-- Binds the left side to the right one. Gives whether the binding has done its work, and whether the left
side can be written. -/
def bindLeft (host : Host) (config : Configuration) (id : BindingId) (flags : Flags) (left right : Expr) :
    Compile (Bool × Bool) := do
  match (← left.setter? host (some config.setters)) with
  | none =>
    warn (disabled "LEFT" (text host.types left right))
    return (false, false)
  | some target =>
    let source ← right.getterOrFallback host
    -- A one-time binding that has written is done and never subscribes.
    if (← start host id flags source target) then return (true, true)
    let ts ← observe host config id right source target
    modify fun s => { s with world := s.world.updateEquality id fun b => { b with right := ts } }
    return (false, true)

/-- Binds the right side to the left one. The right side gets an initial value only if the left side got
none. Gives whether the binding has done its work. -/
def bindRight (host : Host) (config : Configuration) (id : BindingId) (flags : Flags) (left right : Expr)
    (leftBound : Bool) : Compile Bool := do
  match (← right.setter? host (some config.setters)) with
  | none =>
    warn (disabled "RIGHT" (text host.types left right))
    return false
  | some target =>
    let source ← left.getterOrFallback host
    -- With the left side bound, starting the right one too would only send its own value back.
    if !leftBound then
      if (← start host id flags source target) then return true
    let ts ← observe host config id left source target
    modify fun s => { s with world := s.world.updateEquality id fun b => { b with left := ts } }
    return false

def bindSides (host : Host) (config : Configuration) (id : BindingId) (flags : Flags) (left right : Expr) :
    Compile Unit := do
  let (finished, leftBound) ← bindLeft host config id flags left right
  if finished then return
  if flags.isTwoWay then
    if (← bindRight host config id flags left right leftBound) then return
  match (← get).world.equality? id with
  | some b => if b.left.isEmpty && b.right.isEmpty then warn (untriggered (text host.types left right))
  | none => pure ()

/-- Whether two sides can never change: both constant, or one constant and the other a call. -/
def isConstantPair (left right : Expr) : Bool :=
  (left.isConstant && (right.isConstant || right.isCall)) || (right.isConstant && (left.isConstant || left.isCall))

/-- Builds a binding that keeps the left side equal to the right side, and in two-way binding also the right
side equal to the left. -/
def create (host : Host) (config : Configuration) (flags : Flags) (left right : Expr) : Effect BindingId := do
  if isConstantPair left right then fail (.constantBinding (text host.types left right))
  let id := BindingId.mk (← fresh)
  modify (·.setBinding id (.equality { dispatcher := config.assignments, flags }))
  building host id (bindSides host config id flags left right)

end EqualityBinding

namespace ActionBinding

def rerun (host : Host) (id : BindingId) (call : Getter) : Effect Unit := do
  match (← get).action? id with
  | none => pure ()
  | some b =>
    if b.disposed then return
    dispatch host b.dispatcher (.call call)
    if b.flags.isOneTime then host.dispose id

/-- Calls the method for the first time unless that is switched off, and subscribes to its inputs. -/
def bindCall (host : Host) (config : Configuration) (id : BindingId) (flags : Flags) (e : Expr) :
    Compile Unit := do
  let g ← e.getterOrFallback host
  if flags.hasInitialTrigger then
    dispatch host config.actions (.call g)
    if flags.isOneTime then
      -- Nothing is subscribed yet, so there is nothing to release.
      modify fun s => { s with world := s.world.updateAction id fun b => { b with disposed := true } }
      return
  let ts ← e.triggers host config
  if ts.isEmpty then warn (EqualityBinding.untriggered (e.render host.types))
  let ts ← Trigger.subscribeAll host (.rerun id g) ts
  modify fun s => { s with world := s.world.updateAction id fun b => { b with triggers := ts } }

def create (host : Host) (config : Configuration) (flags : Flags) (e : Expr) : Effect BindingId := do
  let id := BindingId.mk (← fresh)
  modify (·.setBinding id (.action { dispatcher := config.actions, flags }))
  building host id (bindCall host config id flags e)

end ActionBinding

namespace EventBinding

/-- Attaches an action to an event, through its registered source or else to the exposed event itself. -/
def attach (host : Host) (source : Option ChangeSource) (target : Value) (type : TypeId) (event : String)
    (a : Action) : Effect Handler := do
  match source with
  | some s =>
    let h ← s.createHandler a
    s.attach host (.value target) h
    return h
  | none =>
    match (← get).exposedEvent? target event with
    | none => fail (.unregisteredEvent event (host.types.name type))
    | some k =>
      let h ← addUniversal k a
      warn ("Used a universal handler for [" ++ host.types.name type ++ "." ++ event ++
        "]; configure an event trigger for it")
      return h

def create (host : Host) (config : Configuration) (flags : Flags) (target : Value) (event : String) (a : Action) :
    Effect BindingId := do
  match target.type? with
  | none => fail (.nullArgument "target")
  | some type =>
    if event.isEmpty then fail (.nullArgument "event_name")
    let source := config.eventSources.find? host.types event type
    let id := BindingId.mk (← fresh)
    -- A one-time action names the binding that it disposes, so the identity comes before the attachment.
    let h ← attach host source target type event (if flags.isOneTime then .once id a else a)
    modify (·.setBinding id (.event { event, source, target := some target, handler := some h }))
    debug ("Added [" ++ event ++ "] handler for " ++ host.types.name type)
    return id

end EventBinding

namespace Binding

/-- Builds the binding that fits the shape of an expression: an equality or a call. -/
def create (host : Host) (config : Configuration) (flags : Flags) (e : Expr) : Effect BindingId :=
  match e with
  | .binary .equal left right _ => EqualityBinding.create host config flags left right
  | .call .. => ActionBinding.create host config flags e
  | .typeCall .. => ActionBinding.create host config flags e
  | e => fail (.unsupportedExpression (e.render host.types) "only equality and method call expressions can be bound")

end Binding

end DataBinding
