import DataBinding.Binding.Basic

/-!
# The world

Everything that changes while bindings run: objects with their slots and events, bindings, queued jobs and
the log. Computations on it either give a value, fail with an error, or run out of fuel; only errors can be
caught.
-/

namespace DataBinding

/-- A configuration that bindings sets share. -/
structure ConfigId where
  index : Nat
deriving DecidableEq, Repr

structure ObjectState where
  slots : Table String Value := .empty
  /-- The names of the events that can be reached without a registration. -/
  exposed : List String := []
  /-- Whether changes of properties can be listened to. -/
  offersChanges : Bool := false

instance : Inhabited ObjectState := ⟨{}⟩

/-- What host code does with a handler of its own: it adds it to an event or removes it there. -/
structure Listening where
  key : EventKey
  handler : Handler
  added : Bool

structure World where
  objects : Table String ObjectState := .empty
  /-- The storage of static members. -/
  statics : Table DeclId Value := .empty
  boxes : Table BoxId Value := .empty
  handlers : Table EventKey (List Handler) := .empty
  direct : List (String × Handler) := []
  bindings : Table BindingId Binding := .empty
  configurations : Table ConfigId Configuration := .empty
  namedBindings : Table String BindingId := .empty
  namedHandlers : Table String Handler := .empty
  /-- Queued jobs, the oldest first. -/
  jobs : List Job := []
  /-- What setters of bindings were given, the newest first. It is kept for those who watch; nothing that
  runs looks at it. -/
  assignments : List Assignment := []
  /-- What host code did with handlers of its own, the newest first. It is kept for those who watch; nothing
  that runs looks at it. -/
  listenings : List Listening := []
  /-- How many raises are in progress. -/
  depth : Nat := 0
  /-- The next unused number for handlers, boxes, bindings, configurations and nodes. -/
  next : Nat := 0
  /-- What was told, the newest first. -/
  log : List String := []

/-- How a computation stops early. -/
inductive Stop where
  | failed (e : Error)
  | exhausted

/-- A computation on the world. -/
abbrev Effect := EStateM Stop World

namespace Effect

def fail {α : Type} (e : Error) : Effect α := throw (.failed e)

def ofExcept {α : Type} : Except Error α → Effect α
  | .ok a => pure a
  | .error e => fail e

/-- Runs a computation and hands its error over as a value. -/
def attempt {α : Type} (x : Effect α) : Effect (Except Error α) := fun w =>
  match x w with
  | .ok a w => .ok (.ok a) w
  | .error (.failed e) w => .ok (.error e) w
  | .error .exhausted w => .error .exhausted w

def tell (line : String) : Effect Unit := modify fun w => { w with log := line :: w.log }

def debug (message : String) : Effect Unit := tell ("DEBUG " ++ message)

def warn (message : String) : Effect Unit := tell ("WARN " ++ message)

def fresh : Effect Nat := modifyGet fun w => (w.next, { w with next := w.next + 1 })

def freshNode : Effect NodeId := NodeId.mk <$> fresh

end Effect

namespace World

/-- The state of an object; one that was never set up has no slots. -/
def object (w : World) (name : String) : ObjectState := (w.objects.find? name).getD {}

/-- The value in a slot, null if there is none. -/
def slot (w : World) (o slot : String) : Value := ((w.object o).slots.find? slot).getD .null

def setSlot (w : World) (o slot : String) (v : Value) : World :=
  let state := w.object o
  { w with objects := w.objects.insert o { state with slots := state.slots.insert slot v } }

/-- What a static member holds, if it was written. -/
def static? (w : World) (m : DeclId) : Option Value := w.statics.find? m

def setStatic (w : World) (m : DeclId) (v : Value) : World := { w with statics := w.statics.insert m v }

def box (w : World) (b : BoxId) : Value := (w.boxes.find? b).getD .null

def setBox (w : World) (b : BoxId) (v : Value) : World := { w with boxes := w.boxes.insert b v }

/-- The handlers of an event, in the order in which they were added. -/
def handlersOf (w : World) (k : EventKey) : List Handler := (w.handlers.find? k).getD []

def setHandlers (w : World) (k : EventKey) (hs : List Handler) : World :=
  { w with handlers := w.handlers.insert k hs }

def setBinding (w : World) (b : BindingId) (s : Binding) : World := { w with bindings := w.bindings.insert b s }

def equality? (w : World) (b : BindingId) : Option EqualityBinding :=
  match w.bindings.find? b with
  | some (.equality s) => some s
  | _ => none

def action? (w : World) (b : BindingId) : Option ActionBinding :=
  match w.bindings.find? b with
  | some (.action s) => some s
  | _ => none

def event? (w : World) (b : BindingId) : Option EventBinding :=
  match w.bindings.find? b with
  | some (.event s) => some s
  | _ => none

def configuration (w : World) (c : ConfigId) : Configuration := (w.configurations.find? c).getD {}

def setConfiguration (w : World) (c : ConfigId) (config : Configuration) : World :=
  { w with configurations := w.configurations.insert c config }

theorem slot_setSlot (w : World) (o o' name name' : String) (v : Value) :
    (w.setSlot o name v).slot o' name' = if o = o' ∧ name = name' then v else w.slot o' name' := by
  by_cases ho : o = o' <;> by_cases hn : name = name' <;> simp [slot, setSlot, object, ho, hn]

theorem box_setBox (w : World) (b b' : BoxId) (v : Value) :
    (w.setBox b v).box b' = if b = b' then v else w.box b' := by
  by_cases h : b = b' <;> simp [box, setBox, h]

theorem handlersOf_setHandlers (w : World) (k k' : EventKey) (hs : List Handler) :
    (w.setHandlers k hs).handlersOf k' = if k = k' then hs else w.handlersOf k' := by
  by_cases h : k = k' <;> simp [handlersOf, setHandlers, h]

theorem find?_setBinding (w : World) (b b' : BindingId) (s : Binding) :
    (w.setBinding b s).bindings.find? b' = if b = b' then some s else w.bindings.find? b' := by
  simp [setBinding]

theorem configuration_setConfiguration (w : World) (c c' : ConfigId) (config : Configuration) :
    (w.setConfiguration c config).configuration c' = if c = c' then config else w.configuration c' := by
  by_cases h : c = c' <;> simp [configuration, setConfiguration, h]

end World

def Effect.addConfiguration (config : Configuration) : Effect ConfigId := do
  let c := ConfigId.mk (← fresh)
  modify (·.setConfiguration c config)
  return c

end DataBinding
