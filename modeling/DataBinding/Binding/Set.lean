import DataBinding.Binding.Build

/-!
# Binding sets

Bindings in the order in which they were added, with the flags for those that come next. A set that cannot
be built from its entries leaves no binding of it alive.
-/

namespace DataBinding

open Effect

/-- One item of a list of bindings. -/
inductive Entry where
  /-- The flags for the entries that follow. -/
  | flags (f : Flags)
  | expression (e : Expr)
  | event (target : Value) (event : String) (a : Action)
  /-- A command that is tried with null whenever an event is raised. -/
  | command (target : Value) (event : String) (c : Command)
  | custom (name : String)

structure BindingSet where
  configuration : ConfigId
  flags : Flags
  bindings : List BindingId := []

namespace BindingSet

/-- An empty set; it starts with the default flags of its configuration. -/
def ofConfiguration (c : ConfigId) : Effect BindingSet := do
  return { configuration := c, flags := ((← get).configuration c).defaultFlags }

/-- Adds what `create` builds; an error gets the place that the binding would have had. -/
def tryBind (s : BindingSet) (expression : Option String) (create : Effect BindingId) :
    Effect (Except Error Unit × BindingSet) := do
  match (← attempt create) with
  | .ok id => return (.ok (), { s with bindings := s.bindings ++ [id] })
  -- The place is counted in bindings: entries that only set flags take none.
  | .error e => return (.error (e.atEntry s.bindings.length expression), s)

def tryAdd (host : Host) (s : BindingSet) (entry : Entry) : Effect (Except Error Unit × BindingSet) := do
  let config := (← get).configuration s.configuration
  match entry with
  | .flags f => return (.ok (), { s with flags := f })
  | .expression e => s.tryBind (some (e.render host.types)) (Binding.create host config s.flags e)
  | .event target event a => s.tryBind none (EventBinding.create host config s.flags target event a)
  | .command target event c => s.tryBind none (EventBinding.create host config s.flags target event (.command c))
  | .custom name =>
    let id := BindingId.mk (← fresh)
    modify (·.setBinding id (.custom name))
    return (.ok (), { s with bindings := s.bindings ++ [id] })

def add (host : Host) (s : BindingSet) (entry : Entry) : Effect BindingSet := do
  let (outcome, s) ← s.tryAdd host entry
  ofExcept outcome
  return s

def dispose (host : Host) (s : BindingSet) : Effect BindingSet := do
  s.bindings.forM host.dispose
  return { s with bindings := [] }

/-- Adds entries up to the first that fails; then the bindings that were added are disposed. -/
def addAll (host : Host) (s : BindingSet) : List Entry → Effect BindingSet
  | [] => pure s
  | entry :: rest => do
    let (outcome, s) ← s.tryAdd host entry
    match outcome with
    | .ok () => addAll host s rest
    | .error e =>
      -- Bindings that were in the set before these entries go as well.
      let _ ← s.dispose host
      fail e

def ofEntries (host : Host) (c : ConfigId) (entries : List Entry) : Effect BindingSet := do
  addAll host (← ofConfiguration c) entries

def disposed (w : World) (s : BindingSet) : List Bool :=
  s.bindings.map fun id => ((w.bindings.find? id).map Binding.isDisposed).getD true

end BindingSet

end DataBinding
