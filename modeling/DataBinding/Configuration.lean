import DataBinding.Trigger.Basic
import DataBinding.Settings

/-!
# Configurations

Default flags, dispatchers, and registrations: sources of change for members and for named events of types,
and setters in place of the members' own ones.
-/

namespace DataBinding

/-- How the jobs of bindings get run. -/
inductive Dispatcher where
  | inline
  /-- At once, and tells when it is done. -/
  | reported
  | discard
  /-- Later, from a queue. -/
  | defer
  | refuse
deriving DecidableEq, Repr

def Dispatcher.text : Dispatcher → String
  | inline => "inline"
  | reported => "twice_log"
  | discard => "discard"
  | defer => "defer"
  | refuse => "refuse"

def Dispatcher.ofText? (s : String) : Option Dispatcher :=
  [inline, reported, discard, defer, refuse].find? (·.text == s)

theorem Dispatcher.ofText?_text (d : Dispatcher) : ofText? d.text = some d := by cases d <;> decide

/-- The registrations for named events: for each name the types with a registration, in the order in which
they are tried. -/
structure EventRegistry where
  byName : Table String (List (TypeId × ChangeSource)) := .empty

structure Configuration where
  defaultFlags : Flags := .empty
  actions : Option Dispatcher := none
  assignments : Option Dispatcher := none
  memberSources : Table DeclId ChangeSource := .empty
  eventSources : EventRegistry := {}
  setters : Table DeclId CustomSetter := .empty

instance : Inhabited Configuration := ⟨{}⟩

namespace EventRegistry

/-- Puts a registration in front of the first one for a base type; one for the type itself is replaced. -/
def register (types : TypeTable) (t : TypeId) (s : ChangeSource) (entries : List (TypeId × ChangeSource)) :
    List (TypeId × ChangeSource) :=
  if entries.any (·.1 = t) then entries.map fun entry => if entry.1 = t then (t, s) else entry
  else
    let specific := entries.takeWhile fun entry => !types.isAssignable entry.1 t
    specific ++ (t, s) :: entries.drop specific.length

def entries (r : EventRegistry) (event : String) : List (TypeId × ChangeSource) :=
  (r.byName.find? event).getD []

def add (types : TypeTable) (r : EventRegistry) (t : TypeId) (event : String) (s : ChangeSource) : EventRegistry :=
  ⟨r.byName.insert event (register types t s (r.entries event))⟩

/-- The first registration that fits the type. -/
def find? (types : TypeTable) (r : EventRegistry) (event : String) (t : TypeId) : Option ChangeSource :=
  ((r.entries event).find? fun entry => types.isAssignable entry.1 t).map Prod.snd

def registered (r : EventRegistry) (event : String) : List TypeId := (r.entries event).map Prod.fst

end EventRegistry

namespace Configuration

def ofSettings (s : Settings) : Configuration := { defaultFlags := s.defaultFlags }

def settings (c : Configuration) : Settings := ⟨c.defaultFlags⟩

/-- The source of change of a member: the registered one, or else property notifications if the member is an
instance property and its declaring type or the type of the receiver notifies. -/
def memberSource? (types : TypeTable) (c : Configuration) (m : Member) (receiver : Option TypeId) :
    Option ChangeSource :=
  match c.memberSources.find? m.id with
  | some s => some s
  | none =>
    if m.isStatic || m.kind ≠ .property then none
    else if (receiver.map types.notifies).getD false || types.notifies m.id.owner then some (.property m.name)
    else none

end Configuration

end DataBinding
