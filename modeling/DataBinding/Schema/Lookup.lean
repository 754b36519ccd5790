import DataBinding.Schema.Basic

/-!
# Lookup along base types

The lineage of a type is the type, its base, the base's base and so on. Assignability, member and method
lookup and overriding are all read off the lineage.
-/

namespace DataBinding.TypeTable

def builtinLineage (t : TypeId) : List TypeId :=
  if t = .object then [.object]
  else if t.index < builtin.length then [t, .object]
  else []

/-- The lineage in a list of declared types, the newest first. A base is looked for among older types. -/
def lineageIn : List TypeInfo → TypeId → List TypeId
  | [], t => builtinLineage t
  | info :: older, t =>
    if t.index = builtin.length + older.length then
      t :: match info.base with
        | some base => lineageIn older base
        | none => []
    else lineageIn older t

def lineage (types : TypeTable) (t : TypeId) : List TypeId := lineageIn types.declared t

/-- Whether every `source` is a `target`: the target is in the lineage of the source. -/
def isAssignable (types : TypeTable) (target source : TypeId) : Bool := target ∈ types.lineage source

/-- Whether the objects of a type tell about changes of their properties; bases pass this on. -/
def notifies (types : TypeTable) (t : TypeId) : Bool := (types.lineage t).any fun a => (types.info a).notifies

/-- The first member of this name that a type declares itself. -/
def declaredMember? (types : TypeTable) (name : String) (t : TypeId) : Option Member :=
  (types.declaredMembers t).find? (·.name == name)

/-- The nearest member of this name in the lineage. -/
def member? (types : TypeTable) (t : TypeId) (name : String) : Option Member :=
  (types.lineage t).findSome? (types.declaredMember? name)

/-- The first method of this name and number of parameters that a type declares itself. -/
def declaredMethod? (types : TypeTable) (name : String) (arity : Nat) (t : TypeId) : Option Method :=
  (types.declaredMethods t).find? fun m => m.name == name && m.arity == arity

/-- The nearest method of this name and number of parameters in the lineage. -/
def method? (types : TypeTable) (t : TypeId) (name : String) (arity : Nat) : Option Method :=
  (types.lineage t).findSome? (types.declaredMethod? name arity)

/-- What a call of `m` runs on a receiver of type `t`: the nearest method of its name and number of
parameters, if `m` is virtual and that one is not static. -/
def override (types : TypeTable) (t : TypeId) (m : Method) : Method :=
  if m.isVirtual then
    -- As with members, a static method that is nearest hides a fitting one behind it.
    ((types.method? t m.name m.arity).filter fun found => !found.isStatic).getD m
  else m

def qualifiedMember (types : TypeTable) (m : Member) : String := types.name m.id.owner ++ "." ++ m.name

def qualifiedMethod (types : TypeTable) (m : Method) : String := types.name m.id.owner ++ "." ++ m.name

theorem lineage_object (types : TypeTable) : types.lineage .object = [.object] := by
  unfold lineage
  induction types.declared with
  | nil => rfl
  | cons info older ih =>
    rw [lineageIn, if_neg (by simp [TypeId.object, builtin]; omega), ih]

end DataBinding.TypeTable
