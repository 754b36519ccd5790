import DataBinding.Script

/-!
# Schemas

The types that hosts describe, with their members and methods. A type table lists the declared types, the
newest first, on top of the five builtin ones; a type names its base among the older ones.
-/

namespace DataBinding

inductive MemberKind where
  | field
  | property
deriving DecidableEq, Repr

inductive TypeKind where
  /-- Copied on assignment. -/
  | value
  /-- Shared by reference. -/
  | reference
deriving DecidableEq, Repr

/-- How a member is read. -/
inductive Reader where
  | slot (name : String)
  | recordField (name : String)
  | computed (body : Body)
  /-- From the storage of a static member, which holds the initial value until it is written. -/
  | stored (initial : Value)
  | fixed (v : Value)
  | textLength

inductive Writer where
  /-- Into a slot of a model object, after conversion to the member's type. A loud writer keeps an equal
  value and tells about every other one. -/
  | slot (name : String) (refusal : Option String) (loud : Bool)
  /-- Into the storage of a static member, after conversion to its type. -/
  | stored (refusal : Option String)
  /-- Into a field of a record, in place. -/
  | recordField (name : String)

structure MemberSpec where
  name : String
  kind : MemberKind
  type : TypeId
  isStatic : Bool
  reader : Option Reader
  writer : Option Writer

structure Parameter where
  name : String
  type : TypeId
  byRef : Bool

inductive Convention where
  | static
  | object
  /-- Any value; records are changed in place. -/
  | record
deriving DecidableEq, Repr

structure MethodSpec where
  name : String
  params : List Parameter
  /-- The type of the result; `none` for a method without one. -/
  returns : Option TypeId
  isVirtual : Bool
  convention : Convention
  body : Body

structure TypeInfo where
  name : String
  kind : TypeKind := .reference
  base : Option TypeId := some .object
  notifies : Bool := false
  members : List MemberSpec := []
  methods : List MethodSpec := []

/-- The declared types, the newest first. -/
structure TypeTable where
  declared : List TypeInfo := []

/-- A declaration named by its type and its place there. -/
structure DeclId where
  owner : TypeId
  position : Nat
deriving DecidableEq, Repr

/-- A member together with where it is declared. -/
structure Member extends MemberSpec where
  id : DeclId

/-- A method together with where it is declared. -/
structure Method extends MethodSpec where
  id : DeclId

namespace Method

def isStatic (m : Method) : Bool := m.convention = .static

def arity (m : Method) : Nat := m.params.length

/-- The parameters, and the receiver unless the method is static. -/
def totalArity (m : Method) : Nat := m.arity + if m.isStatic then 0 else 1

def hasByRefParams (m : Method) : Bool := m.params.any Parameter.byRef

end Method

namespace TypeTable

/-- The builtin types, in the order of their places. -/
def builtin : List TypeInfo := [
  { name := "Object", base := none },
  { name := "Bool", kind := .value },
  { name := "Int", kind := .value },
  { name := "Float", kind := .value },
  { name := "String", members := [⟨"Length", .property, .int, false, some .textLength, none⟩] }]

/-- The place that the next declared type gets. -/
def next (types : TypeTable) : TypeId := ⟨builtin.length + types.declared.length⟩

def declare (types : TypeTable) (info : TypeInfo) : TypeTable := ⟨info :: types.declared⟩

/-- What is known about a type; a type that is not in the table has no name and no members. -/
def info (types : TypeTable) (t : TypeId) : TypeInfo :=
  match builtin[t.index]? with
  | some i => i
  | none => (types.declared.reverse[t.index - builtin.length]?).getD { name := "", base := none }

def name (types : TypeTable) (t : TypeId) : String := (types.info t).name

def isValueType (types : TypeTable) (t : TypeId) : Bool := (types.info t).kind = .value

def declaredMembers (types : TypeTable) (t : TypeId) : List Member :=
  (types.info t).members.zipIdx.map fun (spec, i) => { spec with id := ⟨t, i⟩ }

def declaredMethods (types : TypeTable) (t : TypeId) : List Method :=
  (types.info t).methods.zipIdx.map fun (spec, i) => { spec with id := ⟨t, i⟩ }

end TypeTable

end DataBinding
