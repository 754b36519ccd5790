import DataBinding.Schema.Lookup
import DataBinding.Table

/-!
# Accessors

Read and write access to one member of one concrete receiver type. A member that is reached through a base
type is looked for again by name on the concrete type.
-/

namespace DataBinding

/-- A member as it is accessed on one type of receiver. -/
structure Accessor where
  member : Member
  /-- Whether the receiver is of a value type, which is written in place. -/
  valueReceiver : Bool

def Writer.inPlace : Writer → Bool
  | recordField _ => true
  | _ => false

namespace Accessor

def canRead (a : Accessor) : Bool := a.member.reader.isSome

/-- In-place writers need a receiver of a value type. -/
def canWrite (a : Accessor) : Bool :=
  match a.member.writer with
  | some w => !w.inPlace || a.valueReceiver
  | none => false

/-- The member that `m` stands for on receivers of type `t`: the nearest one of its name, if that has the
kind of `m` and is no static member. -/
def resolve (types : TypeTable) (m : Member) (t : TypeId) : Member :=
  if m.id.owner = t || m.isStatic then m
  -- The filter acts on the nearest declaration alone: a wrong one hides those behind it.
  else ((types.member? t m.name).filter fun found => found.kind = m.kind && !found.isStatic).getD m

def on (types : TypeTable) (m : Member) (t : TypeId) : Accessor :=
  ⟨resolve types m t, types.isValueType t⟩

end Accessor

structure AccessorCache where
  entries : Table (DeclId × TypeId) Accessor := .empty

namespace AccessorCache

def find (types : TypeTable) (cache : AccessorCache) (m : Member) (t : TypeId) : Accessor × AccessorCache :=
  match cache.entries.find? (m.id, t) with
  | some a => (a, cache)
  | none =>
    let a := Accessor.on types m t
    (a, ⟨cache.entries.insert (m.id, t) a⟩)

def size (cache : AccessorCache) : Nat := cache.entries.size

end AccessorCache

end DataBinding
