import DataBinding.Configuration
import DataBinding.Proofs.Compiled.Getter

/-!
# Properties

Members that are stored in a slot of a model object and tell about their changes, as they are read off the object.
-/

namespace DataBinding

open Effect

theorem Host.downcast_object {host : Host} {k : ObjectKind} {o : ObjectRef} (h : o.kind = k) :
    host.downcast k (.object o) = .ok o := by
  simp [downcast, h]

/-- Read off this object, the member is a property stored in a slot, whose changes the object tells about. No
static member takes its place, and no other source of change is registered for it. -/
structure Property (types : TypeTable) (config : Configuration) (o : ObjectRef) (m : Member) (slot : String) :
    Prop where
  model : o.kind = .model
  declared : types.declaredMember? m.name m.id.owner = some m
  kind : m.kind = .property
  isInstance : m.isStatic = false
  unshadowed : ∀ found, types.member? o.type m.name = some found → found.isStatic = false
  stored : (m.visibleFrom types (.object o)).reader = some (.slot slot)
  notifies : types.notifies o.type = true ∨ types.notifies m.id.owner = true
  unregistered : config.memberSources.find? m.id = none

namespace Property

variable {types : TypeTable} {config : Configuration} {o : ObjectRef} {m : Member} {s : String}
variable (h : Property types config o m s)
include h

theorem visible_isStatic : (m.visibleFrom types (.object o)).isStatic = false := by
  rw [visibleFrom_instance h.isInstance rfl]
  cases hf : (types.member? o.type m.name).filter fun found => found.kind = m.kind with
  | none => exact h.isInstance
  | some found => exact h.unshadowed found (Option.filter_eq_some_iff.mp hf).1

theorem read_eq (host : Host) (w : World) :
    (m.visibleFrom types (.object o)).read host (.object o) w = .ok (w.slot o.name s) w := by
  unfold Member.read
  rw [h.stored]
  simp only [Host.downcast_object h.model]
  rfl

theorem source_eq : config.memberSource? types m (some o.type) = some (.property m.name) := by
  unfold Configuration.memberSource?
  rw [h.unregistered]
  have hn : (types.notifies o.type || types.notifies m.id.owner) = true := by
    rw [Bool.or_eq_true]
    exact h.notifies
  simp [h.isInstance, h.kind, hn]

end Property

end DataBinding
