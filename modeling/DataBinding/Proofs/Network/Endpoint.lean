import DataBinding.Engine
import DataBinding.Proofs.Binding.Follow
import DataBinding.Proofs.Host.Property
import DataBinding.Proofs.Trigger.Subscribe
import DataBinding.Proofs.Value.Same

/-!
# Endpoints

Properties of constant objects that keep an equal value and tell about every other one, as the sides of two-way
bindings. Reading, writing, compiling and subscribing such a side always succeeds, and each comes with an equation.
-/

namespace DataBinding

open Effect Compile

/-! ## Values of a type -/

/-- A member of this type stores the value as it is. -/
def Value.Fits (types : TypeTable) (t : TypeId) (v : Value) : Prop := v.stored types t = .ok v

theorem Value.Fits.isScalar {types : TypeTable} {t : TypeId} {v : Value} (h : v.Fits types t)
    (ht : t ∈ [TypeId.bool, .int, .float, .string]) : v.IsScalar := by
  rintro u fs rfl
  unfold Value.Fits at h
  simp only [List.mem_cons, List.not_mem_nil, or_false] at ht
  rcases ht with rfl | rfl | rfl | rfl <;> cases h

theorem Value.same_of_settles {v old : Value} (h : v.settles old = true) : old.same v = true := by
  unfold Value.settles at h
  split at h
  · exact Bool.or_eq_true_iff.mpr (.inl h)
  · exact h

/-! ## Properties as sides -/

/-- An access to a property of a constant object, and the slot that the property is stored in. -/
structure Endpoint where
  node : NodeId
  object : ObjectRef
  shown : TypeId
  label : Option String
  member : Member
  slot : String

namespace Endpoint

def expr (e : Endpoint) : Expr := .member e.node (.constant (.object e.object) e.shown e.label) e.member

def value (e : Endpoint) (w : World) : Value := w.slot e.object.name e.slot

def store (e : Endpoint) (w : World) (v : Value) : World := w.setSlot e.object.name e.slot v

def visible (types : TypeTable) (e : Endpoint) : Member := e.member.visibleFrom types (.object e.object)

/-- The property can be read and written, under its name and through the access, and tells about its changes. -/
structure Loud (types : TypeTable) (config : Configuration) (t : TypeId) (e : Endpoint) : Prop
    extends Property types config e.object e.member e.slot where
  readable : e.member.reader.isSome
  writable : e.member.writer.isSome
  found : types.member? e.object.type e.member.name = some (e.visible types)
  writes : (e.visible types).writer = some (.slot e.slot none true)
  typed : (e.visible types).type = t
  own : config.setters.find? e.member.id = none

def accessor (types : TypeTable) (e : Endpoint) : Accessor := .on types e.member e.object.type

def source (types : TypeTable) (e : Endpoint) : Getter := .read (.shared (.object e.object)) (e.accessor types)

def target (types : TypeTable) (e : Endpoint) : Setter := .write (.shared (.object e.object)) (e.accessor types)

/-- The trigger of the access, which listens to the property. -/
def trigger (types : TypeTable) (e : Endpoint) : Trigger where
  target := .value (.object e.object)
  source := .property e.member.name
  label := types.qualifiedMember e.member
  handler := none

/-- What writing the property comes to: an equal value is kept, every other one is stored and told about. -/
def put (host : Host) (e : Endpoint) (v : Value) : Effect Unit := fun w =>
  if v.settles (e.value w) then .ok () w else host.notify e.object e.member.name (e.store w v)

variable {host : Host} {config : Configuration} {t : TypeId} {e : Endpoint}

section
variable (h : e.Loud host.types config t)
include h

theorem Loud.accessor_member : (e.accessor host.types).member = e.visible host.types :=
  resolve_eq_visibleFrom h.declared rfl h.isInstance h.visible_isStatic

theorem Loud.visible_name : (e.visible host.types).name = e.member.name := by
  obtain ⟨-, a, -, -, ha, -⟩ := TypeTable.member?_eq_some h.found
  exact (TypeTable.mem_of_declaredMember? ha).2

theorem Loud.canRead : (e.accessor host.types).canRead = true := by
  have hread : (e.visible host.types).reader = some (.slot e.slot) := h.stored
  unfold Accessor.canRead
  rw [h.accessor_member, hread]
  rfl

theorem Loud.canWrite : (e.accessor host.types).canWrite = true := by
  unfold Accessor.canWrite
  rw [h.accessor_member, h.writes]
  rfl

theorem Loud.source_run (w : World) : (e.source host.types).run host w = .ok (e.value w) w := by
  have hget : (e.accessor host.types).get host (.object e.object) = (e.visible host.types).read host (.object e.object) :=
    get_instance h.accessor_member h.visible_isStatic
  exact (congrFun hget w).trans (h.read_eq host w)

theorem Loud.eval_eq (w : World) : e.expr.eval host w = .ok (e.value w) w := h.read_eq host w

theorem Loud.store_eq (v : Value) : (e.visible host.types).store host e.object e.slot true v = e.put host v := by
  funext w
  unfold Member.store put
  rw [bind_get, h.visible_name]
  unfold value
  cases v.settles (w.slot e.object.name e.slot) with
  | true => rfl
  | false => rfl

theorem Loud.write_eq {v x : Value} (hv : v.stored host.types t = .ok x) :
    (e.visible host.types).write host (.object e.object) v = e.put host x >>= fun _ => pure (.object e.object) := by
  have hstored : v.stored host.types (e.visible host.types).type = .ok x := h.typed.symm ▸ hv
  unfold Member.write
  rw [h.writes, ← h.store_eq]
  simp only [Host.downcast_object h.model, hstored]
  rfl

/-- Nobody looks at the receiver that a write gives back. -/
theorem Loud.write_run {v x : Value} (hv : v.stored host.types t = .ok x) :
    ((e.visible host.types).write host (.object e.object) v >>= fun _ => pure ()) = e.put host x := by
  rw [h.write_eq hv, bind_assoc]
  simp only [pure_bind]
  exact bind_pure_unit

theorem Loud.target_eq (v : Value) : (e.target host.types).run host v =
    ((e.visible host.types).write host (.object e.object) v >>= fun _ => pure ()) := by
  have hset : (e.accessor host.types).set host (.object e.object) v =
      (e.visible host.types).write host (.object e.object) v := by
    have hinst : (e.visible host.types).isStatic = false := h.visible_isStatic
    unfold Accessor.set
    rw [h.canWrite, h.accessor_member, hinst]
    rfl
  rw [← hset]
  rfl

theorem Loud.target_run {v x : Value} (hv : v.stored host.types t = .ok x) :
    (e.target host.types).run host v = e.put host x := (h.target_eq v).trans (h.write_run hv)

theorem Loud.named_eq (v : Value) : host.writeNamed e.object e.member.name v =
    ((e.visible host.types).write host (.object e.object) v >>= fun _ => pure ()) := by
  have hfound : host.types.requireMember e.object.type e.member.name = .ok (e.visible host.types) :=
    TypeTable.requireMember_eq_ok.mpr h.found
  unfold Host.writeNamed
  rw [hfound]
  rfl

theorem Loud.writeNamed_eq {v x : Value} (hv : v.stored host.types t = .ok x) :
    host.writeNamed e.object e.member.name v = e.put host x := (h.named_eq v).trans (h.write_run hv)

end

/-! ## Compiling an endpoint -/

/-- No other receiver has been resolved for the access. -/
def Meets (e : Endpoint) (s : Workbench) : Prop :=
  ∀ r, s.receivers.find? e.node = some r → r = .shared (.object e.object)

/-- The workbench when the receiver of the access has been resolved. -/
def meet (e : Endpoint) (s : Workbench) : Workbench :=
  if (s.receivers.find? e.node).isSome then s
  else { s with receivers := s.receivers.insert e.node (.shared (.object e.object)) }

theorem meet_world (e : Endpoint) (s : Workbench) : (e.meet s).world = s.world := by
  unfold meet
  split
  · rfl
  · rfl

theorem meets_meet {e' : Endpoint} (h : e'.node = e.node → e'.object = e.object) {s : Workbench} (hs : e'.Meets s) :
    e'.Meets (e.meet s) := by
  intro r hr
  unfold meet at hr
  split at hr
  · exact hs r hr
  · rw [Table.find?_insert] at hr
    split at hr
    · rename_i hn
      cases hr
      rw [h hn.symm]
    · exact hs r hr

theorem receiver_eq {s : Workbench} (hs : e.Meets s) :
    Expr.memberReceiver host e.node (.constant (.object e.object) e.shown e.label) e.member s =
      .ok (.shared (.object e.object)) (e.meet s) := by
  unfold Expr.memberReceiver Expr.receiverOn kept meet
  rw [bind_of_ok (show (get : Compile Workbench) s = .ok s s from rfl)]
  cases hr : s.receivers.find? e.node with
  | none => rfl
  | some r =>
    cases hs r hr
    rfl

section
variable (h : e.Loud host.types config t)
include h

theorem Loud.setter?_eq {s : Workbench} (hs : e.Meets s) :
    e.expr.setter? host (some config.setters) s = .ok (some (e.target host.types)) (e.meet s) := by
  have hw : e.member.writer.isNone = false := Option.isNone_eq_false_iff.mpr h.writable
  unfold expr Expr.setter? Expr.memberSetter
  simp only [Option.bind_some, h.own, hw, Bool.false_eq_true, if_false]
  rw [bind_of_ok (receiver_eq hs)]
  show EStateM.Result.ok (if (e.accessor host.types).canWrite = true then _ else _) _ = _
  rw [h.canWrite]
  rfl

theorem Loud.getterOrFallback_eq {s : Workbench} (hs : e.Meets s) :
    e.expr.getterOrFallback host s = .ok (e.source host.types) (e.meet s) := by
  have hr : e.member.reader.isNone = false := Option.isNone_eq_false_iff.mpr h.readable
  have hget : e.expr.getter? host s = .ok (some (e.source host.types)) (e.meet s) := by
    unfold expr Expr.getter? Expr.memberGetter
    simp only [hr, Bool.false_eq_true, if_false]
    rw [bind_of_ok (receiver_eq hs)]
    show EStateM.Result.ok (if (e.accessor host.types).canRead = true then _ else _) _ = _
    rw [h.canRead]
    rfl
  unfold Expr.getterOrFallback
  rw [bind_of_ok hget]
  rfl

theorem Loud.triggers_eq {s : Workbench} (hs : e.Meets s) :
    e.expr.triggers host config s = .ok [e.trigger host.types] (e.meet s) := by
  have hown : Expr.instanceTrigger host config e.member
      (Expr.memberReceiver host e.node (.constant (.object e.object) e.shown e.label) e.member) s =
      .ok [e.trigger host.types] (e.meet s) := by
    unfold Expr.instanceTrigger
    rw [bind_of_ok (receiver_eq hs)]
    refine (bind_of_ok rfl).trans ?_
    simp only [Receiver.target, Value.type?, h.source_eq]
    rfl
  unfold expr Expr.triggers
  simp only [h.isInstance, Bool.false_eq_true, if_false]
  rw [bind_of_ok hown]
  rfl

end

/-! ## Subscribing to an endpoint -/

def handler (e : Endpoint) (w : World) (a : Action) : Handler := ⟨w.next, .property, .onProperty e.member.name a⟩

theorem Loud.attach_eq (h : e.Loud host.types config t) {w : World} (ho : (w.object e.object.name).offersChanges = true)
    (n : String) {g : Handler} (hg : g.payload = .property) :
    (ChangeSource.property n).attach host (.value (.object e.object)) g w =
      .ok () (w.setHandlers (.changed e.object.name) (w.handlersOf (.changed e.object.name) ++ [g])) := by
  have hnotifier : Target.notifier host.types w (.value (.object e.object)) = .ok e.object := by
    unfold Target.notifier
    simp [h.model, ho]
  have hevent : (ChangeSource.property n).event? host (.value (.object e.object)) w =
      .ok (some (.changed e.object.name)) w := by
    unfold ChangeSource.event?
    simp only
    rw [bind_get, hnotifier]
    rfl
  have hrequire : g.require (.changed e.object.name) = .ok () := if_pos hg
  have hkey : (ChangeSource.property n).key? host (.value (.object e.object)) g w =
      .ok (some (.changed e.object.name)) w := by
    unfold ChangeSource.key?
    rw [bind_of_ok hevent]
    simp only [hrequire]
    rfl
  unfold ChangeSource.attach
  rw [bind_of_ok hkey]
  rfl

def listening (types : TypeTable) (e : Endpoint) (w : World) (a : Action) : Trigger :=
  { e.trigger types with handler := some (e.handler w a) }

/-- A handler for the endpoint has been added, and the log has grown. -/
structure Subscribed (e : Endpoint) (a : Action) (w w' : World) : Prop where
  objects : w'.objects = w.objects
  bindings : w'.bindings = w.bindings
  assignments : w'.assignments = w.assignments
  jobs : w'.jobs = w.jobs
  next : w'.next = w.next + 1
  handlersOf : ∀ k g, g ∈ w'.handlersOf k ↔ g ∈ w.handlersOf k ∨ k = .changed e.object.name ∧ g = e.handler w a

theorem Loud.subscribeAll_eq (h : e.Loud host.types config t) {w : World}
    (ho : (w.object e.object.name).offersChanges = true) (a : Action) :
    ∃ w', Trigger.subscribeAll host a [e.trigger host.types] w =
      .ok [e.listening host.types w a] w' ∧ e.Subscribed a w w' := by
  obtain ⟨w₁, hw₁⟩ : ∃ w₁, { w with next := w.next + 1 }.setHandlers (.changed e.object.name)
      (w.handlersOf (.changed e.object.name) ++ [e.handler w a]) = w₁ := ⟨_, rfl⟩
  have hattach : (ChangeSource.property e.member.name).attach host (.value (.object e.object)) (e.handler w a)
      { w with next := w.next + 1 } = .ok () w₁ := by
    subst hw₁
    exact h.attach_eq (w := { w with next := w.next + 1 }) ho e.member.name (g := e.handler w a) rfl
  obtain ⟨log, hnew⟩ : ∃ log, (e.trigger host.types).attachNew host a w = .ok (e.handler w a) { w₁ with log := log } :=
    ⟨_, (bind_of_ok rfl).trans ((bind_of_ok hattach).trans rfl)⟩
  have hsubscribe : (e.trigger host.types).subscribe host a w =
      .ok (.ok (), e.listening host.types w a) { w₁ with log := log } :=
    (Trigger.subscribe_eq_ok rfl).mpr ⟨_, hnew, rfl⟩
  refine ⟨{ w₁ with log := log }, ?_, ?_⟩
  · exact Trigger.subscribeAll_cons_eq_ok.mpr ⟨_, _, [], hsubscribe, rfl, rfl⟩
  · subst hw₁
    refine ⟨rfl, rfl, rfl, rfl, rfl, fun k g => ?_⟩
    exact World.mem_handlersOf_add (w := { w with next := w.next + 1 })

end Endpoint

end DataBinding
