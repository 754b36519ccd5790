import Mathlib.Logic.Relation
import DataBinding.Proofs.Compiled.Separate

/-!
# Getters and setters of one node

What the getters and setters of one field of a record have in common is the box that the node of the access has. A
session builds them in any order and calls the setters; in between the interpreter serves other requests and host code
runs, neither of which writes into the box. Then each getter gives what its conversions make of the value that the last
successful call has stored (`writes_shared`), and that call has stored what the conversions of its setter give.
-/

namespace DataBinding

open Effect Compile

namespace Expr

variable (host : Host)

/-- What a compiled conversion makes of a value. -/
def convertedTo (t : TypeId) (conversion : Option Method) (v : Value) : Effect Value :=
  if !host.types.isValueType t then ofExcept (v.cast host.types t)
  else match conversion with
    | none => ofExcept (v.change host.types t)
    | some m => do
      let d ← ofExcept (Delegate.on host.types m m.id.owner)
      return (← d.invoke host [v]).1.getD .null

/-- What the conversions around an access make of the value of the access, from the inside out. -/
def converted : Expr → Value → Effect Value
  | unary .convert operand t conversion, v => do
    let u ← operand.converted v
    convertedTo host t conversion u
  | _, v => pure v

/-- What the conversions around an access hand on of a value, from the outside in: it takes the type of each operand. -/
def passed (types : TypeTable) : Expr → Value → Except Error Value
  | unary .convert operand _ _, v =>
    match operand.type? with
    | some t => do
      let u ← v.change types t
      operand.passed types u
    | none => .ok v
  | _, v => .ok v

end Expr

/-- A field of records, which is read and written under this name. -/
structure Member.IsField (m : Member) (name : String) : Prop where
  reader : m.reader = some (.recordField name)
  writer : m.writer = some (.recordField name)
  ofInstance : m.isStatic = false

/-- Records of the type have the field from where it is declared: no type in between declares its name again. -/
def TypeTable.Shows (types : TypeTable) (t : TypeId) (m : Member) : Prop :=
  m.id.owner = t ∨ ∀ found, types.member? t m.name = some found → found = m

theorem TypeTable.Shows.resolve {types : TypeTable} {t : TypeId} {m : Member} (h : types.Shows t m) :
    Accessor.resolve types m t = m := by
  unfold Accessor.resolve
  rcases h with h | h
  · rw [if_pos (by simp [h])]
  · split
    · rfl
    · cases hf : types.member? t m.name with
      | none => rfl
      | some found =>
        rw [h found hf, Option.filter_some]
        split <;> rfl

namespace Expr

variable {host : Host} {node : NodeId} {target : Expr} {m : Member}

theorem conversionGetter_run {t : TypeId} {c : Option Method} {g g' : Getter}
    (h : conversionGetter host t c g = .ok (some g')) : g'.run host = (g.run host >>= convertedTo host t c) := by
  unfold convertedTo
  obtain ⟨ht, rfl⟩ | ⟨ht, ⟨rfl, rfl⟩ | ⟨m, d, rfl, -, hd, rfl⟩⟩ := conversionGetter_eq_some h
  · simp only [if_pos ht]
    rfl
  · simp only [if_neg ht]
    rfl
  · simp only [if_neg ht, hd]
    rfl

/-- A getter over conversions of an access reads through the receiver of the access and converts what it reads. -/
theorem getter?_run (e : Expr) {s s' : Workbench} {g : Getter} (he : e.assigned? = some (member node target m))
    (h : e.getter? host s = .ok (some g) s') :
    ∃ r t, memberReceiver host node target m s = .ok r s' ∧ r.type? s'.world = some t ∧
      g.run host = (r.read host (.on host.types m t) >>= e.converted host) := by
  cases e with
  | member node' target' m' =>
    cases he
    obtain ⟨r, t, hr, ht, rfl⟩ := memberGetter_eq_some h
    exact ⟨r, t, hr, ht, (bind_pure _).symm⟩
  | unary op operand t c =>
    cases op with
    | convert =>
      obtain ⟨g', hg, hcv⟩ := getter?_convert_eq_some h
      obtain ⟨r, u, hr, hu, hrun⟩ := getter?_run operand he hg
      refine ⟨r, u, hr, hu, ?_⟩
      rw [conversionGetter_run hcv, hrun, bind_assoc]
      rfl
    | _ => cases he
  | typeMember node' m' => cases he
  | _ => cases he
termination_by structural e

/-- A setter over conversions of an access hands the value on through them and writes through the receiver. -/
theorem setter?_run {custom : Option (Table DeclId CustomSetter)} (hcustom : custom.bind (·.find? m.id) = none) (e : Expr)
    {s s' : Workbench} {k : Setter} (he : e.assigned? = some (member node target m))
    (h : e.setter? host custom s = .ok (some k) s') :
    ∃ r t, memberReceiver host node target m s = .ok r s' ∧ r.type? s'.world = some t ∧
      (Accessor.on host.types m t).canWrite = true ∧
      ∀ v, k.run host v = (ofExcept (e.passed host.types v) >>= r.write host (.on host.types m t)) := by
  cases e with
  | member node' target' m' =>
    cases he
    obtain ⟨r, t, hr, ht, hcan, rfl⟩ := memberSetter_eq_some hcustom h
    exact ⟨r, t, hr, ht, hcan, fun v => rfl⟩
  | unary op operand u c =>
    cases op with
    | convert =>
      obtain ⟨t, k', ht, hk, rfl⟩ := setter?_convert_eq_some h
      obtain ⟨r, t', hr, ht', hcan, hrun⟩ := setter?_run hcustom operand he hk
      refine ⟨r, t', hr, ht', hcan, fun v => ?_⟩
      simp only [passed, ht, Setter.run]
      cases v.change host.types t with
      | error err => rfl
      | ok u => exact hrun u
    | _ => cases he
  | _ => cases he
termination_by structural e

end Expr

/-! ## Writing into a record -/

section

variable {host : Host} {t : TypeId} {fs : List (String × Value)} {v : Value} {w w' : World}

def World.SameBoxes (w w' : World) : Prop := w'.boxes = w.boxes

theorem sameBoxes_chains : Chains World.SameBoxes := ⟨fun _ => rfl, fun h h' => Eq.trans h' h⟩

/-- Writing a member of something else than an object leaves the boxes alone. -/
theorem Member.write_sameBoxes (m : Member) {r : Value} (hr : r.asObject? = none) (v : Value) :
    Lasts World.SameBoxes (m.write host r v) := by
  have hc := sameBoxes_chains
  unfold write
  split
  · exact always_throw hc trivial
  · have hdown : ∃ err, host.downcast .model r = .error err := by
      cases r with
      | object o => cases hr
      | _ => exact ⟨_, rfl⟩
    obtain ⟨err, hdown⟩ := hdown
    rw [hdown]
    constructor
    · intro w a w' h
      cases h
    · intro w e w' h
      cases h
      exact ⟨trivial, rfl⟩
  · rename_i refusal _
    have hrefuse : Lasts World.SameBoxes (refuse refusal) := by
      cases refusal with
      | none => exact always_pure hc _
      | some message => exact always_throw hc trivial
    exact always_bind hc hrefuse fun _ => always_bind hc (lasts_ok hc _) fun _ =>
      always_bind hc (always_modify fun _ => rfl) fun _ => always_pure hc _
  · split
    · exact always_pure hc _
    · exact always_throw hc trivial

theorem Member.write_record {m : Member} {after : Value} (h : m.write host (.record t fs) v w = .ok after w') :
    ∃ fs', after = .record t fs' := by
  unfold write at h
  cases hw : m.writer with
  | none =>
    rw [hw] at h
    cases h
  | some writer =>
    rw [hw] at h
    cases writer with
    | slot => cases h
    | stored =>
      obtain ⟨_, _, _, h⟩ := bind_eq_ok.mp h
      obtain ⟨_, _, _, h⟩ := bind_eq_ok.mp h
      obtain ⟨_, _, _, h⟩ := bind_eq_ok.mp h
      obtain ⟨rfl, -⟩ := pure_eq_ok.mp h
      exact ⟨fs, rfl⟩
    | recordField =>
      cases h
      exact ⟨_, rfl⟩

theorem Accessor.set_sameBoxes (a : Accessor) (v : Value) : Lasts World.SameBoxes (a.set host (.record t fs) v) := by
  have hc := sameBoxes_chains
  unfold set
  split
  · exact always_throw hc trivial
  · split
    · exact always_bind hc (a.member.write_sameBoxes rfl v) fun _ => always_pure hc _
    · exact a.member.write_sameBoxes rfl v

theorem Accessor.set_record {a : Accessor} {after : Value} (h : a.set host (.record t fs) v w = .ok after w') :
    ∃ fs', after = .record t fs' := by
  unfold set at h
  split at h
  · cases h
  · split at h
    · obtain ⟨_, _, _, h⟩ := bind_eq_ok.mp h
      obtain ⟨rfl, -⟩ := pure_eq_ok.mp h
      exact ⟨fs, rfl⟩
    · exact Member.write_record h

variable {m : Member} {name : String} {b : BoxId}

theorem TypeTable.Shows.accessor (ht : host.types.Shows t m) :
    Accessor.on host.types m t = ⟨m, host.types.isValueType t⟩ := by
  rw [Accessor.on, ht.resolve]

theorem Member.IsField.read (hm : m.IsField name) (ht : host.types.Shows t m) (hb : w.box b = .record t fs) :
    (Receiver.boxed b).read host (.on host.types m t) w = .ok (Value.field fs name) w := by
  have hget : (Receiver.boxed b).read host (.on host.types m t) w = (Accessor.on host.types m t).get host (w.box b) w := rfl
  rw [hget, ht.accessor, hb]
  unfold Accessor.get Member.read
  simp only [hm.reader, hm.ofInstance]
  rfl

theorem Member.IsField.write (hm : m.IsField name) (ht : host.types.Shows t m) (hb : w.box b = .record t fs)
    (hcan : (Accessor.on host.types m t).canWrite = true) (v : Value) :
    (Receiver.boxed b).write host (.on host.types m t) v w =
      .ok () (w.setBox b (.record t (Value.setField name v fs))) := by
  have hset : (Accessor.on host.types m t).set host (w.box b) v w = .ok (.record t (Value.setField name v fs)) w := by
    rw [hb, Accessor.set, hcan, ht.accessor]
    simp only [Member.write, hm.writer, hm.ofInstance]
    rfl
  exact bind_of_ok hset

theorem Receiver.write_boxed (a : Accessor) (hb : w.box b = .record t fs) :
    (Receiver.boxed b).write host a v w =
      (a.set host (.record t fs) v >>= fun after => (modify (·.setBox b after) : Effect Unit)) w := by
  rw [← hb]
  rfl

/-- Whatever is written through a box that holds a record, it holds one of the same type afterwards. -/
theorem Receiver.write_boxed_ok {a : Accessor} (hb : w.box b = .record t fs)
    (h : (Receiver.boxed b).write host a v w = .ok () w') : ∃ fs', w'.box b = .record t fs' := by
  rw [write_boxed a hb] at h
  obtain ⟨after, w₁, hafter, h⟩ := bind_eq_ok.mp h
  obtain ⟨fs', rfl⟩ := Accessor.set_record hafter
  cases modify_eq_ok.mp h
  exact ⟨fs', by rw [World.box_setBox, if_pos rfl]⟩

theorem Receiver.write_boxed_error {a : Accessor} {stop : Stop} (hb : w.box b = .record t fs)
    (h : (Receiver.boxed b).write host a v w = .error stop w') : w'.box b = w.box b := by
  rw [write_boxed a hb] at h
  have hsame : Lasts World.SameBoxes (a.set host (.record t fs) v) := a.set_sameBoxes v
  obtain hset | ⟨after, w₁, -, hmod⟩ := bind_eq_error.mp h
  · exact congrArg (fun boxes => (Table.find? boxes b).getD .null) (hsame.error w _ _ hset).2
  · cases hmod

end

/-! ## Sessions -/

/-- What an interpreter has built over one access, and which value a setter has been given last with success. -/
structure Session where
  bench : Workbench
  getters : List (Expr × Getter) := []
  setters : List (Expr × Setter) := []
  last : Option (Expr × Value) := none

/-- A box that the node had is as it was, and one that it has now holds a record. -/
def Workbench.Undisturbed (node : NodeId) (s s' : Workbench) : Prop :=
  ∀ b, s'.receivers.find? node = some (.boxed b) →
    (s.receivers.find? node = some (.boxed b) → s'.world.box b = s.world.box b) ∧ ∃ t fs, s'.world.box b = .record t fs

def Request.after (host : Host) (q : Request) (s : Workbench) : Workbench :=
  match q.run host s with
  | .ok _ s' => s'
  | .error _ s' => s'

namespace Session

/-- One step of a session about an access: a getter or a setter for it is built, with any conversions around it, or one
of the setters is called. Besides, the interpreter serves other requests and the world goes on, both without writing into
the box of the access. -/
inductive Step (host : Host) (node : NodeId) (target : Expr) (m : Member) : Session → Session → Prop
  | getter {σ : Session} {e : Expr} {g : Getter} {s : Workbench} :
    e.assigned? = some (.member node target m) → e.getter? host σ.bench = .ok (some g) s →
    Step host node target m σ { σ with bench := s, getters := (e, g) :: σ.getters }
  | setter {σ : Session} {custom : Option (Table DeclId CustomSetter)} {e : Expr} {k : Setter} {s : Workbench} :
    e.assigned? = some (.member node target m) → custom.bind (·.find? m.id) = none →
    e.setter? host custom σ.bench = .ok (some k) s →
    Step host node target m σ { σ with bench := s, setters := (e, k) :: σ.setters }
  | set {σ : Session} {e : Expr} {k : Setter} {v : Value} {w : World} :
    (e, k) ∈ σ.setters → k.run host v σ.bench.world = .ok () w →
    Step host node target m σ { σ with bench := ⟨w, σ.bench.receivers⟩, last := some (e, v) }
  | refused {σ : Session} {e : Expr} {k : Setter} {v : Value} {stop : Stop} {w : World} :
    (e, k) ∈ σ.setters → k.run host v σ.bench.world = .error stop w →
    Step host node target m σ { σ with bench := ⟨w, σ.bench.receivers⟩ }
  | request {σ : Session} (q : Request) :
    σ.bench.Undisturbed node (q.after host σ.bench) →
    Step host node target m σ { σ with bench := q.after host σ.bench }
  | elsewhere {σ : Session} {w : World} :
    σ.bench.world.Counts w → σ.bench.Undisturbed node ⟨w, σ.bench.receivers⟩ →
    Step host node target m σ { σ with bench := ⟨w, σ.bench.receivers⟩ }

def start (w : World) : Session := ⟨⟨w, .empty⟩, [], [], none⟩

/-- The box of the access, once there is one, holds a record, and whatever was built goes through it. -/
structure Built (host : Host) (node : NodeId) (m : Member) (σ : Session) : Prop where
  separate : σ.bench.Separate
  record : ∀ b, σ.bench.receivers.find? node = some (.boxed b) → ∃ t fs, σ.bench.world.box b = .record t fs
  getters : ∀ e g, (e, g) ∈ σ.getters → ∃ r t, σ.bench.receivers.find? node = some r ∧
    r.type? σ.bench.world = some t ∧ g.run host = (r.read host (.on host.types m t) >>= e.converted host)
  setters : ∀ e k, (e, k) ∈ σ.setters → ∃ r t, σ.bench.receivers.find? node = some r ∧
    r.type? σ.bench.world = some t ∧ (Accessor.on host.types m t).canWrite = true ∧
    ∀ v, k.run host v = (ofExcept (e.passed host.types v) >>= r.write host (.on host.types m t))

/-- What holds all along: besides, the field has what the last successful call has handed on. -/
structure Holds (host : Host) (node : NodeId) (m : Member) (σ : Session) : Prop extends σ.Built host node m where
  last : ∀ e v, σ.last = some (e, v) → ∃ r, σ.bench.receivers.find? node = some r ∧
    ∀ name b t fs, m.IsField name → host.types.Shows t m → r = .boxed b → σ.bench.world.box b = .record t fs →
      e.passed host.types v = .ok (Value.field fs name)

section

variable {host : Host} {node : NodeId} {target : Expr} {m : Member} {σ : Session} {s : Workbench}

theorem start_holds (w : World) : (start w).Holds host node m where
  separate := Workbench.separate_empty w
  record := nofun
  getters := nofun
  setters := nofun
  last := nofun

/-- What has been built stays good as long as the box of the access keeps a record of the same type. -/
theorem Built.goes_on (h : σ.Built host node m) (last : Option (Expr × Value)) (hs : s.Separate)
    (hstay : Receivers.Stay σ.bench.receivers s.receivers)
    (hbox : ∀ b, s.receivers.find? node = some (.boxed b) → ∃ t fs, s.world.box b = .record t fs ∧
      (σ.bench.receivers.find? node = some (.boxed b) → (σ.bench.world.box b).type? = some t)) :
    Session.Built host node m { σ with bench := s, last } := by
  have htype : ∀ r t, σ.bench.receivers.find? node = some r → r.type? σ.bench.world = some t →
      r.type? s.world = some t := by
    intro r t hr ht
    cases r with
    | boxed b =>
      obtain ⟨t', fs, hrecord, hbefore⟩ := hbox b (hstay.kept node _ hr)
      rw [Receiver.type?, hrecord]
      exact (hbefore hr).symm.trans ht
    | _ => exact ht
  constructor
  · exact hs
  · intro b hb
    obtain ⟨t, fs, hrecord, -⟩ := hbox b hb
    exact ⟨t, fs, hrecord⟩
  · intro e g hg
    obtain ⟨r, t, hr, ht, hrun⟩ := h.getters e g hg
    exact ⟨r, t, hstay.kept node r hr, htype r t hr ht, hrun⟩
  · intro e k hk
    obtain ⟨r, t, hr, ht, hcan, hrun⟩ := h.setters e k hk
    exact ⟨r, t, hstay.kept node r hr, htype r t hr ht, hcan, hrun⟩

/-- Whatever leaves the box of the access alone keeps what has been built over it. -/
theorem Holds.undisturbed (h : σ.Holds host node m) (hs : s.Separate) (hstay : Receivers.Stay σ.bench.receivers s.receivers)
    (hbox : σ.bench.Undisturbed node s) : Session.Holds host node m { σ with bench := s } where
  toBuilt := by
    refine h.goes_on σ.last hs hstay fun b hb => ?_
    obtain ⟨hsame, t, fs, hrecord⟩ := hbox b hb
    refine ⟨t, fs, hrecord, fun hbefore => ?_⟩
    rw [← hsame hbefore, hrecord]
    rfl
  last e v hv := by
    obtain ⟨r, hr, hlast⟩ := h.last e v hv
    refine ⟨r, hstay.kept node r hr, ?_⟩
    rintro name b t fs hm ht rfl hrecord
    rw [(hbox b (hstay.kept node _ hr)).1 hr] at hrecord
    exact hlast name b t fs hm ht rfl hrecord

theorem memberReceiver_undisturbed {r : Receiver} (h : σ.Holds host node m)
    (hr : Expr.memberReceiver host node target m σ.bench = .ok r s) : σ.bench.Undisturbed node s := by
  rcases Expr.memberReceiver_eq_ok.mp hr with ⟨-, rfl⟩ | ⟨hnone, v, s₁, w, -, -, hw, rfl⟩
  · exact fun b hb => ⟨fun _ => rfl, h.record b hb⟩
  · intro b hb
    simp only [Table.find?_insert, if_true, Option.some_inj] at hb
    subst hb
    refine ⟨fun hb => ?_, ?_⟩
    · rw [hnone] at hb
      cases hb
    · rcases Receiver.ofValue_eq_ok hw with ⟨hshared, -⟩ | ⟨t, fs, rfl, hboxed, rfl⟩
      · cases hshared
      · cases hboxed
        exact ⟨t, fs, by rw [World.box_setBox, if_pos rfl]⟩

variable (hhost : host.Lasting World.Counts)
include hhost

/-- When the receiver of the access is found, what has been built over it before goes on. -/
theorem Holds.found {r : Receiver} (h : σ.Holds host node m)
    (hr : Expr.memberReceiver host node target m σ.bench = .ok r s) :
    Session.Holds host node m { σ with bench := s } ∧ s.receivers.find? node = some r := by
  have hextends : Lasts _ (Expr.memberReceiver host node target m) :=
    Expr.node_extends (.member node target m) (List.Subset.refl _)
  have hapart : Lasts Workbench.KeepsApart (Expr.memberReceiver host node target m) :=
    Expr.memberReceiver_separate (Expr.targetValue_separate hhost target)
  exact ⟨h.undisturbed (hapart.ok _ _ _ hr h.separate) (hextends.ok _ _ _ hr).toStay (memberReceiver_undisturbed h hr),
    Expr.kept_find? hr⟩

theorem Holds.set {e : Expr} {k : Setter} {v : Value} {w : World} (h : σ.Holds host node m) (hk : (e, k) ∈ σ.setters)
    (hw : k.run host v σ.bench.world = .ok () w) :
    Session.Holds host node m { σ with bench := ⟨w, σ.bench.receivers⟩, last := some (e, v) } := by
  have hcounts : σ.bench.world.Counts w := (hhost.setter k v).ok _ _ _ hw
  obtain ⟨r, t, hr, ht, hcan, hrun⟩ := h.setters e k hk
  rw [hrun v] at hw
  obtain ⟨u, w₁, hu, hw⟩ := bind_eq_ok.mp hw
  obtain ⟨hpassed, rfl⟩ := ofExcept_eq_ok.mp hu
  constructor
  · refine h.goes_on (some (e, v)) (h.separate.world hcounts) (stay_chains.refl _) fun b hb => ?_
    cases hr.symm.trans hb
    obtain ⟨t', fs, hrecord⟩ := h.record b hb
    obtain ⟨fs', hafter⟩ := Receiver.write_boxed_ok hrecord hw
    exact ⟨t', fs', hafter, fun _ => by rw [hrecord]; rfl⟩
  · rintro e' v' ⟨⟩
    refine ⟨r, hr, ?_⟩
    rintro name b t' fs hm hshows rfl hafter
    obtain ⟨t₀, fs₀, hrecord⟩ := h.record b hr
    obtain ⟨fs₁, hkept⟩ := Receiver.write_boxed_ok hrecord hw
    cases hkept.symm.trans hafter
    rw [Receiver.type?, hrecord] at ht
    cases ht
    rw [hm.write hshows hrecord hcan] at hw
    cases hw
    rw [World.box_setBox, if_pos rfl] at hafter
    cases hafter
    rw [Value.field_setField, if_pos rfl]
    exact hpassed

theorem Holds.refused {e : Expr} {k : Setter} {v : Value} {stop : Stop} {w : World} (h : σ.Holds host node m)
    (hk : (e, k) ∈ σ.setters) (hw : k.run host v σ.bench.world = .error stop w) :
    Session.Holds host node m { σ with bench := ⟨w, σ.bench.receivers⟩ } := by
  have hcounts : σ.bench.world.Counts w := ((hhost.setter k v).error _ _ _ hw).2
  refine h.undisturbed (h.separate.world hcounts) (stay_chains.refl _) fun b hb => ?_
  obtain ⟨t, fs, hrecord⟩ := h.record b hb
  obtain ⟨r, t', hr, -, -, hrun⟩ := h.setters e k hk
  cases hr.symm.trans hb
  have hsame : w.box b = σ.bench.world.box b := by
    rw [hrun v] at hw
    cases hpassed : e.passed host.types v with
    | error err =>
      rw [hpassed] at hw
      cases hw
      rfl
    | ok u =>
      rw [hpassed] at hw
      exact Receiver.write_boxed_error hrecord hw
  exact ⟨fun _ => hsame, t, fs, hsame.trans hrecord⟩

/-- What one step of a session leaves. -/
theorem Step.holds {σ' : Session} (hstep : Step host node target m σ σ') (h : σ.Holds host node m) :
    σ'.Holds host node m := by
  cases hstep with
  | @getter e g s he hg =>
    obtain ⟨r, t, hr, ht, hrun⟩ := Expr.getter?_run e he hg
    obtain ⟨hs, hfound⟩ := h.found hhost hr
    refine ⟨⟨hs.separate, hs.record, ?_, hs.setters⟩, hs.last⟩
    intro e' g' hmem
    rcases List.mem_cons.mp hmem with heq | hmem
    · cases heq
      exact ⟨r, t, hfound, ht, hrun⟩
    · exact hs.getters e' g' hmem
  | @setter custom e k s he hcustom hk =>
    obtain ⟨r, t, hr, ht, hcan, hrun⟩ := Expr.setter?_run hcustom e he hk
    obtain ⟨hs, hfound⟩ := h.found hhost hr
    refine ⟨⟨hs.separate, hs.record, hs.getters, ?_⟩, hs.last⟩
    intro e' k' hmem
    rcases List.mem_cons.mp hmem with heq | hmem
    · cases heq
      exact ⟨r, t, hfound, ht, hcan, hrun⟩
    · exact hs.setters e' k' hmem
  | set hk hw => exact h.set hhost hk hw
  | refused hk hw => exact h.refused hhost hk hw
  | request q hbox =>
    have hafter : (q.after host σ.bench).Separate ∧ Receivers.Stay σ.bench.receivers (q.after host σ.bench).receivers := by
      unfold Request.after
      cases hq : q.run host σ.bench with
      | ok a s => exact ⟨(Request.run_separate hhost q).ok _ _ _ hq h.separate, (q.run_extends.ok _ _ _ hq).toStay⟩
      | error e s =>
        exact ⟨((Request.run_separate hhost q).error _ _ _ hq).2 h.separate, (q.run_extends.error _ _ _ hq).2.toStay⟩
    exact h.undisturbed hafter.1 hafter.2 hbox
  | elsewhere hcounts hbox => exact h.undisturbed (h.separate.world hcounts) (stay_chains.refl _) hbox

theorem reached_holds {w : World} (h : Relation.ReflTransGen (Step host node target m) (start w) σ) :
    σ.Holds host node m := by
  induction h with
  | refl => exact start_holds w
  | tail _ hstep ih => exact hstep.holds hhost ih

end

end Session

/-- The getters and setters of one field of a record see each other's writes. After any session, the field in the box of
the access is what the last successful call has handed on through its conversions. Each getter gives what its own
conversions make of that field. Each setter, called with a value, hands it on and sets the field, or fails with the
error of a conversion and leaves the world as it was. The box of another node is not touched. -/
theorem writes_shared {host : Host} {node : NodeId} {target : Expr} {m : Member} {name : String} {w₀ : World}
    {σ : Session} {b : BoxId} {t : TypeId} {fs : List (String × Value)} (hhost : host.Lasting World.Counts)
    (hm : m.IsField name) (h : Relation.ReflTransGen (Session.Step host node target m) (Session.start w₀) σ)
    (hb : σ.bench.receivers.find? node = some (.boxed b)) (hrecord : σ.bench.world.box b = .record t fs)
    (ht : host.types.Shows t m) :
    (∀ e v, σ.last = some (e, v) → e.passed host.types v = .ok (Value.field fs name)) ∧
      (∀ e g, (e, g) ∈ σ.getters →
        g.run host σ.bench.world = e.converted host (Value.field fs name) σ.bench.world) ∧
      (∀ e k, (e, k) ∈ σ.setters → ∀ v, k.run host v σ.bench.world =
        match e.passed host.types v with
        | .ok u => .ok () (σ.bench.world.setBox b (.record t (Value.setField name u fs)))
        | .error err => .error (.failed err) σ.bench.world) ∧
      ∀ n b', n ≠ node → σ.bench.receivers.find? n = some (.boxed b') →
        ∀ u, (σ.bench.world.setBox b u).box b' = σ.bench.world.box b' := by
  have hσ := Session.reached_holds hhost h
  -- All getters and setters have been built over the receiver of the one node.
  have hbox : ∀ r t', σ.bench.receivers.find? node = some r → r.type? σ.bench.world = some t' → r = .boxed b ∧ t' = t := by
    intro r t' hr ht'
    cases hr.symm.trans hb
    rw [Receiver.type?, hrecord] at ht'
    cases ht'
    exact ⟨rfl, rfl⟩
  refine ⟨fun e v hlast => ?_, fun e g hg => ?_, fun e k hk v => ?_, ?_⟩
  · obtain ⟨r, hr, hv⟩ := hσ.last e v hlast
    cases hr.symm.trans hb
    exact hv name b t fs hm ht rfl hrecord
  · obtain ⟨r, t', hr, ht', hrun⟩ := hσ.getters e g hg
    obtain ⟨rfl, rfl⟩ := hbox r t' hr ht'
    rw [hrun]
    exact bind_of_ok (hm.read ht hrecord)
  · obtain ⟨r, t', hr, ht', hcan, hrun⟩ := hσ.setters e k hk
    obtain ⟨rfl, rfl⟩ := hbox r t' hr ht'
    rw [hrun]
    cases e.passed host.types v with
    | error err => rfl
    | ok u => exact hm.write ht hrecord hcan u
  · intro n b' hn hb' u
    have hne : b ≠ b' := fun h => hn (hσ.separate.apart n node b' hb' (h ▸ hb))
    rw [World.box_setBox, if_neg hne]

/-! ## Sizes -/

namespace Sizes

def field : MemberSpec := ⟨"Width", .field, .int, false, some (.recordField "Width"), some (.recordField "Width")⟩

def width : Member := { field with id := ⟨⟨5⟩, 0⟩ }

def host : Host := Platform.running
  ⟨⟨[{ name := "Size", kind := .value, members := [field] }]⟩, fun _ => "Model", none⟩ HostCode.ofActs 2

def size (v : Int64) : Value := .record ⟨5⟩ [("Width", .integer v)]

def target : Expr := .constant (size 1) ⟨5⟩ (some "s")

def access : Expr := .member ⟨0⟩ target width

def wide : Expr := .unary .convert access .bool none

def getter : Getter := .read (.boxed ⟨0⟩) ⟨width, true⟩

def setter : Setter := .change .int (.write (.boxed ⟨0⟩) ⟨width, true⟩)

def fresh : World := { ({} : World).setBox ⟨0⟩ (size 1) with next := 1 }

def receivers : Receivers := Table.empty.insert ⟨0⟩ (.boxed ⟨0⟩)

def session : Session where
  bench := ⟨fresh.setBox ⟨0⟩ (size 8), receivers⟩
  getters := [(access, getter), (wide, .change getter .bool)]
  setters := [(wide, setter)]
  last := some (wide, .text " 8 ")

theorem session_reached :
    Relation.ReflTransGen (Session.Step host ⟨0⟩ target width) (Session.start {}) session := by
  have hnone : (none : Option (Table DeclId CustomSetter)).bind (·.find? width.id) = none := rfl
  have hg : Session.Step host ⟨0⟩ target width (Session.start {})
      ⟨⟨fresh, receivers⟩, [(wide, .change getter .bool)], [], none⟩ := .getter rfl rfl
  have hk : Session.Step host ⟨0⟩ target width ⟨⟨fresh, receivers⟩, [(wide, .change getter .bool)], [], none⟩
      ⟨⟨fresh, receivers⟩, [(wide, .change getter .bool)], [(wide, setter)], none⟩ :=
    .setter rfl hnone rfl
  have hset : Session.Step host ⟨0⟩ target width
      ⟨⟨fresh, receivers⟩, [(wide, .change getter .bool)], [(wide, setter)], none⟩
      { session with getters := [(wide, .change getter .bool)] } := .set (List.mem_singleton.mpr rfl) rfl
  have hlate : Session.Step host ⟨0⟩ target width { session with getters := [(wide, .change getter .bool)] } session :=
    .getter rfl rfl
  exact .tail (.tail (.tail (.single hg) hk) hset) hlate

/-- Both getters see the width that was set, whatever they convert it to. A text that is no number is refused, and
nothing has changed. -/
theorem width_shared : Relation.ReflTransGen (Session.Step host ⟨0⟩ target width) (Session.start {}) session ∧
    getter.run host session.bench.world = .ok (.integer 8) session.bench.world ∧
    (Getter.change getter .bool).run host session.bench.world = .ok (.boolean true) session.bench.world ∧
    ∃ err, setter.run host (.text "many") session.bench.world = .error (.failed err) session.bench.world := by
  have hhost : host.Lasting World.Counts := running_counts ..
  have hwidth : width.IsField "Width" := ⟨rfl, rfl, rfl⟩
  obtain ⟨-, hget, hset, -⟩ := writes_shared hhost hwidth session_reached rfl rfl (.inl rfl)
  exact ⟨session_reached, hget access getter (List.mem_cons_self ..),
    hget wide _ (List.mem_cons_of_mem _ (List.mem_singleton.mpr rfl)), _,
    hset wide setter (List.mem_singleton.mpr rfl) (.text "many")⟩

end Sizes

end DataBinding
