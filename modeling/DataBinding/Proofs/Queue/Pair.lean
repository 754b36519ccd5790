import DataBinding.Proofs.Network.Bind
import DataBinding.Proofs.Network.Telling

/-!
# Two properties and a queue

A two-way binding between properties of two objects whose writes wait in a queue. Writing a side comes to one of
three things: nothing if the value settles, a silent store if the binding has carried the value over last, and else a
store with a job for the other side (`put_known`, `put_other`).
-/

namespace DataBinding

open Effect

def World.deferred (w : World) (id : BindingId) (b : EqualityBinding) (s : Setter) (v : Value) : World :=
  { w.setBinding id (.equality { b with value := v }) with
    jobs := w.jobs ++ [.assign ⟨id, s, v⟩]
    log := "dispatch defer" :: w.log }

/-- Two properties of one scalar type on two objects, and a configuration that queues what bindings assign. -/
structure Pair where
  platform : Platform
  config : Configuration
  type : TypeId
  left : Endpoint
  right : Endpoint
  scalar : type ∈ [TypeId.bool, .int, .float, .string]
  unlimited : platform.raiseLimit = none
  queues : config.assignments = some .defer
  loudLeft : left.Loud platform.types config type
  loudRight : right.Loud platform.types config type
  apart : left.object.name ≠ right.object.name
  nodes : left.node ≠ right.node

namespace Pair

variable (P : Pair)

def Faces (e e' : Endpoint) : Prop := (e = P.left ∧ e' = P.right) ∨ (e = P.right ∧ e' = P.left)

def reaction (id : BindingId) (e e' : Endpoint) : Response :=
  .onProperty e.member.name (.follow id (e.source P.platform.types) (e'.target P.platform.types))

def job (id : BindingId) (e : Endpoint) (x : Value) : Job := .assign ⟨id, e.target P.platform.types, x⟩

/-- The binding is live, and nothing else listens to its sides. -/
structure Linked (id : BindingId) (w : World) (b : EqualityBinding) : Prop where
  known : w.equality? id = some b
  live : b.disposed = false
  recurring : b.flags.isOneTime = false
  queues : b.dispatcher = some .defer
  fits : ∀ e e', P.Faces e e' → (e.value w).Fits P.platform.types P.type
  only : ∀ e e', P.Faces e e' → ∀ g ∈ w.handlersOf (.changed e.object.name),
    g.response = P.reaction id e e' ∨ g.Deaf e.member.name
  listens : ∀ e e', P.Faces e e' → ∃ g ∈ w.handlersOf (.changed e.object.name), g.response = P.reaction id e e'

variable {P} {id : BindingId} {b : EqualityBinding} {e e' : Endpoint} {w w' : World} {f : Nat} {x y v : Value}

theorem Faces.symm (h : P.Faces e e') : P.Faces e' e := by
  rcases h with ⟨rfl, rfl⟩ | ⟨rfl, rfl⟩
  · exact .inr ⟨rfl, rfl⟩
  · exact .inl ⟨rfl, rfl⟩

theorem Faces.loud (h : P.Faces e e') : e.Loud P.platform.types P.config P.type := by
  rcases h with ⟨rfl, rfl⟩ | ⟨rfl, rfl⟩
  · exact P.loudLeft
  · exact P.loudRight

theorem Faces.apart (h : P.Faces e e') : e.object.name ≠ e'.object.name := by
  rcases h with ⟨rfl, rfl⟩ | ⟨rfl, rfl⟩
  · exact P.apart
  · exact P.apart.symm

theorem fits_scalar (h : x.Fits P.platform.types P.type) : x.IsScalar := h.isScalar P.scalar

theorem Faces.value_store (h : P.Faces e e') (w : World) (x : Value) : e'.value (e.store w x) = e'.value w := by
  rw [Endpoint.value_store, if_neg]
  intro hslot
  exact h.apart hslot.1

theorem job_inj {a a' : Endpoint} (h : P.Faces e e') (ha : P.Faces a a') (hj : P.job id e x = P.job id a y) :
    e = a ∧ x = y := by
  unfold job Endpoint.target at hj
  simp only [Job.assign.injEq, Assignment.mk.injEq, Setter.write.injEq, Receiver.shared.injEq, Value.object.injEq,
    true_and] at hj
  obtain ⟨⟨hobject, -⟩, rfl⟩ := hj
  refine ⟨?_, rfl⟩
  rcases h with ⟨rfl, rfl⟩ | ⟨rfl, rfl⟩
  · rcases ha with ⟨rfl, rfl⟩ | ⟨rfl, rfl⟩
    · rfl
    · exact absurd (congrArg ObjectRef.name hobject) P.apart
  · rcases ha with ⟨rfl, rfl⟩ | ⟨rfl, rfl⟩
    · exact absurd (congrArg ObjectRef.name hobject).symm P.apart
    · rfl

/-- The binding stays linked when slots get fitting values and another value is carried over. -/
theorem Linked.frame (h : P.Linked id w b) (hh : w'.handlers = w.handlers)
    (hb : w'.equality? id = some { b with value := v })
    (hfits : ∀ e e', P.Faces e e' → (e.value w').Fits P.platform.types P.type) :
    P.Linked id w' { b with value := v } where
  known := hb
  live := h.live
  recurring := h.recurring
  queues := h.queues
  fits := hfits
  only e e' hf := by
    unfold World.handlersOf
    rw [hh]
    exact h.only e e' hf
  listens e e' hf := by
    unfold World.handlersOf
    rw [hh]
    exact h.listens e e' hf

theorem Linked.store_fits (h : P.Linked id w b) (hx : x.Fits P.platform.types P.type) {a a' : Endpoint}
    (ha : P.Faces a a') : (a.value (e.store w x)).Fits P.platform.types P.type := by
  rw [Endpoint.value_store]
  split
  · exact hx
  · exact h.fits a a' ha

theorem Linked.store (h : P.Linked id w b) (e : Endpoint) (hx : x.Fits P.platform.types P.type) :
    P.Linked id (e.store w x) b :=
  h.frame rfl h.known fun _ _ ha => h.store_fits hx ha

theorem equality?_deferred (w : World) (id : BindingId) (b : EqualityBinding) (s : Setter) (v : Value) :
    (w.deferred id b s v).equality? id = some { b with value := v } := by
  rw [World.equality?_eq_some]
  exact (World.find?_setBinding _ _ _ _).trans (if_pos rfl)

theorem Linked.deferred (h : P.Linked id w b) (s : Setter) (v : Value) :
    P.Linked id (w.deferred id b s v) { b with value := v } :=
  h.frame rfl (equality?_deferred w id b s v) h.fits

/-! ## How a change is answered -/

theorem source_run (hf : P.Faces e e') (f : Nat) (w : World) :
    (e.source P.platform.types).run (P.platform.withFuel f) w = .ok (e.value w) w :=
  Endpoint.Loud.source_run hf.loud w

theorem target_run (hf : P.Faces e e') (f : Nat) (hx : x.Fits P.platform.types P.type) :
    (e.target P.platform.types).run (P.platform.withFuel f) x = e.put (P.platform.withFuel f) x :=
  Endpoint.Loud.target_run hf.loud hx

theorem writeNamed_eq (hf : P.Faces e e') (f : Nat) (hx : x.Fits P.platform.types P.type) :
    (P.platform.withFuel f).writeNamed e.object e.member.name x = e.put (P.platform.withFuel f) x :=
  Endpoint.Loud.writeNamed_eq hf.loud hx

theorem follow_known (h : P.Linked id w b) (hf : P.Faces e e') (hs : b.value.same (e.value w) = true) :
    EqualityBinding.follow (P.platform.withFuel f) id (e.source P.platform.types) (e'.target P.platform.types) w =
      .ok () w := by
  have hsource := source_run hf f w
  rw [EqualityBinding.follow_eq h.known h.live hsource, if_pos hs]

theorem follow_other (h : P.Linked id w b) (hf : P.Faces e e') (hs : b.value.same (e.value w) = false) :
    EqualityBinding.follow (P.platform.withFuel f) id (e.source P.platform.types) (e'.target P.platform.types) w =
      .ok () (w.deferred id b (e'.target P.platform.types) (e.value w)) := by
  have hsource := source_run hf f w
  have hnew : (w.setBinding id (.equality { b with value := e.value w })).equality? id =
      some { b with value := e.value w } :=
    World.equality?_eq_some.mpr ((World.find?_setBinding _ _ _ _).trans (if_pos rfl))
  rw [EqualityBinding.follow_eq h.known h.live hsource, hs, EqualityBinding.updateEquality_value h.known]
  have hqueue : dispatch (P.platform.withFuel f) b.dispatcher (P.job id e' (e.value w)) =
      dispatch (P.platform.withFuel f) (some .defer) (P.job id e' (e.value w)) := by rw [h.queues]
  exact (EqualityBinding.assign_eq hnew h.recurring).trans (congrFun hqueue _)

theorem respondAll_known (h : P.Linked id w b) (hf : P.Faces e e') (hs : b.value.same (e.value w) = true)
    {gs : List Handler} (hgs : ∀ g ∈ gs, g.response = P.reaction id e e' ∨ g.Deaf e.member.name) :
    respondAll (P.platform.withFuel (f + 1)) (.property e.member.name) gs w = .ok () w := by
  apply respondAll_still
  intro g hg
  rcases hgs g hg with hg | hg
  · rw [respond_listening _ hg]
    exact follow_known h hf hs
  · exact respond_deaf _ hg w

/-- Every other value is queued for the other side, and only once. -/
theorem respondAll_other (h : P.Linked id w b) (hf : P.Faces e e') (hs : b.value.same (e.value w) = false)
    {gs : List Handler} (hgs : ∀ g ∈ gs, g.response = P.reaction id e e' ∨ g.Deaf e.member.name)
    (hone : ∃ g ∈ gs, g.response = P.reaction id e e') :
    respondAll (P.platform.withFuel (f + 1)) (.property e.member.name) gs w =
      .ok () (w.deferred id b (e'.target P.platform.types) (e.value w)) := by
  induction gs with
  | nil =>
    obtain ⟨g, hg, -⟩ := hone
    cases hg
  | cons g gs ih =>
    have hrest : ∀ g ∈ gs, g.response = P.reaction id e e' ∨ g.Deaf e.member.name := fun g hg =>
      hgs g (List.mem_cons_of_mem _ hg)
    by_cases hg : g.response = P.reaction id e e'
    · have hfollow : g.respond (P.platform.withFuel (f + 1)) (.property e.member.name) w =
          .ok () (w.deferred id b (e'.target P.platform.types) (e.value w)) := by
        rw [respond_listening _ hg]
        exact follow_other h hf hs
      have hscalar : (e.value w).IsScalar := fits_scalar (h.fits e e' hf)
      refine (bind_of_ok hfollow).trans ?_
      exact respondAll_known (h.deferred _ _) hf (Value.same_refl (.scalar _ hscalar)) hrest
    · have hdeaf : g.Deaf e.member.name := (hgs g List.mem_cons_self).resolve_left hg
      refine (bind_of_ok (respond_deaf _ hdeaf w)).trans (ih hrest ?_)
      obtain ⟨g', hm, hg'⟩ := hone
      rcases List.mem_cons.mp hm with rfl | hm
      · exact absurd hg' hg
      · exact ⟨g', hm, hg'⟩

/-! ## Writing a side -/

theorem put_settled (host : Host) (hs : x.settles (e.value w) = true) : e.put host x w = .ok () w := if_pos hs

theorem Linked.raising (h : P.Linked id w b) (e : Endpoint) (hx : x.Fits P.platform.types P.type) :
    P.Linked id (e.raising w x) b :=
  h.frame rfl h.known (h.store e hx).fits

theorem value_raising (e : Endpoint) (w : World) (x : Value) : e.value (e.raising w x) = x :=
  Endpoint.value_store_self e w x

theorem put_known (h : P.Linked id w b) (hf : P.Faces e e') (hx : x.Fits P.platform.types P.type)
    (hs : x.settles (e.value w) = false) (hv : b.value.same x = true) (f : Nat) :
    ∃ log, e.put (P.platform.withFuel (f + 1)) x w = .ok () { e.store w x with log := log } := by
  have hvalue : b.value.same (e.value (e.raising w x)) = true := by
    rw [value_raising]
    exact hv
  have hrun := respondAll_known (f := f) (h.raising e hx) hf hvalue (h.only e e' hf)
  have hput := Endpoint.put_told P.unlimited hs hrun
  exact ⟨_, hput⟩

theorem put_other (h : P.Linked id w b) (hf : P.Faces e e') (hx : x.Fits P.platform.types P.type)
    (hs : x.settles (e.value w) = false) (hv : b.value.same x = false) (f : Nat) :
    ∃ w', e.put (P.platform.withFuel (f + 1)) x w = .ok () w' ∧ P.Linked id w' { b with value := x } ∧
      w'.jobs = w.jobs ++ [P.job id e' x] ∧ e.value w' = x ∧ e'.value w' = e'.value w := by
  have hvalue : b.value.same (e.value (e.raising w x)) = false := by
    rw [value_raising]
    exact hv
  have hrun := respondAll_other (f := f) (h.raising e hx) hf hvalue (h.only e e' hf) (h.listens e e' hf)
  rw [value_raising] at hrun
  have hlinked := (h.raising e hx).deferred (e'.target P.platform.types) x
  refine ⟨_, Endpoint.put_told P.unlimited hs hrun, hlinked.frame rfl hlinked.known hlinked.fits, rfl, ?_, ?_⟩
  · exact value_raising e w x
  · exact hf.value_store w x

end Pair

theorem flush_cons (host : Host) (n : Nat) {w : World} {j : Job} {js : List Job} (h : w.jobs = j :: js) :
    flush host (n + 1) w = (j.run host >>= fun _ => flush host n) { w with jobs := js } := by
  show (get >>= _ : Effect Unit) w = _
  rw [bind_get, h]
  rfl

end DataBinding
