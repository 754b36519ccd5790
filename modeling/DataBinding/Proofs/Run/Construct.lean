import DataBinding.Proofs.Binding.Dispose
import DataBinding.Proofs.Run.Regime
import DataBinding.Proofs.Trigger.Collect

/-!
# Constructing bindings

A construction runs host code, changes the binding that it makes, and subscribes triggers, which the binding takes at
once. If all this stays in a relation, so does the construction, also one that fails (`Host.Makes.create`).
-/

namespace DataBinding

open Effect Compile

structure EqualityBinding.Takes (g : List Trigger → EqualityBinding → EqualityBinding) : Prop where
  flags : ∀ ts b, (g ts b).flags = b.flags := by exact fun _ _ => rfl
  disposed : ∀ ts b, (g ts b).disposed = b.disposed := by exact fun _ _ => rfl
  handlers : ∀ ts b, ∀ h ∈ (Binding.equality (g ts b)).handlers,
    h ∈ (Binding.equality b).handlers ∨ h ∈ ts.filterMap Trigger.handler

theorem EqualityBinding.takes_right : Takes fun ts b => { b with right := ts } where
  handlers ts b h hh := by
    simp only [Binding.handlers, List.filterMap_append, List.mem_append] at hh ⊢
    exact hh.imp .inl id

theorem EqualityBinding.takes_left : Takes fun ts b => { b with left := ts } where
  handlers ts b h hh := by
    simp only [Binding.handlers, List.filterMap_append, List.mem_append] at hh ⊢
    exact hh.symm.imp .inr id

/-- Every step in the construction of this binding stays in the relation. -/
structure Host.Constructs (host : Host) (R : World → World → Prop) (id : BindingId) : Prop extends host.Lasting R where
  value : ∀ (w : World) v, R w (w.updateEquality id fun b => { b with value := v })
  finish : ∀ w : World, R w (w.updateAction id fun b => { b with disposed := true })
  dispose : Lasts R (host.dispose id)
  takeSide : ∀ us source target {g}, EqualityBinding.Takes g → (∀ t ∈ us, t.handler = none) → Lasts R (do
    let ts ← Trigger.subscribeAll host (.follow id source target) us
    modify (·.updateEquality id (g ts)))
  takeCall : ∀ us call, (∀ t ∈ us, t.handler = none) → Lasts R (do
    let ts ← Trigger.subscribeAll host (.rerun id call) us
    modify (·.updateAction id fun b => { b with triggers := ts }))

/-- Making any binding stays in the relation. -/
structure Host.Makes (host : Host) (R : World → World → Prop) : Prop extends host.Lasting R where
  dispose : ∀ id, Lasts R (host.dispose id)
  name : ∀ (w : World) name id, R w { w with namedBindings := w.namedBindings.insert name id }
  /-- The construction of a new binding may stay in a relation of its own. -/
  construct : ∀ (w : World) s, s.handlers = [] →
    ∃ R', host.Constructs R' ⟨w.next⟩ ∧ ∀ w', R' (w.birth s) w' → R w w'
  event : ∀ config flags target name a, (∀ x, ¬ a.Touches x) →
    Lasts R (EventBinding.create host config flags target name a)

theorem lift_bind_modify {α : Type} (x : Effect α) (f : α → World → World) :
    (do
      let a ← x
      modify fun s => { s with world := f a s.world } : Compile PUnit) = lift (x >>= fun a => modify (f a)) := by
  funext s
  cases hx : x s.world with
  | ok a w =>
    have hboth : (x >>= fun a => modify (f a)) s.world = .ok () (f a w) := bind_of_ok hx
    exact (bind_of_ok (lift_eq_ok.mpr ⟨w, hx, rfl⟩)).trans (lift_eq_ok.mpr ⟨f a w, hboth, rfl⟩).symm
  | error e w =>
    have hboth : (x >>= fun a => modify (f a)) s.world = .error e w := bind_of_error hx
    exact (bind_of_error (lift_eq_error.mpr ⟨w, hx, rfl⟩)).trans (lift_eq_error.mpr ⟨w, hboth, rfl⟩).symm

namespace Host.Constructs

variable {host : Host} {R : World → World → Prop} {id : BindingId} (h : host.Constructs R id) {config : Configuration}
  {flags : Flags}
include h

theorem triggers (e : Expr) : Lasts (OnWorld R) (e.triggers host config) :=
  Expr.triggers_lasts h.chains h.stores e fun x _ => h.part x

theorem getterOrFallback (e : Expr) : Lasts (OnWorld R) (e.getterOrFallback host) :=
  Expr.getterOrFallback_lasts h.chains h.stores e fun x _ => h.part x

theorem setter? (custom : Option (Table DeclId CustomSetter)) (e : Expr) : Lasts (OnWorld R) (e.setter? host custom) :=
  Expr.setter?_lasts h.chains h.stores custom e fun x _ => h.part x

theorem start (source : Getter) (target : Setter) : Lasts R (EqualityBinding.start host id flags source target) := by
  refine h.seq (h.getter source) fun v => ?_
  refine h.seq (always_modify fun w => h.value w v) fun _ => ?_
  split
  · exact h.pure _
  · exact h.seq (h.assign h.dispose target v) fun _ => h.pure _

theorem observe {α : Type} (side : Expr) (source : Getter) (target : Setter) {g : List Trigger → EqualityBinding → EqualityBinding}
    (hg : EqualityBinding.Takes g) (r : α) : Lasts (OnWorld R) (do
      let ts ← EqualityBinding.observe host config id side source target
      modify fun s => { s with world := s.world.updateEquality id (g ts) }
      return r : Compile α) := by
  have hc := onWorld_chains h.chains
  unfold EqualityBinding.observe
  rw [bind_assoc]
  refine always_bind_of hc (h.triggers side) fun s us s' hus => ?_
  rw [← bind_assoc]
  refine always_bind hc ?_ fun _ => always_pure hc _
  rw [lift_bind_modify _ fun ts w => w.updateEquality id (g ts)]
  exact lasts_lift (h.takeSide us source target hg (Expr.triggers_unsubscribed hus))

theorem bindLeft (left right : Expr) : Lasts (OnWorld R) (EqualityBinding.bindLeft host config id flags left right) := by
  have hc := onWorld_chains h.chains
  refine always_bind hc (h.setter? _ left) fun target => ?_
  cases target with
  | none => exact always_bind hc (lasts_lift (h.tell _)) fun _ => always_pure hc _
  | some target =>
    refine always_bind hc (h.getterOrFallback right) fun source => ?_
    refine always_bind hc (lasts_lift (h.start source target)) fun finished => ?_
    cases finished with
    | true => exact always_pure hc _
    | false => exact h.observe right source target EqualityBinding.takes_right _

theorem bindRight (left right : Expr) (leftBound : Bool) :
    Lasts (OnWorld R) (EqualityBinding.bindRight host config id flags left right leftBound) := by
  have hc := onWorld_chains h.chains
  refine always_bind hc (h.setter? _ right) fun target => ?_
  cases target with
  | none => exact always_bind hc (lasts_lift (h.tell _)) fun _ => always_pure hc _
  | some target =>
    refine always_bind hc (h.getterOrFallback left) fun source => ?_
    cases leftBound with
    | true => exact h.observe left source target EqualityBinding.takes_left false
    | false =>
      refine always_bind hc (lasts_lift (h.start source target)) fun finished => ?_
      cases finished with
      | true => exact always_pure hc _
      | false => exact h.observe left source target EqualityBinding.takes_left false

theorem bindSides (left right : Expr) : Lasts (OnWorld R) (EqualityBinding.bindSides host config id flags left right) := by
  have hc := onWorld_chains h.chains
  have hend : Lasts (OnWorld R) (EqualityBinding.warnUntriggered host id left right) := by
    apply always_get hc
    intro s
    split
    · split
      · exact lasts_lift (h.tell _)
      · exact always_pure hc _
    · exact always_pure hc _
  refine always_bind hc (h.bindLeft left right) fun r => ?_
  obtain ⟨finished, leftBound⟩ := r
  cases finished with
  | true => exact always_pure hc _
  | false =>
    cases flags.isTwoWay with
    | false => exact hend
    | true =>
      refine always_bind hc (h.bindRight left right leftBound) fun finished => ?_
      cases finished with
      | true => exact always_pure hc _
      | false => exact hend

theorem observeCall (e : Expr) (g : Getter) : Lasts (OnWorld R) (ActionBinding.observe host config id e g) := by
  have hc := onWorld_chains h.chains
  refine always_bind_of hc (h.triggers e) fun s us s' hus => ?_
  have htake : Lasts (OnWorld R) (ActionBinding.take host id g us) := by
    unfold ActionBinding.take
    rw [lift_bind_modify _ fun ts w => w.updateAction id fun b => { b with triggers := ts }]
    exact lasts_lift (h.takeCall us g (Expr.triggers_unsubscribed hus))
  split
  · exact always_bind hc (lasts_lift (h.tell _)) fun _ => htake
  · exact htake

theorem bindCall (e : Expr) : Lasts (OnWorld R) (ActionBinding.bindCall host config id flags e) := by
  have hc := onWorld_chains h.chains
  refine always_bind hc (h.getterOrFallback e) fun g => ?_
  simp only
  split
  · refine always_bind hc (lasts_lift (h.dispatch _ _)) fun _ => ?_
    split
    · exact always_bind hc (always_modify fun s => h.finish s.world) fun _ => always_pure hc _
    · exact h.observeCall e g
  · exact h.observeCall e g

theorem building {x : Compile Unit} (hx : Lasts (OnWorld R) x) : Lasts R (building host id x) := by
  refine h.seq (lasts_withReceivers hx) fun r => ?_
  obtain ⟨outcome, rs⟩ := r
  cases outcome with
  | ok u => exact h.pure _
  | error e => exact h.seq h.dispose fun _ => h.fail e

end Host.Constructs

namespace Host.Makes

variable {host : Host} {R : World → World → Prop} (h : host.Makes R)
include h

theorem new {s : Binding} {x : BindingId → Compile Unit} (hs : s.handlers = [])
    (hx : ∀ R' id, host.Constructs R' id → Lasts (OnWorld R') (x id)) : Lasts R (do
      let id := BindingId.mk (← fresh)
      modify (·.setBinding id s)
      building host id (x id)) := by
  apply lasts_of_after
  intro w
  obtain ⟨R', hconstructs, hR'⟩ := h.construct w s hs
  exact hR' _ ((hconstructs.building (hx R' _ hconstructs)).after (w.birth s))

theorem create (b : Blueprint) : Lasts R (b.create host) := by
  cases b with
  | equality config flags left right =>
    unfold Blueprint.create EqualityBinding.create
    apply h.check
    exact h.new (s := .equality { dispatcher := config.assignments, flags })
      (x := fun id => EqualityBinding.bindSides host config id flags left right) rfl
      fun R' id hconstructs => hconstructs.bindSides left right
  | action config flags call =>
    exact h.new (s := .action { dispatcher := config.actions, flags })
      (x := fun id => ActionBinding.bindCall host config id flags call) rfl
      fun R' id hconstructs => hconstructs.bindCall call
  | event config flags target name acts => exact h.event config flags target name _ fun _ => id
  | command config flags target name c => exact h.event config flags target name _ fun _ => id

theorem nameBinding (name : String) (id : BindingId) : Lasts R (host.nameBinding name id) := by
  apply h.world
  intro w
  refine h.seq (always_modify fun w => h.name w name id) fun _ => ?_
  split
  · exact h.dispose _
  · exact h.pure _

theorem settled {α : Type} {x : Effect α} (hx : Lasts R x) : Lasts R (settled x) where
  ok w a w' hr := by
    unfold Effect.settled at hr
    cases hw : x w with
    | ok b w₁ =>
      rw [hw] at hr
      cases hr
      exact hx.ok w a w' hw
    | error e w₁ =>
      rw [hw] at hr
      cases hr
  error w e w' hr := by
    unfold Effect.settled at hr
    cases hw : x w with
    | ok b w₁ =>
      rw [hw] at hr
      cases hr
    | error e' w₁ =>
      rw [hw] at hr
      cases hr
      exact ⟨trivial, h.chains.refl w⟩

theorem bind (name : String) (b : Blueprint) : Lasts R (b.bind host name) :=
  h.seq (h.settled (h.create b)) fun id => h.nameBinding name id

theorem tryBind (name : String) (b : Blueprint) : Lasts R (b.tryBind host name) := by
  refine h.seq (lasts_attempt (h.create b)) fun r => ?_
  cases r with
  | ok id => exact h.seq (h.nameBinding name id) fun _ => h.pure _
  | error e => exact h.pure _

end Host.Makes

end DataBinding
