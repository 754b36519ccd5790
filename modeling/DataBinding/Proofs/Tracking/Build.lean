import DataBinding.Proofs.Binding.Follow
import DataBinding.Proofs.Tracking.Source
import DataBinding.Proofs.Trigger.Subscribe

/-!
# Building a one-way binding

What building a binding does after its left setter has been found: the source is compiled and evaluated, its value
is handed to the setter, and only then are the triggers subscribed (`create_eq_ok`).
-/

namespace DataBinding

open Effect Compile

/-! ## Subscribing -/

/-- Handlers that answer to properties with an action have been added; nothing else has changed but the log. -/
structure World.Gains (a : Action) (w w' : World) : Prop where
  objects : w'.objects = w.objects := by rfl
  kept : ∀ k, w.handlersOf k ⊆ w'.handlersOf k := by exact fun _ => List.Subset.refl _
  added : ∀ k, ∀ h ∈ w'.handlersOf k, h ∈ w.handlersOf k ∨ ∃ n, h.response = .onProperty n a := by
    exact fun _ _ h => .inl h
  direct : w'.direct = w.direct := by rfl
  named : w'.namedHandlers = w.namedHandlers := by rfl
  jobs : w'.jobs = w.jobs := by rfl
  bindings : w'.bindings = w.bindings := by rfl
  assignments : w'.assignments = w.assignments := by rfl
  next : w.next ≤ w'.next := by exact Nat.le_refl _

variable {host : Host} {a : Action}

theorem gains_chains (a : Action) : Chains (World.Gains a) where
  refl _ := {}
  trans h h' := {
    objects := h'.objects.trans h.objects
    kept := fun k => List.Subset.trans (h.kept k) (h'.kept k)
    added := fun k g hg => (h'.added k g hg).elim (h.added k g) .inr
    direct := h'.direct.trans h.direct
    named := h'.named.trans h.named
    jobs := h'.jobs.trans h.jobs
    bindings := h'.bindings.trans h.bindings
    assignments := h'.assignments.trans h.assignments
    next := Nat.le_trans h.next h'.next }

namespace Trigger

theorem notifier_eq_ok {types : TypeTable} {w : World} {o o' : ObjectRef}
    (h : Target.notifier types w (.value (.object o)) = .ok o') : o' = o := by
  unfold Target.notifier at h
  simp only at h
  split at h
  · cases h
    rfl
  · cases h

theorem attach_property {n : String} {o : ObjectRef} {g : Handler} (hg : g.payload = .property) {w w' : World}
    {u : Unit} (h : (ChangeSource.property n).attach host (.value (.object o)) g w = .ok u w') :
    w' = w.setHandlers (.changed o.name) (w.handlersOf (.changed o.name) ++ [g]) := by
  obtain ⟨key, w₁, hkey, h⟩ := bind_eq_ok.mp h
  obtain ⟨key', w₂, hevent, hkey⟩ := bind_eq_ok.mp hkey
  obtain ⟨_, _, hget, hevent⟩ := bind_eq_ok.mp hevent
  cases hget
  obtain ⟨o', w₃, hexcept, hevent⟩ := bind_eq_ok.mp hevent
  obtain ⟨hnotifier, rfl⟩ := Effect.ofExcept_eq_ok.mp hexcept
  cases notifier_eq_ok hnotifier
  cases hevent
  have hrequire : g.require (.changed o.name) = .ok () := if_pos hg
  simp only [hrequire] at hkey
  cases hkey
  cases h
  rfl

theorem subscribe_gains {t : Trigger} {o : ObjectRef} {n : String} (ht : t.Observes o n) {w w' : World} {t' : Trigger}
    (h : t.subscribe host a w = .ok (.ok (), t') w') :
    w.Gains a w' ∧ ∃ g ∈ w'.handlersOf (.changed o.name), w.next ≤ g.id ∧ g.response = .onProperty n a := by
  obtain ⟨target, source, label, handler⟩ := t
  obtain ⟨rfl, rfl, rfl⟩ := ht
  obtain ⟨g, hnew, -⟩ := (subscribe_eq_ok rfl).mp h
  obtain ⟨g', w₁, hcreate, hnew⟩ := bind_eq_ok.mp hnew
  cases hcreate
  obtain ⟨u, w₂, hattach, hnew⟩ := bind_eq_ok.mp hnew
  obtain ⟨u', w₃, htell, hnew⟩ := bind_eq_ok.mp hnew
  cases htell
  cases hnew
  cases attach_property rfl hattach
  constructor
  · refine { kept := fun k g hg => World.mem_handlersOf_add.mpr (.inl hg), added := fun k g hg => ?_, next := Nat.le_succ _ }
    refine (World.mem_handlersOf_add.mp hg).imp id ?_
    rintro ⟨-, rfl⟩
    exact ⟨n, rfl⟩
  · exact ⟨⟨w.next, .property, .onProperty n a⟩, World.mem_handlersOf_add.mpr (.inr ⟨rfl, rfl⟩), Nat.le_refl _, rfl⟩

theorem subscribeAll_gains {ts : List Trigger} (ht : ∀ t ∈ ts, ∃ o n, t.Observes o n) {w w' : World}
    {ts' : List Trigger} (h : subscribeAll host a ts w = .ok ts' w') :
    w.Gains a w' ∧ ∀ t ∈ ts, ∀ o n, t.Observes o n →
      ∃ g ∈ w'.handlersOf (.changed o.name), w.next ≤ g.id ∧ g.response = .onProperty n a := by
  have hc := gains_chains a
  induction ts generalizing w w' ts' with
  | nil =>
    cases h
    exact ⟨hc.refl w, fun t ht => absurd ht List.not_mem_nil⟩
  | cons t ts ih =>
    obtain ⟨t₁, w₁, us, hsub, hrest, rfl⟩ := subscribeAll_cons_eq_ok.mp h
    obtain ⟨hg₂, hlist⟩ := ih (fun t hm => ht t (List.mem_cons_of_mem _ hm)) hrest
    obtain ⟨o, n, hobs⟩ := ht t List.mem_cons_self
    obtain ⟨hg₁, -⟩ := subscribe_gains hobs hsub
    refine ⟨hc.trans hg₁ hg₂, fun t' hm o' n' ho => ?_⟩
    rcases List.mem_cons.mp hm with rfl | hm
    · obtain ⟨-, g, hg, hid, hresp⟩ := subscribe_gains ho hsub
      exact ⟨g, hg₂.kept _ hg, hid, hresp⟩
    · obtain ⟨g, hg, hid, hresp⟩ := hlist t' hm o' n' ho
      exact ⟨g, hg, Nat.le_trans hg₁.next hid, hresp⟩

end Trigger

/-! ## Compiling the source -/

open Workbench

section
variable {p : Platform} {config : Configuration} {f f' : Action → Effect Unit}

theorem observed_compiled {e : Expr} (he : ∀ x ∈ e.parts, x.Observed p config) {s s' : Workbench} {g : Getter}
    (h : e.getter? ⟨p, f⟩ s = .ok (some g) s') : Compiled ⟨p, f'⟩ s' e g := by
  have hc : Chains (Guarded (fun _ => True) Keeps) := keeps_chains.guarded
  have hnode : ∀ x ∈ e.parts, x.NodeWithin ⟨p, f⟩ (Guarded (fun _ => True) Keeps) := fun x hx =>
    (he x hx).observed_within hc fun s n r hn _ => ⟨trivial, keeps_insert hn (fun _ _ _ _ ht => ht) r⟩
  exact (Expr.getter?_compiled e hnode trivial h).of_platform e

/-- Compiling an observed expression runs no host code, and what comes of it gives the value of the expression. -/
theorem observed_getter {e : Expr} (he : ∀ x ∈ e.parts, x.Observed p config) {xs : List Expr} (hsub : e.parts ⊆ xs)
    (hn : ∀ x ∈ xs, x.Named xs) {s s' : Workbench} {g : Getter} (hs : s.Fits xs)
    (h : e.getterOrFallback ⟨p, f⟩ s = .ok g s') :
    s'.Fits xs ∧ (∃ log, s'.world = { s.world with log := log }) ∧
      ∀ f' w, Agree w w (g.run ⟨p, f'⟩) (e.eval ⟨p, f'⟩) := by
  obtain ⟨g?, s₁, hg, h⟩ := bind_eq_ok.mp h
  have hsame : Chains fun s s' : Workbench => s'.world = s.world := ⟨fun _ => rfl, fun h h' => h'.trans h⟩
  have hworld : s₁.world = s.world :=
    Expr.getter?_within hsame e (fun x hx => (he x hx).observed_within hsame fun _ _ _ _ => rfl) _ _ _ hg
  have hfits : s₁.Fits xs := by
    refine Expr.getter?_within (Expr.fits_chains xs) e (fun x hx => ?_) _ _ _ hg hs
    refine Expr.node_fits e (fun y hy z hz => hn y (hsub hy) z (hsub hz)) (fun y hy => hn y (hsub hy)) hx
  cases g? with
  | some g₁ =>
    cases h
    refine ⟨hfits, ⟨s.world.log, hworld⟩, fun f' w => ?_⟩
    refine Compiled.agree e (observed_compiled he hg) (fun x hx => ?_) fun x hx => ?_
    · exact (he x hx).agreeNode fun _ _ _ _ => rfl
    · exact (he x hx).sameNode hfits (hsub hx) w
  | none =>
    obtain ⟨u, s₂, hd, h⟩ := bind_eq_ok.mp h
    cases hd
    cases h
    refine ⟨hfits, ⟨_, by rw [← hworld]⟩, fun f' w => ?_⟩
    exact Expr.eval_congr he fun _ _ _ _ => rfl

end

/-! ## The order of construction -/

theorem check_eq_ok {c : Prop} [Decidable c] {e : Error} {β : Type} {f : PUnit → Effect β} {w w' : World} {b : β}
    (h : (if c then Effect.fail e >>= f else f ()) w = .ok b w') : f () w = .ok b w' := by
  split at h
  · cases h
  · exact h

theorem building_eq_ok {id id' : BindingId} {x : Compile Unit} {w w' : World}
    (h : building host id x w = .ok id' w') : id' = id ∧ ∃ s, x ⟨w, .empty⟩ = .ok () s ∧ w' = s.world := by
  cases hr : x ⟨w, .empty⟩ with
  | ok u s =>
    cases (bind_of_ok (withReceivers_of_ok hr)).symm.trans h
    exact ⟨rfl, s, rfl, rfl⟩
  | error e s =>
    cases e with
    | failed e =>
      obtain ⟨u, w₂, -, hf⟩ := bind_eq_ok.mp ((bind_of_ok (withReceivers_of_failed hr)).symm.trans h)
      cases hf
    | exhausted => cases (bind_of_error (withReceivers_of_exhausted hr)).symm.trans h

theorem EqualityBinding.building_of_create {config : Configuration} {flags : Flags} {left right : Expr} {id : BindingId}
    {w w' : World} (h : create host config flags left right w = .ok id w') :
    building host ⟨w.next⟩ (bindSides host config ⟨w.next⟩ flags left right)
      (w.birth (.equality { dispatcher := config.assignments, flags })) = .ok id w' := by
  unfold create at h
  exact check_eq_ok h

theorem ActionBinding.create_eq_building (config : Configuration) (flags : Flags) (e : Expr) (w : World) :
    create host config flags e w = building host ⟨w.next⟩ (bindCall host config ⟨w.next⟩ flags e)
      (w.birth (.action { dispatcher := config.actions, flags })) :=
  rfl

namespace EqualityBinding

theorem start_eq_ok {id : BindingId} {source : Getter} {target : Setter} {w w' : World} {done : Bool}
    (h : start host id .empty source target w = .ok done w') :
    done = false ∧ ∃ v w₁ u, source.run host w = .ok v w₁ ∧
      assign host id target v (w₁.updateEquality id fun b => { b with value := v }) = .ok u w' := by
  obtain ⟨v, w₁, hv, h⟩ := bind_eq_ok.mp h
  obtain ⟨u, w₂, hmod, h⟩ := bind_eq_ok.mp h
  cases modify_eq_ok.mp hmod
  obtain ⟨u', w₃, hassign, h⟩ := bind_eq_ok.mp h
  cases h
  exact ⟨rfl, v, w₁, u', hv, hassign⟩

/-- What a one-way binding has done when its left side is bound. -/
structure Bound (host : Host) (config : Configuration) (id : BindingId) (right : Expr) (target : Setter)
    (s : Workbench) where
  source : Getter
  compiled : Workbench
  started : World
  triggers : List Trigger
  collected : Workbench
  subscriptions : List Trigger
  subscribed : World
  hsource : right.getterOrFallback host s = .ok source compiled
  hstart : start host id .empty source target compiled.world = .ok false started
  htriggers : right.triggers host config ⟨started, compiled.receivers⟩ = .ok triggers collected
  hsubscribe : Trigger.subscribeAll host (.follow id source target) triggers collected.world =
    .ok subscriptions subscribed

variable {config : Configuration} {id : BindingId} {left right : Expr} {target : Setter} {s₁ : Workbench}

def Bound.world (B : Bound host config id right target s₁) : World :=
  B.subscribed.updateEquality id fun b => { b with right := B.subscriptions }

theorem bindLeft_eq_ok {s s' : Workbench} {r : Bool × Bool}
    (h : bindLeft host config id .empty left right s = .ok r s')
    (hset : left.setter? host (some config.setters) s = .ok (some target) s₁) :
    r = (false, true) ∧ ∃ B : Bound host config id right target s₁, s'.world = B.world := by
  obtain ⟨t?, s₂, hset', hbind⟩ := bind_eq_ok.mp h
  cases hset.symm.trans hset'
  obtain ⟨source, s₃, hsource, hbind⟩ := bind_eq_ok.mp hbind
  obtain ⟨done, s₄, hlift, hbind⟩ := bind_eq_ok.mp hbind
  obtain ⟨w₄, hstart, hs₄⟩ := lift_eq_ok.mp hlift
  obtain ⟨hdone, -⟩ := start_eq_ok hstart
  subst hdone hs₄
  obtain ⟨ts', s₅, hobserve, hbind⟩ := bind_eq_ok.mp hbind
  obtain ⟨ts, s₆, htriggers, hlift⟩ := bind_eq_ok.mp hobserve
  obtain ⟨w₆, hsubscribe, hs₅⟩ := lift_eq_ok.mp hlift
  subst hs₅
  obtain ⟨u, s₇, hmod, hend⟩ := bind_eq_ok.mp hbind
  cases modify_eq_ok.mp hmod
  cases hend
  exact ⟨rfl, ⟨source, s₃, w₄, ts, s₆, ts', w₆, hsource, hstart, htriggers, hsubscribe⟩, rfl⟩

/-- A one-way binding whose left side has a setter binds that side, and tells at most that it observes nothing. -/
theorem create_eq_ok {w₀ w₁ : World} (h : create host config .empty left right w₀ = .ok id w₁)
    (hset : left.setter? host (some config.setters)
      ⟨w₀.registering { dispatcher := config.assignments, flags := .empty }, .empty⟩ = .ok (some target) s₁) :
    id = ⟨w₀.next⟩ ∧ ∃ B : Bound host config id right target s₁, ∃ log, w₁ = { B.world with log := log } := by
  obtain ⟨rfl, s, hsides, rfl⟩ := building_eq_ok (building_of_create h)
  obtain ⟨r, s₃, hleft, hrest⟩ := bind_eq_ok.mp hsides
  obtain ⟨hr, B, hworld⟩ := bindLeft_eq_ok hleft hset
  subst hr
  have htwo : Flags.empty.isTwoWay = false := by decide
  simp only [Bool.false_eq_true, if_false, htwo] at hrest
  obtain ⟨_, _, hg, hrest⟩ := bind_eq_ok.mp hrest
  cases hg
  refine ⟨rfl, B, ?_⟩
  rw [← hworld]
  cases hb : s₃.world.equality? ⟨w₀.next⟩ with
  | none =>
    rw [hb] at hrest
    cases hrest
    exact ⟨_, rfl⟩
  | some b =>
    rw [hb] at hrest
    by_cases hempty : (b.left.isEmpty && b.right.isEmpty) = true
    · simp only [hempty, if_true] at hrest
      obtain ⟨w₈, hwarn, hs⟩ := lift_eq_ok.mp hrest
      subst hs
      exact ⟨_, modify_eq_ok.mp hwarn⟩
    · simp only [hempty] at hrest
      cases hrest
      exact ⟨_, rfl⟩

end EqualityBinding

end DataBinding
