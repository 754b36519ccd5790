import DataBinding.Proofs.Run.Resolve
import DataBinding.Proofs.Subscription.Source
import DataBinding.Proofs.Tracking.Build

/-!
# Creating bindings

Until the triggers of a new binding are subscribed nothing leads to it, so whatever host code the construction runs leaves
it as it is (`World.Awaits`). After that only two-way bindings run further code, to bind their other side; it must not
do more than store (`bindRight_ledger`).
-/

namespace DataBinding

open Effect Compile

section
variable {p : Platform} {w w' : World} {id : BindingId} {a : Action} {ts : List Trigger}

/-! ## Waiting for triggers -/

theorem World.held_eq {s : Binding} (h : w.bindings.find? id = some s) (k : EventKey) : w.held id k = s.attachedAt k := by
  unfold World.held
  rw [h]
  rfl

/-- Nothing leads to the binding, which has this state. -/
structure World.Awaits (p : Platform) (id : BindingId) (s : Binding) (w : World) : Prop where
  accounted : w.Accounted p
  hidden : w.Hidden id
  found : w.bindings.find? id = some s

theorem World.Awaits.ledger {s : Binding} (h : w.Awaits p id s) (hl : World.Ledger p untouched w w') :
    w'.Awaits p id s := by
  obtain ⟨ha, hr⟩ := hl h.accounted
  obtain ⟨hh, hf⟩ := hr.hidden id h.hidden fun hu => hu
  exact ⟨ha, hh, hf.trans h.found⟩

theorem reaches_setBinding {s : Binding} {x : BindingId} (h : (w.setBinding id s).Reaches x) : w.Reaches x := by
  cases h with
  | handler hk ht => exact .handler hk ht
  | direct hd ht => exact .direct hd ht
  | name hn => exact .name hn

theorem World.Awaits.update {s s' : Binding} (h : w.Awaits p id s) (hs : s'.Sound p w id)
    (hheld : ∀ k, s'.attachedAt k = s.attachedAt k) :
    (w.setBinding id s').Awaits p id s' ∧ w.Respects (· = id) (w.setBinding id s') := by
  obtain ⟨ha, hr⟩ := h.accounted.update hs fun k => (hheld k).trans (World.held_eq h.found k).symm
  refine ⟨⟨ha, ⟨h.hidden.1, fun hreach => h.hidden.2 (reaches_setBinding hreach)⟩, ?_⟩, hr⟩
  rw [World.find?_setBinding, if_pos rfl]

/-! ## The states of bindings under construction -/

theorem equality_sound {b : EqualityBinding} (hid : id.index < w.next) (hd : b.disposed = false)
    (h : ∀ t ∈ b.left ++ b.right, t.Sound p w id) : (Binding.equality b).Sound p w id := by
  refine ⟨hid, fun _ => h, fun _ => rfl, fun hdisposed => ?_, fun _ _ _ he => nomatch he⟩
  cases hd.symm.trans hdisposed

theorem action_sound {b : ActionBinding} (hid : id.index < w.next) (hd : b.disposed = false)
    (h : ∀ t ∈ b.triggers, t.Sound p w id) : (Binding.action b).Sound p w id := by
  refine ⟨hid, fun _ => h, fun _ => rfl, fun hdisposed => ?_, fun _ _ _ he => nomatch he⟩
  cases hd.symm.trans hdisposed

theorem attachedAt_equality {b : EqualityBinding} (hd : b.disposed = false) (k : EventKey) :
    (Binding.equality b).attachedAt k = heldAt k (b.left ++ b.right) := by
  unfold Binding.attachedAt Binding.isDisposed
  simp only [hd]
  rfl

theorem attachedAt_action {b : ActionBinding} (hd : b.disposed = false) (k : EventKey) :
    (Binding.action b).attachedAt k = heldAt k b.triggers := by
  unfold Binding.attachedAt Binding.isDisposed
  simp only [hd]
  rfl

theorem attachedAt_perm {s s' : Binding} (hd : s.isDisposed = false) (hd' : s'.isDisposed = false)
    (h : s'.triggers.Perm (s.triggers ++ ts)) (k : EventKey) :
    (s'.attachedAt k).Perm (s.attachedAt k ++ heldAt k ts) := by
  unfold Binding.attachedAt
  simp only [hd, hd', Bool.false_eq_true, if_false]
  rw [← heldAt_append]
  exact h.filterMap _

theorem World.Accounted.take {s s' : Binding} (hw : w.Accounted p) (hs : w.bindings.find? id = some s)
    (ha : World.Attaches p a ts w w') (htouches : ∀ x, a.Touches x → x = id)
    (hreliable : ∀ t ∈ ts, t.source.isReliable = true) (hd : s.isDisposed = false) (hd' : s'.isDisposed = false)
    (htriggers : s'.triggers.Perm (s.triggers ++ ts))
    (hsound : ∀ w'' : World, id.index < w''.next → (∀ t ∈ s'.triggers, t.Sound p w'' id) → s'.Sound p w'' id) :
    (w'.setBinding id s').Accounted p ∧ w.Respects (· = id) (w'.setBinding id s') := by
  have hold := hw.sound id s (Table.mem_entries hs)
  have hnew := ha.sound htouches hreliable
  apply hw.attach ha
  · exact fun t ht => isDirect_of_reliable (hreliable t ht)
  · apply hsound
    · exact Nat.lt_of_lt_of_le hold.issued ha.next
    · intro t ht
      rcases List.mem_append.mp (htriggers.mem_iff.mp ht) with ht | ht
      · exact (hold.live hd t ht).mono (offersSame_of_objects ha.objects) ha.next
      · exact (hnew t ht).mono (offersSame_of_objects rfl) (Nat.le_refl _)
  · intro k
    rw [World.held_eq hs]
    exact attachedAt_perm hd hd' htriggers k

theorem held_next (hw : w.Accounted p) (k : EventKey) : w.held ⟨w.next⟩ k = [] := by
  unfold World.held
  cases hf : w.bindings.find? ⟨w.next⟩ with
  | none => rfl
  | some s => exact absurd (hw.sound _ _ (Table.mem_entries hf)).issued (Nat.lt_irrefl _)

theorem birth_awaits {s : Binding} (hw : w.Accounted p)
    (hs : ∀ w' : World, w.next < w'.next → s.Sound p w' ⟨w.next⟩) (hnone : ∀ k, s.attachedAt k = []) :
    ({ w with next := w.next + 1 }.setBinding ⟨w.next⟩ s).Awaits p ⟨w.next⟩ s ∧
      World.Ledger p (· = ⟨w.next⟩) w ({ w with next := w.next + 1 }.setBinding ⟨w.next⟩ s) := by
  have hstores : w.Stores { w with next := w.next + 1 } := { next := Nat.le_succ _ }
  have hl := ledger_stores (p := p) hstores
  obtain ⟨hw₁, -⟩ := hl hw
  have hnew : ¬ w.Reaches ⟨w.next⟩ := fun hr => Nat.lt_irrefl _ (hw.reaches_issued hr)
  have hhidden : { w with next := w.next + 1 }.Hidden ⟨w.next⟩ := by
    refine ⟨Nat.lt_succ_self _, fun hr => hnew ?_⟩
    cases hr with
    | handler hk ht => exact .handler hk ht
    | direct hd ht => exact .direct hd ht
    | name hn => exact .name hn
  obtain ⟨hw₂, hr₂⟩ := hw₁.update (hs _ (Nat.lt_succ_self _)) fun k => (hnone k).trans (held_next hw k).symm
  refine ⟨⟨hw₂, ⟨hhidden.1, fun hr => hhidden.2 (reaches_setBinding hr)⟩, ?_⟩, ?_⟩
  · rw [World.find?_setBinding, if_pos rfl]
  · exact (ledger_chains p _).trans (ledger_widen hl) fun _ => ⟨hw₂, hr₂⟩

/-! ## Equality bindings -/

/-- A new equality binding that has no triggers yet. -/
structure EqualityBinding.Blank (flags : Flags) (b : EqualityBinding) : Prop where
  flags : b.flags = flags
  live : b.disposed = false
  left : b.left = []
  right : b.right = []

theorem EqualityBinding.Blank.sound {flags : Flags} {b : EqualityBinding} (hb : b.Blank flags) (hid : id.index < w.next) :
    (Binding.equality b).Sound p w id := by
  apply equality_sound hid hb.live
  rw [hb.left, hb.right]
  exact List.forall_mem_nil _

theorem EqualityBinding.Blank.attachedAt {flags : Flags} {b : EqualityBinding} (hb : b.Blank flags) (k : EventKey) :
    (Binding.equality b).attachedAt k = [] := by
  rw [attachedAt_equality hb.live, hb.left, hb.right]
  rfl

theorem observe_eq_ok {f : Action → Effect Unit} {config : Configuration} {side : Expr} {source : Getter} {target : Setter}
    {R : World → World → Prop} {s s' : Workbench} (ht : Lasts (OnWorld R) (side.triggers ⟨p, f⟩ config))
    (hconfig : config.Reliable p.types) (h : EqualityBinding.observe ⟨p, f⟩ config id side source target s = .ok ts s') :
    ∃ w₁, R s.world w₁ ∧ World.Attaches p (.follow id source target) ts w₁ s'.world ∧
      ∀ t ∈ ts, t.source.isReliable = true := by
  obtain ⟨us, s₁, htriggers, h⟩ := bind_eq_ok.mp h
  obtain ⟨w₂, hsubscribe, rfl⟩ := lift_eq_ok.mp h
  have hus := Expr.triggers_configured side _ _ _ htriggers
  obtain ⟨hattaches, rfl⟩ := Trigger.subscribeAll_ok (fun t ht => (hus t ht).1) hsubscribe
  refine ⟨s₁.world, ht.ok _ _ _ htriggers, hattaches, fun t ht => ?_⟩
  obtain ⟨-, m, type, hsource⟩ := hus t.detached (List.mem_map_of_mem ht)
  exact hconfig.members m type _ hsource

theorem takeSide_ledger {f : Action → Effect Unit} {config : Configuration} {b : EqualityBinding} {side : Expr}
    {source : Getter} {target : Setter} {R : World → World → Prop} {s s' : Workbench} {α : Type} {r r' : α}
    {g : List Trigger → EqualityBinding → EqualityBinding} (hconfig : config.Reliable p.types)
    (ht : Lasts (OnWorld R) (side.triggers ⟨p, f⟩ config))
    (hR : ∀ w, R s.world w → World.Ledger p untouched s.world w ∧ w.bindings.find? id = some (.equality b))
    (hlive : b.disposed = false) (htake : ∀ ts, (g ts b).disposed = false ∧
      (Binding.equality (g ts b)).triggers.Perm ((Binding.equality b).triggers ++ ts))
    (h : (do
      let ts ← EqualityBinding.observe ⟨p, f⟩ config id side source target
      modify fun s => { s with world := s.world.updateEquality id (g ts) }
      return r : Compile α) s = .ok r' s') :
    World.Ledger p (· = id) s.world s'.world ∧ r' = r ∧
      ∃ ts, s'.world.bindings.find? id = some (.equality (g ts b)) := by
  obtain ⟨ts, s₁, hobserve, h⟩ := bind_eq_ok.mp h
  obtain ⟨w₁, hr, ha, hreliable⟩ := observe_eq_ok ht hconfig hobserve
  obtain ⟨hl, hfound⟩ := hR w₁ hr
  obtain ⟨u, s₂, hmod, h⟩ := bind_eq_ok.mp h
  cases modify_eq_ok.mp hmod
  cases h
  have hfound' : s₁.world.bindings.find? id = some (.equality b) := by rw [ha.bindings, hfound]
  rw [updateEquality_found hfound']
  obtain ⟨hdisposed, hperm⟩ := htake ts
  have hlive' : (Binding.equality (g ts b)).isDisposed = false := hdisposed
  refine ⟨(ledger_chains p _).trans (ledger_widen hl) fun hw => ?_, rfl, ts, ?_⟩
  · apply hw.take hfound ha (fun _ hx => hx) hreliable hlive hlive' hperm
    exact fun w'' hid => equality_sound hid hdisposed
  · exact (World.find?_setBinding _ _ _ _).trans (if_pos rfl)

section
variable {f : Action → Effect Unit} (hl : Host.Lasting ⟨p, f⟩ (World.Ledger p untouched)) {config : Configuration}
  {flags : Flags}
include hl

theorem assign_awaits {b : EqualityBinding} (hw : w.Awaits p id (.equality b)) {target : Setter} {v : Value} {u : Unit}
    (h : EqualityBinding.assign ⟨p, f⟩ id target v w = .ok u w') :
    World.Ledger p (· = id) w w' ∧ (b.flags.isOneTime = false → w'.Awaits p id (.equality b)) := by
  obtain ⟨_, _, hg, h⟩ := bind_eq_ok.mp h
  cases hg
  rw [World.equality?_eq_some.mpr hw.found] at h
  obtain ⟨u, w₁, hdispatch, h⟩ := bind_eq_ok.mp h
  have hl₁ := (hl.dispatch _ _).ok _ _ _ hdispatch
  cases hone : b.flags.isOneTime with
  | true =>
    rw [hone] at h
    exact ⟨(ledger_chains p _).trans (ledger_widen hl₁) ((dispose_ledger p f id).ok _ _ _ h), nofun⟩
  | false =>
    rw [hone] at h
    cases h
    exact ⟨ledger_widen hl₁, fun _ => hw.ledger hl₁⟩

theorem start_awaits {b : EqualityBinding} (hw : w.Awaits p id (.equality b)) (hb : b.Blank flags) {source : Getter}
    {target : Setter} {finished : Bool}
    (h : EqualityBinding.start ⟨p, f⟩ id flags source target w = .ok finished w') :
    World.Ledger p (· = id) w w' ∧ (finished = false → ∃ b, w'.Awaits p id (.equality b) ∧ b.Blank flags) := by
  have hc := ledger_chains p (· = id)
  obtain ⟨v, w₁, hrun, h⟩ := bind_eq_ok.mp h
  have hl₁ := (hl.getter source).ok _ _ _ hrun
  have hw₁ := hw.ledger hl₁
  obtain ⟨u, w₂, hmod, h⟩ := bind_eq_ok.mp h
  cases modify_eq_ok.mp hmod
  rw [updateEquality_found hw₁.found] at h
  have hb₂ : ({ b with value := v } : EqualityBinding).Blank flags := ⟨hb.flags, hb.live, hb.left, hb.right⟩
  obtain ⟨hw₂, hr₂⟩ := hw₁.update (hb₂.sound hw₁.hidden.1) fun k => (hb₂.attachedAt k).trans (hb.attachedAt k).symm
  have hl₂ : World.Ledger p (· = id) w (w₁.setBinding id (.equality { b with value := v })) :=
    hc.trans (ledger_widen hl₁) fun _ => ⟨hw₂.accounted, hr₂⟩
  cases hinitial : flags.hasInitialTrigger with
  | false =>
    simp only [hinitial, Bool.not_false, if_true] at h
    cases h
    exact ⟨hl₂, fun _ => ⟨_, hw₂, hb₂⟩⟩
  | true =>
    simp only [hinitial, Bool.not_true, Bool.false_eq_true, if_false] at h
    obtain ⟨u, w₃, hassign, h⟩ := bind_eq_ok.mp h
    cases h
    obtain ⟨hl₃, hw₃⟩ := assign_awaits hl hw₂ hassign
    refine ⟨hc.trans hl₂ hl₃, fun hone => ⟨_, hw₃ ?_, hb₂⟩⟩
    exact hb.flags ▸ hone

/-- The right side of a binding is not bound yet, or it has the triggers. -/
structure World.HalfBound (id : BindingId) (flags : Flags) (leftBound : Bool) (w : World) (b : EqualityBinding) : Prop where
  found : w.bindings.find? id = some (.equality b)
  flags : b.flags = flags
  live : b.disposed = false
  left : b.left = []
  hidden : leftBound = false → b.right = [] ∧ w.Hidden id

theorem bindLeft_ledger (hconfig : config.Reliable p.types) {b : EqualityBinding} {left right : Expr} {s s' : Workbench}
    (hw : s.world.Awaits p id (.equality b)) (hb : b.Blank flags) {finished leftBound : Bool}
    (h : EqualityBinding.bindLeft ⟨p, f⟩ config id flags left right s = .ok (finished, leftBound) s') :
    World.Ledger p (· = id) s.world s'.world ∧
      (finished = false → ∃ b, s'.world.HalfBound id flags leftBound b) := by
  have hc := ledger_chains p (· = id)
  obtain ⟨target?, s₁, hset, h⟩ := bind_eq_ok.mp h
  have hl₁ := (Expr.setter?_lasts hl.chains hl.stores _ left fun x _ => hl.part x).ok _ _ _ hset
  have hw₁ := hw.ledger hl₁
  cases target? with
  | none =>
    obtain ⟨u, s₂, hwarn, h⟩ := bind_eq_ok.mp h
    cases h
    have hl₂ := (lasts_lift (hl.tell _)).ok _ _ _ hwarn
    have hw₂ := hw₁.ledger hl₂
    refine ⟨ledger_widen (hl.chains.trans hl₁ hl₂), fun _ => ⟨b, hw₂.found, hb.flags, hb.live, hb.left, fun _ => ?_⟩⟩
    exact ⟨hb.right, hw₂.hidden⟩
  | some target =>
    obtain ⟨source, s₂, hsource, h⟩ := bind_eq_ok.mp h
    have hl₂ := (Expr.getterOrFallback_lasts hl.chains hl.stores right fun x _ => hl.part x).ok _ _ _ hsource
    have hw₂ := hw₁.ledger hl₂
    have hl₂' : World.Ledger p (· = id) s.world s₂.world := ledger_widen (hl.chains.trans hl₁ hl₂)
    obtain ⟨done, s₃, hlift, h⟩ := bind_eq_ok.mp h
    obtain ⟨w₃, hstart, rfl⟩ := lift_eq_ok.mp hlift
    obtain ⟨hl₃, hw₃⟩ := start_awaits hl hw₂ hb hstart
    cases done with
    | true =>
      cases h
      exact ⟨hc.trans hl₂' hl₃, nofun⟩
    | false =>
      obtain ⟨b₃, hw₃, hb₃⟩ := hw₃ rfl
      have hkept : ∀ w, World.Ledger p untouched w₃ w →
          World.Ledger p untouched w₃ w ∧ w.bindings.find? id = some (.equality b₃) := fun w hl => ⟨hl, (hw₃.ledger hl).found⟩
      obtain ⟨hl₄, hr, ts, hfound⟩ := takeSide_ledger (g := fun ts b => { b with right := ts }) hconfig
        (Expr.triggers_lasts hl.chains hl.stores right fun x _ => hl.part x) hkept hb₃.live
        (fun ts => ⟨hb₃.live, by simp [Binding.triggers, hb₃.left, hb₃.right]⟩) h
      cases hr
      exact ⟨hc.trans hl₂' (hc.trans hl₃ hl₄), fun _ => ⟨_, hfound, hb₃.flags, hb₃.live, hb₃.left, nofun⟩⟩

/-- What binding the other side of a two-way binding runs does not do more than store. -/
def Mild (host : Host) (left right : Expr) : Prop := ∀ x ∈ left.parts ++ right.parts, x.PartLasts host World.Stores

theorem bindRight_ledger (hconfig : config.Reliable p.types) {b : EqualityBinding} {left right : Expr} {s s' : Workbench}
    {leftBound finished : Bool} (hmild : Mild ⟨p, f⟩ left right) (hw : s.world.Accounted p)
    (hb : s.world.HalfBound id flags leftBound b)
    (h : EqualityBinding.bindRight ⟨p, f⟩ config id flags left right leftBound s = .ok finished s') :
    World.Ledger p (· = id) s.world s'.world := by
  have hc := ledger_chains p (· = id)
  have hleft : ∀ x ∈ left.parts, x.PartLasts ⟨p, f⟩ World.Stores := fun x hx => hmild x (List.mem_append_left _ hx)
  have hright : ∀ x ∈ right.parts, x.PartLasts ⟨p, f⟩ World.Stores := fun x hx => hmild x (List.mem_append_right _ hx)
  -- The last step, from a binding that may have triggers for its right side.
  have hobserve {s s' : Workbench} {b : EqualityBinding} {source : Getter} {target : Setter}
      (hfound : s.world.bindings.find? id = some (.equality b)) (hlive : b.disposed = false) (hnone : b.left = [])
      (h : (do
        let ts ← EqualityBinding.observe ⟨p, f⟩ config id left source target
        modify fun s => { s with world := s.world.updateEquality id fun b => { b with left := ts } }
        return false : Compile Bool) s = .ok finished s') : World.Ledger p (· = id) s.world s'.world := by
    have hkept : ∀ w, s.world.Stores w →
        World.Ledger p untouched s.world w ∧ w.bindings.find? id = some (.equality b) := by
      intro w hstores
      exact ⟨ledger_stores hstores, by rw [hstores.bindings, hfound]⟩
    have htake (ts : List Trigger) :
        (Binding.equality { b with left := ts }).triggers.Perm ((Binding.equality b).triggers ++ ts) := by
      simp only [Binding.triggers, hnone, List.nil_append]
      exact List.perm_append_comm
    exact (takeSide_ledger (g := fun ts b => { b with left := ts }) hconfig
      (Expr.triggers_lasts World.stores_chains (fun hs => hs) left hleft) hkept hlive (fun ts => ⟨hlive, htake ts⟩) h).1
  obtain ⟨target?, s₁, hset, h⟩ := bind_eq_ok.mp h
  have hs₁ : s.world.Stores s₁.world :=
    (Expr.setter?_lasts World.stores_chains (fun hs => hs) _ right hright).ok _ _ _ hset
  cases target? with
  | none =>
    obtain ⟨u, s₂, hwarn, h⟩ := bind_eq_ok.mp h
    cases h
    exact hc.trans (ledger_widen (ledger_stores hs₁)) (ledger_widen ((lasts_lift (hl.tell _)).ok _ _ _ hwarn))
  | some target =>
    obtain ⟨source, s₂, hsource, h⟩ := bind_eq_ok.mp h
    have hs₂ : s.world.Stores s₂.world := World.stores_chains.trans hs₁
      ((Expr.getterOrFallback_lasts World.stores_chains (fun hs => hs) left hleft).ok _ _ _ hsource)
    have hl₂ := ledger_stores (p := p) hs₂
    have hfound : s₂.world.bindings.find? id = some (.equality b) := by rw [hs₂.bindings, hb.found]
    cases leftBound with
    | true => exact hc.trans (ledger_widen hl₂) (hobserve hfound hb.live hb.left h)
    | false =>
      obtain ⟨hnone, hhidden⟩ := hb.hidden rfl
      have hw₂ := World.Awaits.ledger ⟨hw, hhidden, hb.found⟩ hl₂
      obtain ⟨done, s₃, hlift, h⟩ := bind_eq_ok.mp h
      obtain ⟨w₃, hstart, rfl⟩ := lift_eq_ok.mp hlift
      obtain ⟨hl₃, hw₃⟩ := start_awaits hl hw₂ ⟨hb.flags, hb.live, hb.left, hnone⟩ hstart
      cases done with
      | true =>
        cases h
        exact hc.trans (ledger_widen hl₂) hl₃
      | false =>
        obtain ⟨b₃, hw₃, hb₃⟩ := hw₃ rfl
        exact hc.trans (ledger_widen hl₂) (hc.trans hl₃ (hobserve hw₃.found hb₃.live hb₃.left h))

theorem bindSides_ledger (hconfig : config.Reliable p.types) {b : EqualityBinding} {left right : Expr} {s s' : Workbench}
    {u : Unit} (hmild : flags.isTwoWay = true → Mild ⟨p, f⟩ left right) (hw : s.world.Awaits p id (.equality b))
    (hb : b.Blank flags) (h : EqualityBinding.bindSides ⟨p, f⟩ config id flags left right s = .ok u s') :
    World.Ledger p (· = id) s.world s'.world := by
  have hc := ledger_chains p (· = id)
  have hend : Lasts (OnWorld (World.Ledger p (· = id))) 
      (EqualityBinding.warnUntriggered ⟨p, f⟩ id left right) := by
    apply always_get (onWorld_chains hc)
    intro s
    split
    · split
      · exact lasts_lift ((hl.tell _).mono ledger_widen)
      · exact always_pure (onWorld_chains hc) _
    · exact always_pure (onWorld_chains hc) _
  obtain ⟨⟨finished, leftBound⟩, s₁, hleft, h⟩ := bind_eq_ok.mp h
  obtain ⟨hl₁, hhalf⟩ := bindLeft_ledger hl hconfig hw hb hleft
  cases finished with
  | true =>
    cases h
    exact hl₁
  | false =>
    obtain ⟨b₁, hhalf⟩ := hhalf rfl
    cases htwo : flags.isTwoWay with
    | false =>
      simp only [htwo, Bool.false_eq_true, if_false] at h
      exact hc.trans hl₁ (hend.ok _ _ _ h)
    | true =>
      simp only [htwo, Bool.false_eq_true, if_false, if_true] at h
      obtain ⟨finished, s₂, hright, h⟩ := bind_eq_ok.mp h
      have hl₂ := bindRight_ledger hl hconfig (hmild htwo) (hl₁ hw.accounted).1 hhalf hright
      cases finished with
      | true =>
        cases h
        exact hc.trans hl₁ hl₂
      | false => exact hc.trans hl₁ (hc.trans hl₂ (hend.ok _ _ _ h))

theorem equalityCreate_ledger (hconfig : config.Reliable p.types) {left right : Expr}
    (hmild : flags.isTwoWay = true → Mild ⟨p, f⟩ left right) (hw : w.Accounted p)
    (h : EqualityBinding.create ⟨p, f⟩ config flags left right w = .ok id w') :
    id = ⟨w.next⟩ ∧ w.next < w'.next ∧ World.Ledger p (· = id) w w' := by
  obtain ⟨rfl, s, hsides, rfl⟩ := building_eq_ok (EqualityBinding.building_of_create h)
  have hb : EqualityBinding.Blank flags { dispatcher := config.assignments, flags } := ⟨rfl, rfl, rfl, rfl⟩
  obtain ⟨hw₂, hl₂⟩ := birth_awaits hw (s := .equality { dispatcher := config.assignments, flags })
    (fun w' hn => hb.sound hn) hb.attachedAt
  have hl₃ := bindSides_ledger hl hconfig hmild hw₂ hb hsides
  exact ⟨rfl, (hl₃ hw₂.accounted).2.next, (ledger_chains p _).trans hl₂ hl₃⟩

end

/-! ## Action bindings -/

theorem takeCall_ledger {f : Action → Effect Unit} {config : Configuration} (hconfig : config.Reliable p.types)
    {b : ActionBinding} {g : Getter} {s s' : Workbench} {u : Unit}
    (hw : s.world.Awaits p id (.action b)) (hlive : b.disposed = false) (hnone : b.triggers = [])
    {us : List Trigger} (hus : ∀ t ∈ us, t.Configured p.types config) (h : ActionBinding.take ⟨p, f⟩ id g us s = .ok u s') :
    World.Ledger p (· = id) s.world s'.world := by
  obtain ⟨ts, s₂, hlift, hmod⟩ := bind_eq_ok.mp h
  obtain ⟨w₂, hsub, rfl⟩ := lift_eq_ok.mp hlift
  obtain ⟨ha, hts⟩ := Trigger.subscribeAll_ok (fun t ht => (hus t ht).1) hsub
  cases modify_eq_ok.mp hmod
  have hfound : w₂.bindings.find? id = some (.action b) := by rw [ha.bindings, hw.found]
  simp only [updateAction_found hfound]
  intro hw'
  have hlive' : (Binding.action { b with triggers := ts }).isDisposed = false := hlive
  apply hw'.take hw.found ha (fun _ hx => hx) ?_ hlive hlive'
  · simp [Binding.triggers, hnone]
  · exact fun w'' hid => action_sound hid hlive
  · intro t ht
    obtain ⟨-, m, type, hsource⟩ := hus t.detached (hts ▸ List.mem_map_of_mem ht)
    exact hconfig.members m type _ hsource

section
variable {f : Action → Effect Unit} (hl : Host.Lasting ⟨p, f⟩ (World.Ledger p untouched)) {config : Configuration}
  {flags : Flags}
include hl

theorem observeCall_ledger (hconfig : config.Reliable p.types) {b : ActionBinding} {e : Expr} {g : Getter} {s s' : Workbench}
    {u : Unit} (hw : s.world.Awaits p id (.action b)) (hlive : b.disposed = false) (hnone : b.triggers = [])
    (h : ActionBinding.observe ⟨p, f⟩ config id e g s = .ok u s') : World.Ledger p (· = id) s.world s'.world := by
  have hc := ledger_chains p (· = id)
  obtain ⟨us, s₁, htriggers, h⟩ := bind_eq_ok.mp h
  have hl₁ := (Expr.triggers_lasts hl.chains hl.stores e fun x _ => hl.part x).ok _ _ _ htriggers
  have hus := Expr.triggers_configured e _ _ _ htriggers
  by_cases hempty : us.isEmpty = true
  · simp only [hempty, if_true] at h
    obtain ⟨_, s₂, hwarn, h⟩ := bind_eq_ok.mp h
    have hl₂ := hl.chains.trans hl₁ ((lasts_lift (hl.tell _)).ok _ _ _ hwarn)
    exact hc.trans (ledger_widen hl₂) (takeCall_ledger hconfig (hw.ledger hl₂) hlive hnone hus h)
  · simp only [hempty] at h
    exact hc.trans (ledger_widen hl₁) (takeCall_ledger hconfig (hw.ledger hl₁) hlive hnone hus h)

theorem bindCall_ledger (hconfig : config.Reliable p.types) {b : ActionBinding} {e : Expr} {s s' : Workbench} {u : Unit}
    (hw : s.world.Awaits p id (.action b)) (hlive : b.disposed = false) (hnone : b.triggers = [])
    (h : ActionBinding.bindCall ⟨p, f⟩ config id flags e s = .ok u s') :
    World.Ledger p (· = id) s.world s'.world := by
  have hc := ledger_chains p (· = id)
  obtain ⟨g, s₁, hgetter, h⟩ := bind_eq_ok.mp h
  have hl₁ := (Expr.getterOrFallback_lasts hl.chains hl.stores e fun x _ => hl.part x).ok _ _ _ hgetter
  have hw₁ := hw.ledger hl₁
  by_cases hinitial : flags.hasInitialTrigger = true
  · simp only [hinitial, if_true] at h
    obtain ⟨_, s₂, hdispatch, h⟩ := bind_eq_ok.mp h
    have hl₂ := hl.chains.trans hl₁ ((lasts_lift (hl.dispatch _ _)).ok _ _ _ hdispatch)
    have hw₂ := hw.ledger hl₂
    by_cases hone : flags.isOneTime = true
    · simp only [hone, if_true] at h
      obtain ⟨_, s₃, hmod, h⟩ := bind_eq_ok.mp h
      cases modify_eq_ok.mp hmod
      cases h
      simp only [updateAction_found hw₂.found]
      have hs : (Binding.action { b with disposed := true }).Sound p s₂.world id := by
        refine ⟨hw₂.hidden.1, nofun, nofun, fun _ => ?_, fun _ _ _ he => nomatch he⟩
        simp [Binding.handlers, hnone]
      obtain ⟨hw₃, hr₃⟩ := hw₂.update hs fun k => by rw [attachedAt_action hlive, hnone]; rfl
      exact hc.trans (ledger_widen hl₂) fun _ => ⟨hw₃.accounted, hr₃⟩
    · simp only [hone] at h
      exact hc.trans (ledger_widen hl₂) (observeCall_ledger hl hconfig hw₂ hlive hnone h)
  · simp only [hinitial] at h
    exact hc.trans (ledger_widen hl₁) (observeCall_ledger hl hconfig hw₁ hlive hnone h)

theorem actionCreate_ledger (hconfig : config.Reliable p.types) {e : Expr} (hw : w.Accounted p)
    (h : ActionBinding.create ⟨p, f⟩ config flags e w = .ok id w') :
    id = ⟨w.next⟩ ∧ w.next < w'.next ∧ World.Ledger p (· = id) w w' := by
  rw [ActionBinding.create_eq_building] at h
  obtain ⟨rfl, s, hcall, rfl⟩ := building_eq_ok h
  have hnew : ∀ w' : World, w.next < w'.next →
      (Binding.action { dispatcher := config.actions, flags }).Sound p w' ⟨w.next⟩ := by
    intro w' hn
    exact action_sound hn rfl (List.forall_mem_nil _)
  obtain ⟨hw₂, hl₂⟩ := birth_awaits hw hnew fun k => rfl
  have hl₃ := bindCall_ledger hl hconfig hw₂ rfl rfl hcall
  exact ⟨rfl, (hl₃ hw₂.accounted).2.next, (ledger_chains p _).trans hl₂ hl₃⟩

end

/-! ## Event bindings -/

theorem event_key {f : Action → Effect Unit} {r : ObjectRef} {e : EventName} {g : Handler} (hr : r.kind = .model)
    (hg : g.payload = e.payload) :
    (ChangeSource.event e).key? ⟨p, f⟩ (.value (.object r)) g w = .ok (some (.named r.name e)) w := by
  have hobject : (Target.value (.object r)).object ⟨p, f⟩ .model = .ok r := if_pos hr
  have hevent : (ChangeSource.event e).event? ⟨p, f⟩ (.value (.object r)) w = .ok (some (.named r.name e)) w :=
    bind_of_ok (ofExcept_eq_ok.mpr ⟨hobject, rfl⟩)
  have hfits : ofExcept (g.require (.named r.name e)) w = .ok () w := ofExcept_eq_ok.mpr ⟨if_pos hg, rfl⟩
  exact (bind_of_ok hevent).trans (bind_of_ok hfits)

theorem universal_attaches {r : ObjectRef} {e : EventName} {label : String} {g : Handler} (hr : r.kind = .model)
    (h : addUniversal (.named r.name e) a w = .ok g w') {w'' : World} (hlogs : w'.Logs w'') :
    World.Attaches p a [⟨.value (.object r), .event e, label, some g⟩] w w'' := by
  cases h
  have hcreate : (ChangeSource.event e).createHandler a w = .ok ⟨w.next, e.payload, .always a⟩ { w with next := w.next + 1 } := rfl
  have hattach : (ChangeSource.event e).attach ⟨p, fun _ => pure ()⟩ (.value (.object r)) ⟨w.next, e.payload, .always a⟩
      { w with next := w.next + 1 } = .ok () ({ w with next := w.next + 1 }.setHandlers (.named r.name e)
        (w.handlersOf (.named r.name e) ++ [(⟨w.next, e.payload, .always a⟩ : Handler)])) := bind_of_ok (event_key hr rfl)
  exact attaches_one hcreate hattach hlogs

/-- A new event binding: its handler has been attached, and nothing else has happened. -/
theorem eventAttach_eq_ok {f : Action → Effect Unit} {source : Option ChangeSource} {v : Value} {type : TypeId}
    {event : String} {g : Handler} (h : EventBinding.attach ⟨p, f⟩ source v type event a w = .ok g w') :
    ∃ t, EventBinding.trigger? { event, source, target := some v, handler := some g } = some t ∧ t.handler = some g ∧
      World.Attaches p a [t] w w' ∧ ((∀ s, source = some s → s.isReliable = true) → t.source.isReliable = true) ∧
      (source = none → ∃ k, w'.exposedEvent? v event = some k ∧ g.payload = k.payload) := by
  unfold EventBinding.attach at h
  cases source with
  | some s =>
    obtain ⟨g', w₁, hcreate, h⟩ := bind_eq_ok.mp h
    obtain ⟨u, w₂, hattach, h⟩ := bind_eq_ok.mp h
    cases h
    exact ⟨⟨.value v, s, event, some g⟩, rfl, rfl, attaches_one hcreate hattach (logs_chains.refl _), fun hs => hs s rfl, nofun⟩
  | none =>
    obtain ⟨_, _, hget, h⟩ := bind_eq_ok.mp h
    cases hget
    cases hk : w.exposedEvent? v event with
    | none =>
      rw [hk] at h
      cases h
    | some k =>
      rw [hk] at h
      obtain ⟨r, e, rfl, hmodel, he, rfl⟩ := World.exposedEvent?_eq_some hk
      obtain ⟨g', w₁, hadd, h⟩ := bind_eq_ok.mp h
      obtain ⟨u, w₂, hwarn, h⟩ := bind_eq_ok.mp h
      cases hwarn
      cases h
      refine ⟨⟨.value (.object r), .event e, event, some g⟩, ?_, rfl, ?_, fun _ => rfl, fun _ => ?_⟩
      · simp [EventBinding.trigger?, he]
      · exact universal_attaches hmodel hadd ⟨_, rfl⟩
      · cases hadd
        exact ⟨_, hk, rfl⟩

theorem eventAttach_error {f : Action → Effect Unit} {source : Option ChangeSource} {v : Value} {type : TypeId}
    {event : String} {stop : Stop} (h : EventBinding.attach ⟨p, f⟩ source v type event a w = .error stop w') :
    w.Stores w' := by
  unfold EventBinding.attach at h
  cases source with
  | some s =>
    obtain ⟨g, w₁, hcreate⟩ := createHandler_returns s a w
    replace h := (bind_of_ok hcreate).symm.trans h
    obtain ⟨-, -, -, log, rfl⟩ := createHandler_eq_ok hcreate
    obtain hattach | ⟨u, w₂, -, hpure⟩ := bind_eq_error.mp h
    · obtain ⟨-, log', rfl⟩ := attach_error hattach
      exact { next := Nat.le_succ _ }
    · cases hpure
  | none =>
    replace h := bind_get.symm.trans h
    cases hk : w.exposedEvent? v event with
    | none =>
      rw [hk] at h
      cases h
      exact {}
    | some k' =>
      rw [hk] at h
      cases h

theorem eventCreate_eq_ok {f : Action → Effect Unit} {config : Configuration} {flags : Flags} {v : Value} {event : String}
    (h : EventBinding.create ⟨p, f⟩ config flags v event a w = .ok id w') : id = ⟨w.next⟩ ∧
      ∃ type g w₂, EventBinding.attach ⟨p, f⟩ (config.eventSources.find? p.types event type) v type event
          (if flags.isOneTime then .once ⟨w.next⟩ a else a) { w with next := w.next + 1 } = .ok g w₂ ∧
        (w₂.setBinding ⟨w.next⟩ (.event
          { event, source := config.eventSources.find? p.types event type, target := some v, handler := some g })).Logs w' := by
  unfold EventBinding.create at h
  cases htype : v.type? with
  | none =>
    rw [htype] at h
    cases h
  | some type =>
    rw [htype] at h
    obtain ⟨n, w₁, hfresh, h⟩ := bind_eq_ok.mp (check_eq_ok h)
    cases hfresh
    obtain ⟨g, w₂, hattach, h⟩ := bind_eq_ok.mp h
    obtain ⟨u, w₃, hmod, h⟩ := bind_eq_ok.mp h
    cases modify_eq_ok.mp hmod
    obtain ⟨u, w₄, htell, h⟩ := bind_eq_ok.mp h
    cases htell
    cases h
    exact ⟨rfl, type, g, w₂, hattach, _, rfl⟩

theorem eventCreate_error {f : Action → Effect Unit} {config : Configuration} {flags : Flags} {v : Value} {event : String}
    {stop : Stop} (h : EventBinding.create ⟨p, f⟩ config flags v event a w = .error stop w') : w.Stores w' := by
  unfold EventBinding.create at h
  cases htype : v.type? with
  | none =>
    rw [htype] at h
    cases h
    exact {}
  | some type =>
    rw [htype] at h
    simp only at h
    split at h
    · cases h
      exact {}
    · have hnext : w.Stores { w with next := w.next + 1 } := { next := Nat.le_succ _ }
      replace h := (bind_of_ok rfl).symm.trans h
      obtain hattach | ⟨g, w₁, -, hrest⟩ := bind_eq_error.mp h
      · exact World.stores_chains.trans hnext (eventAttach_error hattach)
      · cases hrest

theorem eventCreate_ledger {f : Action → Effect Unit} {config : Configuration} {flags : Flags}
    (hconfig : config.Reliable p.types) {v : Value} {event : String} (ha : ∀ x, ¬ a.Touches x) (hw : w.Accounted p)
    (h : EventBinding.create ⟨p, f⟩ config flags v event a w = .ok id w') :
    id = ⟨w.next⟩ ∧ w.next < w'.next ∧ World.Ledger p (· = id) w w' := by
  have hc (id : BindingId) := ledger_chains p (· = id)
  obtain ⟨rfl, type, g, w₂, hattach, log, rfl⟩ := eventCreate_eq_ok h
  have hstores : w.Stores { w with next := w.next + 1 } := { next := Nat.le_succ _ }
  have hl₁ := ledger_stores (p := p) hstores
  obtain ⟨hw₁, -⟩ := hl₁ hw
  obtain ⟨t, htrigger, hg, hattaches, hreliable, hexposed⟩ := eventAttach_eq_ok hattach
  replace hreliable := hreliable fun s hs => hconfig.events _ _ s hs
  -- A one-time action disposes the new binding, and that is all it may touch.
  have htouches : ∀ x, (if flags.isOneTime then Action.once ⟨w.next⟩ a else a).Touches x → x = ⟨w.next⟩ := by
    intro x hx
    split at hx
    · exact hx.elim id fun hx => absurd hx (ha x)
    · exact absurd hx (ha x)
  have hsound : ∀ t' ∈ [t], t'.Sound p w₂ ⟨w.next⟩ := by
    apply hattaches.sound htouches
    intro t' ht'
    cases List.mem_singleton.mp ht'
    exact hreliable
  have hnone (k : EventKey) : { w with next := w.next + 1 }.held ⟨w.next⟩ k = [] := held_next hw k
  have hl₂ : World.Ledger p (· = ⟨w.next⟩) { w with next := w.next + 1 } (w₂.setBinding ⟨w.next⟩ (.event
      { event, source := config.eventSources.find? p.types event type, target := some v, handler := some g })) := by
    intro _
    apply hw₁.attach hattaches
    · intro t' ht'
      cases List.mem_singleton.mp ht'
      exact isDirect_of_reliable hreliable
    · refine ⟨hattaches.next, fun _ t' ht' => ?_, fun _ => ?_, nofun, ?_⟩
      · rw [Binding.triggers, htrigger] at ht'
        exact (hsound t' ht').mono (offersSame_of_objects rfl) (Nat.le_refl _)
      · rw [Binding.triggers, htrigger]
        simp [Binding.handlers, hg]
      · rintro _ v' g' hb hs hv hg'
        cases hb
        cases hv
        cases hg'
        exact hexposed hs
    · intro k
      rw [hnone, Binding.attachedAt, Binding.triggers, htrigger]
      exact List.Perm.refl _
  exact ⟨rfl, hattaches.next, (hc _).trans (ledger_widen hl₁) ((hc _).trans hl₂ (ledger_widen (ledger_stores {})))⟩

end

end DataBinding
