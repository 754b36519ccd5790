import DataBinding.Proofs.Run.Inert
import DataBinding.Proofs.Subscription.Create

/-!
# The stake of an action binding

Of the handlers in the lists of events, those that react for an action binding are the handlers of its triggers, as long
as it is live. Host code cannot change that: it has handlers with other numbers, and so have all other bindings. This is
the regime `stakes`. Like `later`, it asks nothing of the bindings that are made.
-/

namespace DataBinding

open Effect Compile

theorem Action.touches_of_reactsFor {a : Action} {id : BindingId} (h : a.reactsFor id = true) : a.Touches id := by
  cases a with
  | follow b source target => exact (of_decide_eq_true h).symm
  | rerun b call => exact (of_decide_eq_true h).symm
  | _ => cases h

theorem Handler.touches_of_reactsFor {g : Handler} {id : BindingId} (h : g.reactsFor id = true) : g.Touches id := by
  obtain ⟨n, payload, response⟩ := g
  cases response with
  | always a => exact Action.touches_of_reactsFor (a := a) h
  | onProperty name a => exact Action.touches_of_reactsFor (a := a) h
  | report name acts => cases h

/-- Numbers that are in use have been handed out, and handlers under names react for no binding. -/
structure World.Numbered (w : World) : Prop where
  listed : ∀ k, ∀ g ∈ w.handlersOf k, ∀ id, g.reactsFor id = true → id.index < w.next
  named : ∀ name g, w.namedHandlers.find? name = some g → g.id < w.next ∧ ∀ id, g.reactsFor id = false
  bound : ∀ id s, w.bindings.find? id = some s → id.index < w.next ∧ ∀ g ∈ s.handlers, g.id < w.next

/-- In the lists, the handlers of the triggers and no others react for the binding, and no one else has one of them. -/
structure World.Holds (id : BindingId) (b : ActionBinding) (w : World) : Prop where
  lists : ∀ k, (w.handlersOf k).filter (·.reactsFor id) = heldAt k b.triggers
  issued : ∀ n, (Binding.action b).Owns n → n < w.next
  named : ∀ name g, w.namedHandlers.find? name = some g → ¬ (Binding.action b).Owns g.id
  others : ∀ x s, x ≠ id → w.bindings.find? x = some s → ∀ n, s.Owns n → ¬ (Binding.action b).Owns n

def World.Live (w : World) (id : BindingId) : Prop := ∃ b, w.bindings.find? id = some (.action b) ∧ b.disposed = false

/-- From number `m` on the action binding is there. Until it is disposed, it is as it was and holds its handlers. -/
structure World.Staked (m : Nat) (id : BindingId) (b : ActionBinding) (w : World) : Prop extends w.Numbered where
  next : m ≤ w.next
  found : id.index < m → ∃ b', w.bindings.find? id = some (.action b')
  stake : id.index < m → w.Live id → w.bindings.find? id = some (.action b) ∧ w.Holds id b

/-- The stake lasts. -/
def World.Stakes (m : Nat) (id : BindingId) (b : ActionBinding) : World → World → Prop :=
  Guarded (World.Staked m id b) fun w w' => w.next ≤ w'.next

variable {m : Nat} {id : BindingId} {b : ActionBinding}

theorem stakes_chains (m : Nat) (id : BindingId) (b : ActionBinding) : Chains (World.Stakes m id b) :=
  Chains.guarded ⟨fun _ => Nat.le_refl _, fun h h' => Nat.le_trans h h'⟩

namespace World.Staked

variable {w w' : World}

theorem relist (h : w.Staked m id b) (hbindings : w'.bindings = w.bindings) (hnext : w.next ≤ w'.next)
    (hnamed : ∀ name g, w'.namedHandlers.find? name = some g → w.namedHandlers.find? name = some g ∨
      (w.next ≤ g.id ∧ g.id < w'.next ∧ ∀ x, g.reactsFor x = false))
    (hlisted : ∀ k, ∀ g ∈ w'.handlersOf k, g ∈ w.handlersOf k ∨ ∀ x, g.reactsFor x = true → x.index < w'.next)
    (hlists : id.index < m → w.Live id → w.Holds id b →
      ∀ k, (w'.handlersOf k).filter (·.reactsFor id) = (w.handlersOf k).filter (·.reactsFor id)) : w'.Staked m id b where
  listed k g hg x hx := by
    rcases hlisted k g hg with hg | hnew
    · exact Nat.lt_of_lt_of_le (h.listed k g hg x hx) hnext
    · exact hnew x hx
  named name g hg := by
    rcases hnamed name g hg with hg | ⟨-, hlt, hno⟩
    · exact ⟨Nat.lt_of_lt_of_le (h.named name g hg).1 hnext, (h.named name g hg).2⟩
    · exact ⟨hlt, hno⟩
  bound x s hs := by
    rw [hbindings] at hs
    obtain ⟨hx, hown⟩ := h.bound x s hs
    exact ⟨Nat.lt_of_lt_of_le hx hnext, fun g hg => Nat.lt_of_lt_of_le (hown g hg) hnext⟩
  next := Nat.le_trans h.next hnext
  found hid := by
    rw [hbindings]
    exact h.found hid
  stake hid hlive := by
    have hlive' : w.Live id := by
      unfold World.Live at hlive ⊢
      rwa [hbindings] at hlive
    obtain ⟨hfound, hholds⟩ := h.stake hid hlive'
    refine ⟨by rw [hbindings, hfound], fun k => (hlists hid hlive' hholds k).trans (hholds.lists k), fun n hn => ?_, ?_, ?_⟩
    · exact Nat.lt_of_lt_of_le (hholds.issued n hn) hnext
    · intro name g hg hown
      rcases hnamed name g hg with hg | ⟨hle, -, -⟩
      · exact hholds.named name g hg hown
      · exact Nat.not_lt.mpr hle (hholds.issued _ hown)
    · rw [hbindings]
      exact hholds.others

theorem same (h : w.Staked m id b) (hbindings : w'.bindings = w.bindings) (hnext : w.next ≤ w'.next)
    (hnamed : w'.namedHandlers = w.namedHandlers) (hlists : ∀ k, w'.handlersOf k = w.handlersOf k) : w'.Staked m id b := by
  apply h.relist hbindings hnext
  · rw [hnamed]
    exact fun _ _ => .inl
  · intro k g hg
    rw [hlists] at hg
    exact .inl hg
  · intro _ _ _ k
    rw [hlists]

theorem setBinding (h : w.Staked m id b) {x : BindingId} {s : Binding} (hx : x.index < w.next)
    (hissued : ∀ g ∈ s.handlers, g.id < w.next)
    (hself : id.index < m → x = id → ∃ b', s = .action b' ∧ b'.disposed = true)
    (hown : id.index < m → x ≠ id → w.Live id → ∀ n, s.Owns n → ¬ (Binding.action b).Owns n) :
    (w.setBinding x s).Staked m id b where
  listed := h.listed
  named := h.named
  bound y t ht := by
    rw [World.find?_setBinding] at ht
    split at ht
    · rename_i hy
      cases ht
      exact ⟨hy ▸ hx, hissued⟩
    · exact h.bound y t ht
  next := h.next
  found hid := by
    rw [World.find?_setBinding]
    by_cases he : x = id
    · obtain ⟨b', rfl, -⟩ := hself hid he
      exact ⟨b', if_pos he⟩
    · rw [if_neg he]
      exact h.found hid
  stake hid hlive := by
    obtain ⟨b', hb', hdisposed⟩ := hlive
    rw [World.find?_setBinding] at hb'
    by_cases he : x = id
    · -- What is set here is disposed.
      obtain ⟨b'', rfl, hd⟩ := hself hid he
      rw [if_pos he] at hb'
      cases hb'
      cases hd.symm.trans hdisposed
    · rw [if_neg he] at hb'
      have hlive' : w.Live id := ⟨b', hb', hdisposed⟩
      obtain ⟨hfound, hholds⟩ := h.stake hid hlive'
      refine ⟨by rw [World.find?_setBinding, if_neg he, hfound], hholds.lists, hholds.issued, hholds.named, ?_⟩
      intro y t hy ht
      rw [World.find?_setBinding] at ht
      split at ht
      · cases ht
        exact hown hid he hlive'
      · exact hholds.others y t hy ht

theorem alter (h : w.Staked m id b) {x : BindingId} {s s' : Binding} (hs : w.bindings.find? x = some s)
    (hhandlers : s'.handlers = s.handlers) (hother : id.index < m → x ≠ id) : (w.setBinding x s').Staked m id b := by
  obtain ⟨hx, hissued⟩ := h.bound x s hs
  refine h.setBinding hx (hhandlers ▸ hissued) (fun hid he => absurd he (hother hid)) fun hid he hlive => ?_
  unfold Binding.Owns
  rw [hhandlers]
  exact (h.stake hid hlive).2.others x s he hs

theorem loses {S : Nat → Prop} (h : w.Staked m id b) (hl : w.Loses S w')
    (hS : id.index < m → w.Live id → w.Holds id b → ∀ n, S n → ¬ (Binding.action b).Owns n) : w'.Staked m id b := by
  apply h.relist hl.bindings (Nat.le_of_eq hl.next.symm)
  · rw [hl.named]
    exact fun _ _ => .inl
  · exact fun k g hg => .inl (hl.removed k hg)
  · intro hid hlive hholds k
    apply hl.spared k
    intro g hg hreacts hs
    have hheld : g ∈ heldAt k b.triggers := by
      rw [← hholds.lists k]
      exact List.mem_filter.mpr ⟨hg, hreacts⟩
    exact hS hid hlive hholds g.id hs ⟨g, (heldAt_sublist k _).subset hheld, rfl⟩

theorem attaches {p : Platform} {a : Action} {ts : List Trigger} {x : BindingId} (h : w.Staked m id b)
    (ha : World.Attaches p a ts w w') (htouches : ∀ y, a.Touches y → y = x) (hx : x.index < w.next)
    (hother : id.index < m → x ≠ id) : w'.Staked m id b := by
  have hreacts {k : EventKey} {g : Handler} (hg : g ∈ heldAt k ts) {y : BindingId} (hy : g.reactsFor y = true) : y = x := by
    apply htouches
    rw [← ha.touches g ((heldAt_sublist k ts).subset hg)]
    exact Handler.touches_of_reactsFor hy
  apply h.relist ha.bindings ha.next
  · rw [ha.namedHandlers]
    exact fun _ _ => .inl
  · intro k g hg
    rw [ha.lists] at hg
    rcases List.mem_append.mp hg with hg | hg
    · exact .inl hg
    · refine .inr fun y hy => ?_
      rw [hreacts hg hy]
      exact Nat.lt_of_lt_of_le hx ha.next
  · intro hid _ _ k
    have hnone : (heldAt k ts).filter (·.reactsFor id) = [] := by
      rw [List.filter_eq_nil_iff]
      exact fun g hg hy => hother hid (hreacts hg hy).symm
    rw [ha.lists, List.filter_append, hnone, List.append_nil]

theorem take {p : Platform} {a : Action} {ts : List Trigger} {x : BindingId} {s : Binding} (h : w.Staked m id b)
    (ha : World.Attaches p a ts w w') (htouches : ∀ y, a.Touches y → y = x) (hx : x.index < w.next)
    (hother : id.index < m → x ≠ id)
    (hs : ∀ g ∈ s.handlers, g ∈ ts.filterMap Trigger.handler ∨ ∃ s', w'.bindings.find? x = some s' ∧ g ∈ s'.handlers) :
    (w'.setBinding x s).Staked m id b := by
  have h' := h.attaches ha htouches hx hother
  apply h'.setBinding (Nat.lt_of_lt_of_le hx ha.next)
  · intro g hg
    rcases hs g hg with hg | ⟨s', hs', hg⟩
    · exact (ha.fresh g hg).2
    · exact (h'.bound x s' hs').2 g hg
  · exact fun hid he => absurd he (hother hid)
  · rintro hid he hlive n ⟨g, hg, rfl⟩ hown
    rcases hs g hg with hg | ⟨s', hs', hg⟩
    · -- The binding had its handlers before these got their numbers.
      have hlive' : w.Live id := by
        unfold World.Live at hlive ⊢
        rwa [ha.bindings] at hlive
      exact Nat.not_lt.mpr (ha.fresh g hg).1 ((h.stake hid hlive').2.issued _ hown)
    · exact (h'.stake hid hlive).2.others x s' he hs' _ ⟨g, hg, rfl⟩ hown

end World.Staked

/-! ## Steps -/

theorem stakes_same {w w' : World} (hbindings : w'.bindings = w.bindings) (hnext : w.next ≤ w'.next)
    (hnamed : w'.namedHandlers = w.namedHandlers) (hlists : ∀ k, w'.handlersOf k = w.handlersOf k) :
    World.Stakes m id b w w' :=
  fun h => ⟨h.same hbindings hnext hnamed hlists, hnext⟩

theorem stakes_stores {w w' : World} (h : w.Stores w') : World.Stakes m id b w w' :=
  stakes_same h.bindings h.next h.namedHandlers h.handlersOf

theorem stakes_updateEquality (w : World) (x : BindingId) {f : EqualityBinding → EqualityBinding}
    (hf : ∀ b, (Binding.equality (f b)).handlers = (Binding.equality b).handlers) :
    World.Stakes m id b w (w.updateEquality x f) := by
  intro h
  unfold World.updateEquality
  cases hx : w.equality? x with
  | none => exact ⟨h, Nat.le_refl _⟩
  | some c =>
    have hc := World.equality?_eq_some.mp hx
    refine ⟨h.alter hc (hf c) fun hid he => ?_, Nat.le_refl _⟩
    obtain ⟨b', hb'⟩ := h.found hid
    rw [he, hb'] at hc
    cases hc

theorem dispose_stakes {host : Host} (x : BindingId) : Lasts (World.Stakes m id b) (host.dispose x) := by
  apply lasts_dispose (stakes_chains m id b)
  intro w s hs hd
  obtain ⟨w', hdispose, hl⟩ := dispose_live host hs hd
  refine ⟨w', hdispose, fun h => ?_⟩
  have hset : (w.setBinding x s.disposal).Staked m id b := by
    apply h.setBinding (h.bound x s hs).1
    · rw [Binding.handlers_disposal]
      exact List.forall_mem_nil _
    · intro hid he
      obtain ⟨b', hb'⟩ := h.found hid
      rw [he, hb'] at hs
      cases hs
      exact ⟨_, rfl, rfl⟩
    · intro _ _ _ n hn
      obtain ⟨g, hg, -⟩ := hn
      rw [Binding.handlers_disposal] at hg
      cases hg
  refine ⟨hset.loses hl fun hid hlive _ => ?_, Nat.le_of_eq hl.next.symm⟩
  obtain ⟨b', hb', hdisposed⟩ := hlive
  rw [World.find?_setBinding] at hb'
  by_cases he : x = id
  · -- It was this binding that has been disposed.
    obtain ⟨b'', hb''⟩ := h.found hid
    rw [he, hb''] at hs
    cases hs
    rw [if_pos he] at hb'
    cases hb'
    cases hdisposed
  · rw [if_neg he] at hb'
    exact (h.stake hid ⟨b', hb', hdisposed⟩).2.others x s he hs

theorem makeNamedHandler_stakes (name : String) (acts : List Act) :
    Lasts (World.Stakes m id b) (makeNamedHandler name acts) := by
  apply lasts_of_returns
  intro w
  refine ⟨(), _, rfl, fun h => ⟨World.Staked.relist h rfl (Nat.le_succ _) ?_ ?_ ?_, Nat.le_succ _⟩⟩
  · intro name' g hg
    replace hg : (w.namedHandlers.insert name ⟨w.next, .number, .report name acts⟩).find? name' = some g := hg
    rw [Table.find?_insert] at hg
    split at hg
    · cases hg
      exact .inr ⟨Nat.le_refl _, Nat.lt_succ_self _, fun _ => rfl⟩
    · exact .inl hg
  · exact fun k g hg => .inl hg
  · exact fun _ _ _ _ => rfl

theorem listenNamed_stakes (k : EventKey) (name : String) : Lasts (World.Stakes m id b) (listenNamed k name) := by
  apply lasts_listenNamed (stakes_chains m id b)
  intro w g hg h
  have hno := (h.named name g hg).2
  have hlist (k' : EventKey) :
      ({ w with listenings := ⟨k, g, true⟩ :: w.listenings }.setHandlers k (w.handlersOf k ++ [g])).handlersOf k' =
        if k = k' then w.handlersOf k ++ [g] else w.handlersOf k' := World.handlersOf_setHandlers _ _ _ _
  refine ⟨h.relist rfl (Nat.le_refl _) (fun _ _ => .inl) (fun k' g' hg' => ?_) fun _ _ _ k' => ?_, Nat.le_refl _⟩
  · rw [hlist] at hg'
    split at hg'
    · rename_i hk
      rcases List.mem_append.mp hg' with hg' | hg'
      · exact .inl (hk ▸ hg')
      · cases List.mem_singleton.mp hg'
        exact .inr fun x hx => by rw [hno] at hx; cases hx
    · exact .inl hg'
  · rw [hlist]
    split
    · rename_i hk
      rw [← hk, List.filter_append, List.filter_cons_of_neg (by rw [hno]; exact Bool.false_ne_true), List.filter_nil,
        List.append_nil]
    · rfl

theorem unlistenNamed_stakes (k : EventKey) (name : String) : Lasts (World.Stakes m id b) (unlistenNamed k name) := by
  apply lasts_of_after
  intro w h
  unfold unlistenNamed
  rw [bind_get]
  cases hg : w.namedHandlers.find? name with
  | none => exact ⟨h, Nat.le_refl _⟩
  | some g =>
    have hnote : ({ w with listenings := ⟨k, g, false⟩ :: w.listenings } : World).Staked m id b :=
      h.same rfl (Nat.le_refl _) rfl fun _ => rfl
    obtain ⟨found, w', hremove, hl⟩ : ∃ found w', removeHandler k g.id { w with listenings := ⟨k, g, false⟩ :: w.listenings } =
        .ok found w' ∧ World.Loses (· = g.id) { w with listenings := ⟨k, g, false⟩ :: w.listenings } w' :=
      always_returns (removeHandler_loses (S := (· = g.id)) k rfl) _
    have hunlisten : unlisten k g w = .ok found w' := by
      have hmod : (modify fun w => { w with listenings := ⟨k, g, false⟩ :: w.listenings } : Effect Unit) w =
          .ok () { w with listenings := ⟨k, g, false⟩ :: w.listenings } := rfl
      exact (bind_of_ok hmod).trans hremove
    have hafter : after (unlisten k g w) = w' := congrArg after hunlisten
    show (after (unlisten k g w)).Staked m id b ∧ w.next ≤ (after (unlisten k g w)).next
    rw [hafter]
    refine ⟨hnote.loses hl fun hid hlive hholds n hn => ?_, Nat.le_of_eq hl.next.symm⟩
    rw [hn]
    exact hholds.named name g hg

/-! ## Making bindings -/

/-- The stake lasts while another binding is made, which has its number already. -/
def World.StakesBeside (m : Nat) (id : BindingId) (b : ActionBinding) (x : BindingId) : World → World → Prop :=
  Guarded (fun w => w.Staked m id b ∧ x.index < w.next ∧ (id.index < m → x ≠ id)) fun w w' => w.next ≤ w'.next

theorem World.Stakes.beside {w w' : World} {x : BindingId} (h : World.Stakes m id b w w') :
    World.StakesBeside m id b x w w' := by
  rintro ⟨hw, hx, hother⟩
  obtain ⟨hw', hnext⟩ := h hw
  exact ⟨⟨hw', Nat.lt_of_lt_of_le hx hnext, hother⟩, hnext⟩

section
variable {p : Platform} {f : Action → Effect Unit}

theorem subscribeAll_beside {a : Action} {us : List Trigger} {x : BindingId} {g : List Trigger → World → World}
    (hus : ∀ t ∈ us, t.handler = none) (htouches : ∀ y, a.Touches y → y = x)
    (hg : ∀ {w w' : World} {ts}, World.Attaches p a ts w w' → w.Staked m id b → x.index < w.next → (id.index < m → x ≠ id) →
      (g ts w').Staked m id b ∧ (g ts w').next = w'.next) :
    Lasts (World.StakesBeside m id b x) (do
      let ts ← Trigger.subscribeAll ⟨p, f⟩ a us
      modify (g ts)) where
  ok w u w' h := by
    rintro ⟨hw, hx, hother⟩
    obtain ⟨ts, w₁, hsub, hmod⟩ := bind_eq_ok.mp h
    cases modify_eq_ok.mp hmod
    obtain ⟨ha, -⟩ := Trigger.subscribeAll_ok hus hsub
    obtain ⟨hw', hnext⟩ := hg ha hw hx hother
    have hle : w.next ≤ (g ts w₁).next := Nat.le_trans ha.next (Nat.le_of_eq hnext.symm)
    exact ⟨⟨hw', Nat.lt_of_lt_of_le hx hle, hother⟩, hle⟩
  error w e w' h := by
    refine ⟨trivial, ?_⟩
    rintro ⟨hw, hx, hother⟩
    obtain hsub | ⟨ts, w₁, -, hmod⟩ := bind_eq_error.mp h
    · cases e with
      | exhausted => exact absurd rfl (Trigger.subscribeAll_isFailure hus hsub)
      | failed e =>
        obtain ⟨ts, t, rest, ha, -⟩ := Trigger.subscribeAll_error hus hsub
        exact ⟨⟨hw.attaches ha htouches hx hother, Nat.lt_of_lt_of_le hx ha.next, hother⟩, ha.next⟩
    · cases hmod

variable (h : Host.Lasting ⟨p, f⟩ (World.Stakes m id b)) {config : Configuration} {flags : Flags}
include h

theorem stakes_constructs (x : BindingId) : Host.Constructs ⟨p, f⟩ (World.StakesBeside m id b x) x where
  chains := Chains.guarded ⟨fun _ => Nat.le_refl _, fun h h' => Nat.le_trans h h'⟩
  stores hs := (stakes_stores hs).beside
  script acts := (h.script acts).mono World.Stakes.beside
  raise k args := (h.raise k args).mono World.Stakes.beside
  fire tag := (h.fire tag).mono World.Stakes.beside
  value w v := (stakes_updateEquality w x (f := fun b => { b with value := v }) fun _ => rfl).beside
  finish w := by
    rintro ⟨hw, hx, hother⟩
    unfold World.updateAction World.action?
    cases hs : w.bindings.find? x with
    | none => exact ⟨⟨hw, hx, hother⟩, Nat.le_refl _⟩
    | some s =>
      cases s with
      | action c => exact ⟨⟨hw.alter hs rfl hother, hx, hother⟩, Nat.le_refl _⟩
      | _ => exact ⟨⟨hw, hx, hother⟩, Nat.le_refl _⟩
  dispose := (dispose_stakes x).mono World.Stakes.beside
  takeSide us source target g hg hus := by
    refine subscribeAll_beside (g := fun ts w => w.updateEquality x (g ts)) hus (fun _ hy => hy) ?_
    intro w w' ts ha hw hx hother
    unfold World.updateEquality
    cases hc : w'.equality? x with
    | none => exact ⟨hw.attaches ha (fun _ hy => hy) hx hother, rfl⟩
    | some c =>
      refine ⟨hw.take ha (fun _ hy => hy) hx hother fun g' hg' => ?_, rfl⟩
      exact (hg.handlers ts c g' hg').symm.imp_right fun hold => ⟨_, World.equality?_eq_some.mp hc, hold⟩
  takeCall us call hus := by
    refine subscribeAll_beside (g := fun ts w => w.updateAction x fun b => { b with triggers := ts }) hus (fun _ hy => hy) ?_
    intro w w' ts ha hw hx hother
    unfold World.updateAction World.action?
    cases hs : w'.bindings.find? x with
    | none => exact ⟨hw.attaches ha (fun _ hy => hy) hx hother, rfl⟩
    | some s =>
      cases s with
      | action c => exact ⟨hw.take ha (fun _ hy => hy) hx hother fun g' hg' => .inl hg', rfl⟩
      | _ => exact ⟨hw.attaches ha (fun _ hy => hy) hx hother, rfl⟩

omit h in
theorem eventCreate_stakes {target : Value} {event : String} {a : Action} (htouches : ∀ x, ¬ a.Touches x) :
    Lasts (World.Stakes m id b) (EventBinding.create ⟨p, f⟩ config flags target event a) where
  ok w x w' h := by
    intro hw
    obtain ⟨rfl, type, g, w₂, hattach, log, rfl⟩ := eventCreate_eq_ok h
    obtain ⟨t, -, hg, ha, -⟩ := eventAttach_eq_ok hattach
    have hw₁ : ({ w with next := w.next + 1 } : World).Staked m id b := hw.same rfl (Nat.le_succ _) rfl fun _ => rfl
    have htake : (w₂.setBinding ⟨w.next⟩ (.event
        { event, source := config.eventSources.find? p.types event type, target := some target, handler := some g })).Staked
          m id b := by
      refine hw₁.take ha (fun y hy => ?_) (Nat.lt_succ_self _) ?_ fun g' hg' => ?_
      · split at hy
        · exact hy.elim (·) fun hy => absurd hy (htouches y)
        · exact absurd hy (htouches y)
      · rintro hid rfl
        exact absurd hw.next (Nat.not_le.mpr hid)
      · cases List.mem_singleton.mp hg'
        exact .inl (List.mem_filterMap.mpr ⟨t, List.mem_singleton_self t, hg⟩)
    exact ⟨htake.same rfl (Nat.le_refl _) rfl fun _ => rfl, Nat.le_trans (Nat.le_succ _) ha.next⟩
  error w e w' h := ⟨trivial, stakes_stores (eventCreate_error h)⟩

theorem stakes_makes : Host.Makes ⟨p, f⟩ (World.Stakes m id b) where
  toLasting := h
  dispose := dispose_stakes
  name w name x := stakes_same rfl (Nat.le_refl _) rfl fun _ => rfl
  construct w s hs := by
    refine ⟨_, stakes_constructs h ⟨w.next⟩, fun w' hbeside hw => ?_⟩
    have hw₁ : ({ w with next := w.next + 1 } : World).Staked m id b := hw.same rfl (Nat.le_succ _) rfl fun _ => rfl
    -- The new binding gets a number that is not below `m`.
    have hother : id.index < m → (⟨w.next⟩ : BindingId) ≠ id := by
      rintro hid rfl
      exact absurd hw.next (Nat.not_le.mpr hid)
    have hbirth : (w.birth s).Staked m id b := by
      apply hw₁.setBinding (Nat.lt_succ_self _)
      · rw [hs]
        exact List.forall_mem_nil _
      · exact fun hid he => absurd he (hother hid)
      · rintro _ _ _ n ⟨g, hg, -⟩
        rw [hs] at hg
        cases hg
    obtain ⟨⟨hw', -, -⟩, hnext⟩ := hbeside ⟨hbirth, Nat.lt_succ_self _, hother⟩
    exact ⟨hw', Nat.le_trans (Nat.le_succ _) hnext⟩
  event _ _ _ _ _ htouches := eventCreate_stakes htouches

end

/-- Whatever host code does, the stake lasts. -/
def stakes (p : Platform) (scripts : List Act → HostCode) (m : Nat) (id : BindingId) (b : ActionBinding) :
    Regime p scripts where
  rel _ := World.Stakes m id b
  chains _ := stakes_chains m id b
  mono _ h := h
  reached _ h := h
  stores := stakes_stores
  value w x _ := stakes_updateEquality w x fun _ => rfl
  dispose _ x := dispose_stakes x
  unname _ _ := stakes_same rfl (Nat.le_refl _) rfl fun _ => rfl
  makeHandler := makeNamedHandler_stakes
  listen := listenNamed_stakes
  unlisten := unlistenNamed_stakes
  sure _ := True
  tried _ := True
  bind _ name c h _ := (stakes_makes h).bind name c
  tryBind _ name c h _ := (stakes_makes h).tryBind name c

end DataBinding
