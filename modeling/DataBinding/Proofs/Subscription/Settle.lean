import DataBinding.Proofs.Subscription.Account
import DataBinding.Proofs.Trigger.Refusal

/-!
# Settling accounts

Disposing a binding whose triggers can let go takes its handlers out of the lists, and nothing else (`dispose_sound`). So
every step that host code takes by itself leaves accounts behind (`dispose_ledger` and those after it).
-/

namespace DataBinding

open Effect

/-! ## Disposing -/

section
variable {p : Platform} {f : Action → Effect Unit} {w : World} {id : BindingId}

theorem freed_append (host : Host) (w : World) (ts us : List Trigger) :
    freed host w (ts ++ us) = freed host w ts ++ freed host w us :=
  List.filter_append ..

theorem protests_append (host : Host) (w : World) (ts us : List Trigger) :
    protests host w (ts ++ us) = protests host w ts ++ protests host w us :=
  List.filterMap_append ..

theorem EqualityBinding.dispose_frees (host : Host) (id : BindingId) {b : EqualityBinding} (hd : b.disposed = false)
    (w : World) :
    ∃ w', b.dispose host id w = .ok () w' ∧
      World.Frees (freed host w (b.left ++ b.right)) (protests host w (b.left ++ b.right))
        (w.setBinding id (Binding.equality b).disposal) w' := by
  let w₀ := w.setBinding id (.equality { b with disposed := true })
  obtain ⟨w₁, h₁, hw₁⟩ := unsubscribeAll_frees host b.left w₀
  obtain ⟨w₂, h₂, hw₂⟩ := unsubscribeAll_frees host b.right w₁
  have hsame : w₀.objects = w.objects := rfl
  rw [freed_congr hsame, protests_congr hsame] at hw₁
  rw [freed_congr hw₁.objects, protests_congr hw₁.objects, freed_congr hsame, protests_congr hsame] at hw₂
  refine ⟨w₂.setBinding id (Binding.equality b).disposal, ?_, ?_⟩
  · simp only [EqualityBinding.dispose, hd, Bool.false_eq_true, if_false]
    exact (bind_of_ok rfl).trans ((bind_of_ok h₁).trans (bind_of_ok h₂))
  · rw [freed_append, protests_append]
    exact (frees_append hw₁ hw₂).setBinding _

theorem ActionBinding.dispose_frees (host : Host) (id : BindingId) {b : ActionBinding} (hd : b.disposed = false)
    (w : World) :
    ∃ w', b.dispose host id w = .ok () w' ∧
      World.Frees (freed host w b.triggers) (protests host w b.triggers)
        (w.setBinding id (Binding.action b).disposal) w' := by
  let w₀ := w.setBinding id (.action { b with disposed := true })
  obtain ⟨w₁, h₁, hw₁⟩ := unsubscribeAll_frees host b.triggers w₀
  have hsame : w₀.objects = w.objects := rfl
  rw [freed_congr hsame, protests_congr hsame] at hw₁
  refine ⟨w₁.setBinding id (Binding.action b).disposal, ?_, hw₁.setBinding _⟩
  simp only [ActionBinding.dispose, hd, Bool.false_eq_true, if_false]
  exact (bind_of_ok rfl).trans (bind_of_ok h₁)

theorem EqualityBinding.dispose_ready {b : EqualityBinding} (hd : b.disposed = false)
    (hready : ∀ t ∈ b.left ++ b.right, t.Ready p w) :
    ∃ w', b.dispose ⟨p, f⟩ id w = .ok () w' ∧
      World.Releases (b.left ++ b.right) (w.setBinding id (Binding.equality b).disposal) w' := by
  obtain ⟨w', h, hfrees⟩ := EqualityBinding.dispose_frees ⟨p, f⟩ id hd w
  rw [freed_ready hready] at hfrees
  exact ⟨w', h, hfrees.toReleases⟩

theorem ActionBinding.dispose_ready {b : ActionBinding} (hd : b.disposed = false) (hready : ∀ t ∈ b.triggers, t.Ready p w) :
    ∃ w', b.dispose ⟨p, f⟩ id w = .ok () w' ∧
      World.Releases b.triggers (w.setBinding id (Binding.action b).disposal) w' := by
  obtain ⟨w', h, hfrees⟩ := ActionBinding.dispose_frees ⟨p, f⟩ id hd w
  rw [freed_ready hready] at hfrees
  exact ⟨w', h, hfrees.toReleases⟩

/-- An exposed event is the place of the subscription that stands for it. -/
theorem World.exposedEvent?_eq_some {v : Value} {event : String} {k : EventKey} (h : w.exposedEvent? v event = some k) :
    ∃ r e, v = .object r ∧ r.kind = .model ∧ EventName.ofText? event = some e ∧ k = .named r.name e := by
  unfold World.exposedEvent? at h
  split at h
  · rename_i r
    split at h
    · rename_i hc
      obtain ⟨e, he, rfl⟩ := Option.map_eq_some_iff.mp h
      simp only [Bool.and_eq_true, decide_eq_true_eq] at hc
      exact ⟨r, e, rfl, hc.1, he, rfl⟩
    · cases h
  · cases h

theorem EventBinding.release_ready {b : EventBinding} {v : Value} {g : Handler} (hs : (Binding.event b).Sound p w id)
    (hd : b.disposed = false) (hv : b.target = some v) (hg : b.handler = some g) :
    ∃ w', b.release ⟨p, f⟩ v g w = .ok () w' ∧ World.Releases b.trigger?.toList w w' := by
  have hlive := hs.live hd
  unfold EventBinding.release
  cases hsource : b.source with
  | some s =>
    have htrigger : b.trigger? = some ⟨.value v, s, b.event, some g⟩ := by simp [EventBinding.trigger?, hv, hg, hsource]
    have hready := (hlive ⟨.value v, s, b.event, some g⟩ (by simp [Binding.triggers, htrigger])).ready
    obtain ⟨w₁, hdetach, hfrees⟩ := Trigger.detach_freed rfl (hready.not_refused (f := f))
    refine ⟨_, (bind_of_ok (attempt_eq_ok.mpr hdetach)).trans rfl, ?_⟩
    rw [htrigger]
    exact releases_append hfrees.toReleases ⟨{}, fun k => rfl, List.Subset.refl _⟩
  | none =>
    obtain ⟨k, hk, hpayload⟩ := hs.exposed b v g rfl hsource hv hg
    obtain ⟨r, e, rfl, -, he, rfl⟩ := World.exposedEvent?_eq_some hk
    have htrigger : b.trigger? = some ⟨.value (.object r), .event e, b.event, some g⟩ := by
      simp [EventBinding.trigger?, hv, hg, hsource, he]
    obtain ⟨found, w₁, hremove, ⟨hs', rfl⟩, hlists⟩ := removeHandler_ok (.named r.name e) g w
    have hexposed : removeExposed (.object r) b.event g w = .ok found { w with handlers := hs' } := by
      unfold removeExposed
      rw [bind_get]
      simp only [hk, removeUniversal, hpayload, if_true]
      exact hremove
    have hreleases (log : List String) : World.Releases b.trigger?.toList w { w with handlers := hs', log := log } := by
      rw [htrigger]
      refine releases_one rfl {} (List.Subset.refl _) fun k => ?_
      simp only [Trigger.place?, ChangeSource.place?, Option.some.injEq]
      exact hlists k
    cases found with
    | true => exact ⟨_, (bind_of_ok hexposed).trans rfl, hreleases _⟩
    | false => exact ⟨_, (bind_of_ok hexposed).trans rfl, hreleases _⟩

theorem EventBinding.dispose_ready {b : EventBinding} (hs : (Binding.event b).Sound p w id) (hd : b.disposed = false) :
    ∃ w', b.dispose ⟨p, f⟩ id w = .ok () w' ∧
      World.Releases b.trigger?.toList (w.setBinding id (Binding.event b).disposal) w' := by
  simp only [EventBinding.dispose, hd, Bool.false_eq_true, if_false]
  cases hg : b.handler with
  | none =>
    refine ⟨_, (bind_of_ok rfl).trans ?_, releases_nothing fun k => ?_⟩
    · cases b.target <;> rfl
    · unfold EventBinding.trigger?
      split
      · simp [heldAt, Trigger.handlerAt, hg]
      · rfl
  | some g =>
    cases hv : b.target with
    | none =>
      refine ⟨_, (bind_of_ok rfl).trans rfl, releases_nothing fun k => ?_⟩
      simp [EventBinding.trigger?, hv, heldAt]
    | some v =>
      have hs' : (Binding.event b).Sound p (w.setBinding id (Binding.event b).disposal) id :=
        hs.mono (offersSame_of_objects rfl) (Nat.le_refl _)
      obtain ⟨w', h, hr⟩ := EventBinding.release_ready (f := f) hs' hd hv hg
      exact ⟨w', (bind_of_ok rfl).trans h, hr⟩

theorem dispose_ready {s : Binding} (hs : w.bindings.find? id = some s) (hsound : s.Sound p w id)
    (hd : s.isDisposed = false) :
    ∃ w', Host.dispose ⟨p, f⟩ id w = .ok () w' ∧ World.Releases s.triggers (w.setBinding id s.disposal) w' := by
  unfold Host.dispose
  rw [bind_get]
  simp only [hs]
  cases s with
  | equality b => exact EqualityBinding.dispose_ready hd fun t ht => (hsound.live hd t ht).ready
  | action b => exact ActionBinding.dispose_ready hd fun t ht => (hsound.live hd t ht).ready
  | event b => exact EventBinding.dispose_ready hsound hd
  | custom name =>
    refine ⟨_, rfl, ?_⟩
    rw [Binding.disposal, World.setBinding_find? hs]
    exact { lists := fun _ => rfl, direct := List.Subset.refl _ }

end

theorem attachedAt_disposal (s : Binding) (k : EventKey) : s.disposal.attachedAt k = [] := by
  cases s <;> rfl

theorem Binding.Sound.disposal {p : Platform} {w : World} {id : BindingId} {s : Binding} (h : s.Sound p w id) :
    s.disposal.Sound p w id := by
  have hnone (ts : List Trigger) : (ts.map Trigger.detached).filterMap Trigger.handler = [] := by
    induction ts with
    | nil => rfl
    | cons t ts ih => rw [List.map_cons, List.filterMap_cons_none rfl, ih]
  cases s with
  | equality b =>
    refine ⟨h.issued, (fun hd => by cases hd), (fun hd => by cases hd), fun _ => ?_, fun _ _ _ he => by cases he⟩
    simp only [Binding.disposal, Binding.handlers, ← List.map_append]
    exact hnone _
  | action b =>
    exact ⟨h.issued, (fun hd => by cases hd), (fun hd => by cases hd), fun _ => hnone _, fun _ _ _ he => by cases he⟩
  | event b =>
    refine ⟨h.issued, (fun hd => by cases hd), (fun hd => by cases hd), fun _ => rfl, ?_⟩
    rintro _ v g hb - hv -
    cases hb
    cases hv
  | custom name => exact h

/-! ## Steps of host code -/

/-- Accounts stay accounts, and what is hidden stays so apart from some bindings. -/
def World.Ledger (p : Platform) (M : BindingId → Prop) : World → World → Prop :=
  Guarded (World.Accounted p) (World.Respects M)

section
variable {p : Platform} {w w' : World}

theorem ledger_chains (p : Platform) (M : BindingId → Prop) : Chains (World.Ledger p M) := (respects_chains M).guarded

theorem ledger_mono {M M' : BindingId → Prop} (hM : ∀ id, M id → M' id) (h : World.Ledger p M w w') :
    World.Ledger p M' w w' :=
  fun hw => ⟨(h hw).1, (h hw).2.mono fun id _ => hM id⟩

theorem ledger_widen {M : BindingId → Prop} (h : World.Ledger p untouched w w') : World.Ledger p M w w' :=
  ledger_mono (fun _ hx => hx.elim) h

theorem ledger_reached {M : BindingId → Prop} (hM : ∀ id, M id → w.Reaches id) (h : World.Ledger p M w w') :
    World.Ledger p untouched w w' :=
  fun hw => ⟨(h hw).1, (h hw).2.mono fun id hid hm => absurd (hM id hm) hid.2⟩

theorem ledger_stores (h : w.Stores w') : World.Ledger p untouched w w' := by
  intro hw
  apply hw.change h.bindings (fun o => ⟨h.offers o, h.exposes o⟩) h.next h.direct
  · intro name id hn
    rw [h.namedBindings] at hn
    exact .inl hn
  · intro k
    have hheard : w'.heard k = w.heard k := by
      unfold World.heard
      rw [h.listenings]
    rw [hheard, h.handlersOf]
    exact hw.shared k
  · intro g hg
    cases hg with
    | heard hk =>
      unfold World.heard at hk
      rw [h.listenings] at hk
      exact .inl (.heard hk)
    | named hn =>
      rw [h.namedHandlers] at hn
      exact .inl (.named hn)

theorem ledger_value (w : World) (id : BindingId) (v : Value) :
    World.Ledger p (· = id) w (w.updateEquality id fun b => { b with value := v }) := by
  intro hw
  unfold World.updateEquality
  cases hb : w.equality? id with
  | none => exact ⟨hw, (respects_chains _).refl w⟩
  | some b =>
    have hfind := World.equality?_eq_some.mp hb
    have hs := hw.sound _ _ (Table.mem_entries hfind)
    refine hw.update ⟨hs.issued, hs.live, hs.listed, hs.idle, fun _ _ _ he => nomatch he⟩ fun k => ?_
    unfold World.held
    rw [hfind]
    rfl

theorem dispose_ledger (p : Platform) (f : Action → Effect Unit) (id : BindingId) :
    Lasts (World.Ledger p (· = id)) (Host.dispose ⟨p, f⟩ id) := by
  apply lasts_dispose (ledger_chains p _)
  intro w s hs hd
  -- That it returns holds in any world; what it takes away is known only where triggers can let go.
  obtain ⟨w', h, -⟩ := dispose_live ⟨p, f⟩ hs hd
  refine ⟨w', h, fun hw => ?_⟩
  have hsound := hw.sound id s (Table.mem_entries hs)
  obtain ⟨w₁, h₁, hr⟩ := dispose_ready (f := f) hs hsound hd
  cases h.symm.trans h₁
  refine hw.release hr (hsound.disposal.mono (offersSame_of_objects hr.objects) hr.next) ?_ (attachedAt_disposal s)
  intro k
  unfold World.held
  rw [hs, Option.map_some, Option.getD_some, Binding.attachedAt, hd]
  rfl

theorem ledger_unname (w : World) (name : String) :
    World.Ledger p untouched w { w with namedBindings := w.namedBindings.erase name } := by
  intro hw
  apply hw.change
  · rfl
  · exact offersSame_of_objects rfl
  · exact Nat.le_refl _
  · rfl
  · intro name' id hn
    rw [Table.find?_erase] at hn
    split at hn
    · cases hn
    · exact .inl hn
  · exact hw.shared
  · intro g hg
    cases hg with
    | heard hk => exact .inl (.heard hk)
    | named hn => exact .inl (.named hn)

theorem makeNamedHandler_ledger (name : String) (acts : List Act) :
    Lasts (World.Ledger p untouched) (makeNamedHandler name acts) := by
  refine ⟨fun w u w' h hw => ?_, fun w e w' h => by cases h⟩
  cases h
  apply hw.change
  · rfl
  · exact offersSame_of_objects rfl
  · exact Nat.le_succ _
  · rfl
  · exact fun _ _ hn => .inl hn
  · exact hw.shared
  · intro g hg
    cases hg with
    | heard hk => exact .inl (.heard hk)
    | named hn =>
      rw [Table.find?_insert] at hn
      split at hn
      · cases hn
        exact .inr ⟨Nat.le_refl _, Nat.lt_succ_self _, fun _ ht => ht⟩
      · exact .inl (.named hn)

theorem listenNamed_ledger (k : EventKey) (name : String) : Lasts (World.Ledger p untouched) (listenNamed k name) := by
  apply lasts_listenNamed (ledger_chains p untouched)
  intro w g hg hw
  apply hw.change
  · rfl
  · exact offersSame_of_objects rfl
  · exact Nat.le_refl _
  · rfl
  · exact fun _ _ hn => .inl hn
  · intro k'
    rw [World.handlersOf_setHandlers]
    unfold World.heard World.setHandlers Listening.replay
    by_cases hk : k = k'
    · subst hk
      rw [if_pos rfl, if_pos rfl, if_pos rfl]
      exact (hw.shared k).append_left g
    · rw [if_neg hk, if_neg hk]
      exact hw.shared k'
  · intro g' hg'
    cases hg' with
    | @heard k' hk' =>
      unfold World.heard World.setHandlers Listening.replay at hk'
      by_cases hk : k = k'
      · rw [if_pos hk, if_pos rfl] at hk'
        rcases List.mem_append.mp hk' with hk' | hk'
        · exact .inl (.heard hk')
        · cases List.mem_singleton.mp hk'
          exact .inl (.named hg)
      · rw [if_neg hk] at hk'
        exact .inl (.heard hk')
    | named hn => exact .inl (.named hn)

theorem unlistenNamed_ledger (k : EventKey) (name : String) : Lasts (World.Ledger p untouched) (unlistenNamed k name) := by
  suffices h : ∀ (w w' : World) g, w.namedHandlers.find? name = some g →
      (∃ hs, w' = { w with listenings := ⟨k, g, false⟩ :: w.listenings, handlers := hs }) →
      (∀ k', w'.handlersOf k' = if k = k' then HandlerList.remove (w.handlersOf k') g else w.handlersOf k') →
      World.Ledger p untouched w w' by
    apply lasts_of_returns
    intro w
    unfold unlistenNamed
    rw [bind_get]
    cases hg : w.namedHandlers.find? name with
    | none => exact ⟨false, w, rfl, (ledger_chains p untouched).refl w⟩
    | some g =>
      obtain ⟨found, w', hremove, ⟨hs, rfl⟩, hlists⟩ :=
        removeHandler_ok k g { w with listenings := ⟨k, g, false⟩ :: w.listenings }
      exact ⟨found, _, (bind_of_ok rfl).trans hremove, h w _ g hg ⟨hs, rfl⟩ hlists⟩
  rintro w _ g hg ⟨hs, rfl⟩ hlists hw
  apply hw.change
  · rfl
  · exact offersSame_of_objects rfl
  · exact Nat.le_refl _
  · rfl
  · exact fun _ _ hn => .inl hn
  · intro k'
    rw [hlists]
    unfold World.heard Listening.replay
    by_cases hk : k = k'
    · subst hk
      rw [if_pos rfl, if_pos rfl, if_neg Bool.false_ne_true]
      exact (hw.shared k).remove_left fun y hy => (hw.apart k g (.named hg) y hy).symm
    · rw [if_neg hk, if_neg hk]
      exact hw.shared k'
  · intro g' hg'
    cases hg' with
    | @heard k' hk' =>
      unfold World.heard Listening.replay at hk'
      by_cases hk : k = k'
      · rw [if_pos hk, if_neg Bool.false_ne_true] at hk'
        exact .inl (.heard (HandlerList.remove_subset _ g hk'))
      · rw [if_neg hk] at hk'
        exact .inl (.heard hk')
    | named hn => exact .inl (.named hn)

end

end DataBinding
