import DataBinding.Proofs.Binding.Dispose
import DataBinding.Proofs.Network.Bind
import DataBinding.Proofs.Network.Spread

/-!
# Networks between operations

Both sides of every live binding have the value that was carried over last (`Synced`), and every binding knows its own
handlers (`Listed`). Writing, disposing and binding return and keep that.
-/

namespace DataBinding

open Effect

namespace Network

variable (N : Network)

/-- The sides of the live bindings have the value that was carried over last. -/
def Synced (L : List Link) (w : World) : Prop :=
  ∀ k ∈ L, ∀ b, w.equality? k.id = some b → b.disposed = false →
    b.value.same (k.left.value w) = true ∧ b.value.same (k.right.value w) = true

/-- Numbers are given out once. -/
structure Listed (L : List Link) (w : World) : Prop where
  known : ∀ id s, w.bindings.find? id = some s → ∃ k ∈ L, k.id = id
  fresh : ∀ k ∈ L, k.id.index < w.next
  numbered : ∀ o, ∀ g ∈ w.handlersOf (.changed o), g.id < w.next
  owned : ∀ id s, w.bindings.find? id = some s → ∀ n, s.Owns n → n < w.next ∧
    ∀ o, ∀ g ∈ w.handlersOf (.changed o), g.id = n → ∃ name x y, g.response = .onProperty name (.follow id x y)

/-- What holds between operations. -/
structure Sound (L : List Link) (w : World) : Prop extends N.Wired L w where
  synced : Synced L w
  listed : Listed L w

variable {N} {L : List Link} {w w' : World} {v : Value}

/-! ## Writing -/

theorem Synced.kept (h : Synced L w) (hv : v.IsScalar) : Kept L v w := by
  intro k hk b hb hd hs
  obtain ⟨hl, hr⟩ := h k hk b hb hd
  have hscalar := Value.IsScalar.of_same hv hs
  exact ⟨Value.same_trans hscalar (.inl hv) hs hl, Value.same_trans hscalar (.inl hv) hs hr⟩

theorem Spreads.synced (h : N.Spreads L v w w') (hv : v.IsScalar) (hs : Synced L w) : Synced L w' := by
  intro k hk b hb hd
  cases hp : k.pending v w' with
  | true =>
    obtain ⟨hb', hl, hr⟩ := h.untouched k hk hp
    rw [hl, hr]
    exact hs k hk b (hb'.symm.trans hb) hd
  | false =>
    have hcached : v.same b.value = true := ((Link.pending_eq_false hb).mp hp).resolve_left (by simp [hd])
    obtain ⟨hl, hr⟩ := h.kept k hk b hb hd hcached
    have hback := Value.same_symm (.inl hv) hcached
    have hscalar := Value.IsScalar.of_same hv hcached
    exact ⟨Value.same_trans hv (.inl hscalar) hback hl, Value.same_trans hv (.inl hscalar) hback hr⟩

theorem Listed.spread {L' : List Link} (h : Listed L' w) (hs : Spread L v w w') : Listed L' w' where
  known id s hf := by
    rcases hs.bindings id with hsame | ⟨-, -, -, b, -, hb, -⟩
    · exact h.known id s (hsame ▸ hf)
    · exact h.known id _ (World.equality?_eq_some.mp hb)
  fresh k hk := hs.next ▸ h.fresh k hk
  numbered o g hg := by
    unfold World.handlersOf at hg
    rw [hs.handlers] at hg
    exact hs.next ▸ h.numbered o g hg
  owned id s hf n hn := by
    have hhandlers : ∀ o, w'.handlersOf (.changed o) = w.handlersOf (.changed o) := fun o => by
      unfold World.handlersOf
      rw [hs.handlers]
    simp only [hhandlers, hs.next]
    rcases hs.bindings id with hsame | ⟨k, -, -, b, x, hb, hb'⟩
    · exact h.owned id s (hsame ▸ hf) n hn
    · cases (World.equality?_eq_some.mp hb').symm.trans hf
      exact h.owned id _ (World.equality?_eq_some.mp hb) n hn

theorem Sound.spread (h : N.Sound L w) (hs : N.Spreads L v w w') (hv : v.IsScalar) : N.Sound L w' :=
  ⟨hs.wired, hs.synced hv h.synced, h.listed.spread hs.toSpread⟩

theorem Sound.put (h : N.Sound L w) {e : Endpoint} (he : e ∈ N.ends) (hv : v.Fits N.platform.types N.type) {f : Nat}
    (hf : L.length < f) :
    ∃ w', e.put (N.platform.withFuel f) v w = .ok () w' ∧ N.Sound L w' ∧
      w'.assignments.length ≤ w.assignments.length + L.length := by
  have hscalar : v.IsScalar := fits_scalar hv
  have hrefl : v.same v = true := Value.same_refl (.scalar v hscalar)
  have hkept : Kept L v (e.store w v) := by
    intro k hk b hb hd hs
    obtain ⟨hl, hr⟩ := h.synced.kept hscalar k hk b hb hd hs
    exact ⟨Endpoint.same_store hrefl hl, Endpoint.same_store hrefl hr⟩
  obtain ⟨w', hput, hspreads, -⟩ := puts_withFuel hscalar f w e v he hv hrefl h.toWired hkept
    (Nat.lt_of_le_of_lt List.countP_le_length hf)
  have hgiven := hspreads.given
  have hcount : L.countP (Link.pending v w) ≤ L.length := List.countP_le_length
  exact ⟨w', hput, h.spread hspreads hscalar, by omega⟩

/-! ## Disposing -/

/-- A live binding has been disposed: its own handlers are gone, and all others are there. -/
structure Retires (id : BindingId) (b b' : EqualityBinding) (w w' : World) : Prop where
  disposed : b'.disposed = true
  dispatcher : b'.dispatcher = b.dispatcher
  flags : b'.flags = b.flags
  released : (Binding.equality b').handlers = []
  objects : w'.objects = w.objects
  assignments : w'.assignments = w.assignments
  next : w'.next = w.next
  bindings : ∀ id', w'.bindings.find? id' = if id = id' then some (.equality b') else w.bindings.find? id'
  removed : ∀ k, w'.handlersOf k ⊆ w.handlersOf k
  kept : ∀ k, ∀ g ∈ w.handlersOf k, ¬ (Binding.equality b).Owns g.id → g ∈ w'.handlersOf k

theorem dispose_live {host : Host} {id : BindingId} {b : EqualityBinding} (hb : w.equality? id = some b)
    (hd : b.disposed = false) : ∃ b' w', host.dispose id w = .ok () w' ∧ Retires id b b' w w' := by
  have hfound := World.equality?_eq_some.mp hb
  obtain ⟨w', hdispose, hloses⟩ := DataBinding.dispose_live host hfound hd
  refine ⟨{ b with disposed := true, left := b.left.map Trigger.detached, right := b.right.map Trigger.detached }, w',
    hdispose, rfl, rfl, rfl, Binding.handlers_disposal (.equality b), hloses.objects, hloses.assignments, hloses.next,
    fun id' => ?_, hloses.removed, hloses.kept⟩
  rw [hloses.bindings]
  exact World.find?_setBinding _ _ _ _

section
variable {k : Link} {b b' : EqualityBinding} (h : Retires k.id b b' w w')
include h

theorem Retires.own : w'.equality? k.id = some b' :=
  World.equality?_eq_some.mpr ((h.bindings k.id).trans (if_pos rfl))

theorem Retires.other {k' : Link} (hne : k'.id ≠ k.id) : w'.equality? k'.id = w.equality? k'.id := by
  unfold World.equality?
  rw [h.bindings, if_neg (Ne.symm hne)]

theorem Retires.value (e : Endpoint) : e.value w' = e.value w := by
  unfold Endpoint.value World.slot World.object
  rw [h.objects]

theorem Sound.retires (hw : N.Sound L w) (hb : w.equality? k.id = some b) : N.Wired L w' where
  ends := hw.ends
  distinct := hw.distinct
  fits e he := by
    rw [h.value]
    exact hw.fits e he
  offers e he := by
    unfold World.object
    rw [h.objects]
    exact hw.offers e he
  handlers o g hg := hw.handlers o g (h.removed _ hg)
  bound k' hk' := by
    obtain ⟨b₁, hb₁, hbound⟩ := hw.bound k' hk'
    by_cases hne : k'.id = k.id
    · rw [hne] at hb₁ ⊢
      cases hb₁.symm.trans hb
      refine ⟨b', h.own, h.dispatcher.trans hbound.dispatcher, ?_, fun hd => ?_⟩
      · rw [h.flags]
        exact hbound.recurring
      · rw [h.disposed] at hd
        cases hd
    · refine ⟨b₁, (h.other hne).trans hb₁, hbound.dispatcher, hbound.recurring, fun hd e e' hc => ?_⟩
      obtain ⟨g, hg, hresp⟩ := hbound.listens hd e e' hc
      refine ⟨g, h.kept _ g hg fun hn => hne ?_, hresp⟩
      obtain ⟨-, hfollow⟩ := hw.listed.owned k.id _ (World.equality?_eq_some.mp hb) g.id hn
      obtain ⟨name, x, y, hg'⟩ := hfollow _ g hg rfl
      rw [hresp] at hg'
      unfold reaction at hg'
      simp only [Response.onProperty.injEq, Action.follow.injEq] at hg'
      exact hg'.2.1

theorem Synced.retires (hs : Synced L w) : Synced L w' := by
  intro k' hk' b₁ hb₁ hd
  by_cases hne : k'.id = k.id
  · rw [hne] at hb₁
    cases hb₁.symm.trans h.own
    rw [h.disposed] at hd
    cases hd
  · rw [h.value, h.value]
    exact hs k' hk' b₁ ((h.other hne).symm.trans hb₁) hd

theorem Listed.retires (hl : Listed L w) (hk : k ∈ L) : Listed L w' where
  known id s hs := by
    rw [h.bindings] at hs
    split at hs
    · rename_i he
      exact ⟨k, hk, he⟩
    · exact hl.known id s hs
  fresh k' hk' := h.next ▸ hl.fresh k' hk'
  numbered o g hg := h.next ▸ hl.numbered o g (h.removed _ hg)
  owned id s hs n hn := by
    rw [h.bindings] at hs
    split at hs
    · cases hs
      obtain ⟨g, hg, -⟩ := hn
      rw [h.released] at hg
      cases hg
    · obtain ⟨hlt, hfollow⟩ := hl.owned id s hs n hn
      exact ⟨h.next ▸ hlt, fun o g hg => hfollow o g (h.removed _ hg)⟩

end

theorem Sound.dispose (h : N.Sound L w) (id : BindingId) (host : Host) :
    ∃ w', host.dispose id w = .ok () w' ∧ N.Sound L w' ∧ w'.assignments = w.assignments := by
  cases hs : w.bindings.find? id with
  | none =>
    exact ⟨w, dispose_absent hs, h, rfl⟩
  | some s =>
    obtain ⟨k, hk, rfl⟩ := h.listed.known id s hs
    obtain ⟨b, hb, hbound⟩ := h.bound k hk
    cases hd : b.disposed with
    | true =>
      exact ⟨w, dispose_disposed (World.equality?_eq_some.mp hb) hd, h, rfl⟩
    | false =>
      obtain ⟨b', w', hrun, hr⟩ := dispose_live hb hd
      exact ⟨w', hrun, ⟨h.retires hr hb, h.synced.retires hr, h.listed.retires hr hk⟩, hr.assignments⟩

/-! ## Binding -/

theorem Wired.congr (h : N.Wired L w) (ho : w'.objects = w.objects) (hh : w'.handlers = w.handlers)
    (hb : ∀ k ∈ L, w'.equality? k.id = w.equality? k.id) : N.Wired L w' where
  ends := h.ends
  distinct := h.distinct
  fits e he := by
    unfold Endpoint.value World.slot World.object
    rw [ho]
    exact h.fits e he
  offers e he := by
    unfold World.object
    rw [ho]
    exact h.offers e he
  handlers o g hg := by
    unfold World.handlersOf at hg
    rw [hh] at hg
    exact h.handlers o g hg
  bound k hk := by
    obtain ⟨b, hbk, hbound⟩ := h.bound k hk
    refine ⟨b, (hb k hk).trans hbk, hbound.dispatcher, hbound.recurring, fun hd e e' hc => ?_⟩
    unfold World.handlersOf
    rw [hh]
    exact hbound.listens hd e e' hc

/-- A new binding has been listed; it has no handlers yet. -/
theorem Listed.add (h : Listed L w) {s : Binding} (hs : s.handlers = []) (hh : w'.handlers = w.handlers)
    (hn : w'.next = w.next + 1)
    (hb : ∀ id, w'.bindings.find? id = if ⟨w.next⟩ = id then some s else w.bindings.find? id) (l r : Endpoint) :
    Listed (⟨⟨w.next⟩, l, r⟩ :: L) w' where
  known id s' hs' := by
    rw [hb] at hs'
    split at hs'
    · rename_i hid
      exact ⟨_, List.mem_cons_self, hid⟩
    · obtain ⟨k, hk, hid⟩ := h.known id s' hs'
      exact ⟨k, List.mem_cons_of_mem _ hk, hid⟩
  fresh k hk := by
    rw [hn]
    rcases List.mem_cons.mp hk with rfl | hk
    · exact Nat.lt_succ_self _
    · exact Nat.lt_succ_of_lt (h.fresh k hk)
  numbered o g hg := by
    unfold World.handlersOf at hg
    rw [hh] at hg
    rw [hn]
    exact Nat.lt_succ_of_lt (h.numbered o g hg)
  owned id s' hs' n hown := by
    rw [hb] at hs'
    split at hs'
    · cases hs'
      obtain ⟨g, hg, -⟩ := hown
      rw [hs] at hg
      cases hg
    · obtain ⟨hlt, hfollow⟩ := h.owned id s' hs' n hown
      unfold World.handlersOf
      rw [hh, hn]
      exact ⟨Nat.lt_succ_of_lt hlt, hfollow⟩

section
variable {k : Link} {b : EqualityBinding} (h : Joins N.platform.types k.id b k.left k.right w w')
include h

theorem Joins.value (e : Endpoint) : e.value w' = e.value w := by
  unfold Endpoint.value World.slot World.object
  rw [h.objects]

theorem Joins.other {id : BindingId} (hne : id ≠ k.id) : w'.equality? id = w.equality? id := by
  unfold World.equality?
  rw [h.others id hne]

theorem Wired.joins (hw : N.Wired L w) (hl : k.left ∈ N.ends) (hr : k.right ∈ N.ends) (hnew : ∀ k' ∈ L, k'.id ≠ k.id)
    (hdisp : b.dispatcher = none) (hrec : b.flags.isOneTime = false) : N.Wired (k :: L) w' where
  ends k' hk' := by
    rcases List.mem_cons.mp hk' with rfl | hk'
    · exact ⟨hl, hr⟩
    · exact hw.ends k' hk'
  distinct k₁ hk₁ k₂ hk₂ hid := by
    rcases List.mem_cons.mp hk₁ with hk₁ | hk₁ <;> rcases List.mem_cons.mp hk₂ with hk₂ | hk₂
    · rw [hk₁, hk₂]
    · exact absurd (hid.symm.trans (congrArg _ hk₁)) (hnew k₂ hk₂)
    · exact absurd (hid.trans (congrArg _ hk₂)) (hnew k₁ hk₁)
    · exact hw.distinct k₁ hk₁ k₂ hk₂ hid
  fits e he := by
    rw [Joins.value h]
    exact hw.fits e he
  offers e he := by
    unfold World.object
    rw [h.objects]
    exact hw.offers e he
  handlers o g hg := by
    rcases (h.handlersOf _ g).mp hg with hg | ⟨ho, rfl⟩ | ⟨ho, rfl⟩
    · obtain ⟨k', hk', hrest⟩ := hw.handlers o g hg
      exact ⟨k', List.mem_cons_of_mem _ hk', hrest⟩
    · cases ho
      exact ⟨k, List.mem_cons_self, k.right, k.left, .inr ⟨rfl, rfl⟩, rfl, rfl⟩
    · cases ho
      exact ⟨k, List.mem_cons_self, k.left, k.right, .inl ⟨rfl, rfl⟩, rfl, rfl⟩
  bound k' hk' := by
    rcases List.mem_cons.mp hk' with rfl | hk'
    · obtain ⟨left, right, hown, -⟩ := h.own
      refine ⟨_, hown, hdisp, hrec, fun _ e e' hc => ?_⟩
      rcases hc with ⟨rfl, rfl⟩ | ⟨rfl, rfl⟩
      · exact ⟨_, (h.handlersOf _ _).mpr (.inr (.inr ⟨rfl, rfl⟩)), rfl⟩
      · exact ⟨_, (h.handlersOf _ _).mpr (.inr (.inl ⟨rfl, rfl⟩)), rfl⟩
    · obtain ⟨b', hb', hbound⟩ := hw.bound k' hk'
      refine ⟨b', (Joins.other h (hnew k' hk')).trans hb', hbound.dispatcher, hbound.recurring, fun hd e e' hc => ?_⟩
      obtain ⟨g, hg, hresp⟩ := hbound.listens hd e e' hc
      exact ⟨g, (h.handlersOf _ g).mpr (.inl hg), hresp⟩

theorem Synced.joins (hs : Synced L w) (hnew : ∀ k' ∈ L, k'.id ≠ k.id)
    (hsides : b.value.same (k.left.value w) = true ∧ b.value.same (k.right.value w) = true) : Synced (k :: L) w' := by
  intro k' hk' b' hb' hd
  rw [Joins.value h, Joins.value h]
  rcases List.mem_cons.mp hk' with rfl | hk'
  · obtain ⟨left, right, hown, -⟩ := h.own
    cases hb'.symm.trans hown
    exact hsides
  · exact hs k' hk' b' ((Joins.other h (hnew k' hk')).symm.trans hb') hd

theorem Listed.joins (hl : Listed (k :: L) w) : Listed (k :: L) w' where
  known id s hs := by
    by_cases hid : id = k.id
    · exact ⟨k, List.mem_cons_self, hid.symm⟩
    · exact hl.known id s ((h.others id hid).symm.trans hs)
  fresh k' hk' := by
    rw [h.next]
    exact Nat.lt_add_right 2 (hl.fresh k' hk')
  numbered o g hg := by
    rw [h.next]
    rcases (h.handlersOf _ g).mp hg with hg | ⟨-, rfl⟩ | ⟨-, rfl⟩
    · exact Nat.lt_add_right 2 (hl.numbered o g hg)
    · exact Nat.lt_add_of_pos_right Nat.two_pos
    · exact Nat.lt_succ_self _
  owned id s hs n hn := by
    rw [h.next]
    by_cases hid : id = k.id
    · subst hid
      obtain ⟨left, right, hown, hnumbers⟩ := h.own
      cases hs.symm.trans (World.equality?_eq_some.mp hown)
      obtain ⟨g, hg, rfl⟩ := hn
      have hnumber := hnumbers g hg
      refine ⟨by omega, fun o g' hg' hid => ?_⟩
      rcases (h.handlersOf _ g').mp hg' with hg' | ⟨-, rfl⟩ | ⟨-, rfl⟩
      · have hlt := hl.numbered o g' hg'
        omega
      · exact ⟨_, _, _, rfl⟩
      · exact ⟨_, _, _, rfl⟩
    · obtain ⟨hlt, hfollow⟩ := hl.owned id s ((h.others id hid).symm.trans hs) n hn
      refine ⟨Nat.lt_add_right 2 hlt, fun o g hg hgn => ?_⟩
      rcases (h.handlersOf _ g).mp hg with hg | ⟨-, rfl⟩ | ⟨-, rfl⟩
      · exact hfollow o g hg hgn
      · exact absurd hgn (Nat.ne_of_gt hlt)
      · exact absurd hgn (Nat.ne_of_gt (Nat.lt_succ_of_lt hlt))

end

theorem Sound.new (h : N.Sound L w) {k : Link} (hk : k ∈ L) : k.id ≠ ⟨w.next⟩ := by
  intro hid
  have hlt := h.listed.fresh k hk
  rw [hid] at hlt
  exact Nat.lt_irrefl _ hlt

/-- Before the first value is stored, the other bindings are as they were. -/
theorem Sound.registering (h : N.Sound L w) {b : EqualityBinding} (hb : (Binding.equality b).handlers = []) (v : Value)
    (s : Setter) (l r : Endpoint) {w₁ : World} (hw₁ : w₁ = (w.registering b).carried ⟨w.next⟩ b s v) :
    N.Wired L w₁ ∧ Synced L w₁ ∧ Listed (⟨⟨w.next⟩, l, r⟩ :: L) w₁ ∧ w₁.equality? ⟨w.next⟩ = some { b with value := v } ∧
      w₁.objects = w.objects := by
  subst hw₁
  have hfind : ∀ id, ((w.registering b).carried ⟨w.next⟩ b s v).bindings.find? id =
      if ⟨w.next⟩ = id then some (.equality { b with value := v }) else w.bindings.find? id := by
    intro id
    refine (World.find?_setBinding _ _ _ _).trans ?_
    split
    · rfl
    · rename_i hid
      exact (World.find?_setBinding _ _ _ _).trans (if_neg hid)
  have hothers : ∀ k ∈ L, ((w.registering b).carried ⟨w.next⟩ b s v).equality? k.id = w.equality? k.id := by
    intro k hk
    unfold World.equality?
    rw [hfind, if_neg (Ne.symm (h.new hk))]
  refine ⟨h.toWired.congr rfl rfl hothers, fun k hk b' hb' hd => ?_, ?_, World.equality?_carried _ _ _ _ _, rfl⟩
  · exact h.synced k hk b' ((hothers k hk).symm.trans hb') hd
  · have hhandlers : ((w.registering b).carried ⟨w.next⟩ b s v).handlers = w.handlers := rfl
    exact h.listed.add (s := .equality { b with value := v }) hb hhandlers rfl hfind l r

/-- A new binding carries the value of its right side over, and is in step with both sides from then on. -/
theorem Sound.bind (h : N.Sound L w) {l r : Endpoint} (hl : l ∈ N.ends) (hr : r ∈ N.ends)
    (hnode : l.node = r.node → l.object = r.object) {f : Nat} (hf : L.length < f) :
    ∃ w', EqualityBinding.create (N.platform.withFuel f) N.config .twoWay l.expr r.expr w = .ok ⟨w.next⟩ w' ∧
      N.Sound (⟨⟨w.next⟩, l, r⟩ :: L) w' ∧ w'.assignments.length ≤ w.assignments.length + (L.length + 1) := by
  obtain ⟨v, hv⟩ : ∃ v, v = r.value w := ⟨_, rfl⟩
  obtain ⟨b, hb⟩ : ∃ b : EqualityBinding, b = { dispatcher := N.config.assignments, flags := .twoWay } := ⟨_, rfl⟩
  obtain ⟨w₁, hw₁⟩ : ∃ w₁, w₁ = (w.registering b).carried ⟨w.next⟩ b (l.target N.platform.types) v := ⟨_, rfl⟩
  have hfits : v.Fits N.platform.types N.type := hv ▸ h.fits r hr
  have hscalar : v.IsScalar := fits_scalar hfits
  have hrefl : v.same v = true := Value.same_refl (.scalar v hscalar)
  have hdisp : b.dispatcher = none := hb ▸ N.immediate
  have hrec : b.flags.isOneTime = false := hb ▸ (show Flags.twoWay.isOneTime = false by decide)
  have hregistered : (w.registering b).equality? ⟨w.next⟩ = some b :=
    World.equality?_eq_some.mpr ((World.find?_setBinding _ _ _ _).trans (if_pos rfl))
  obtain ⟨hwired, hsynced, hlisted, hown, hobjects⟩ := h.registering (by rw [hb]; rfl) v (l.target N.platform.types) l r hw₁
  have hkept : Kept L v (l.store w₁ v) := fun k hk b' hb' hd hs => by
    obtain ⟨hleft, hright⟩ := hsynced.kept hscalar k hk b' hb' hd hs
    exact ⟨Endpoint.same_store hrefl hleft, Endpoint.same_store hrefl hright⟩
  -- The first value spreads over the links that were there; the new binding has no handlers yet.
  have hcount : L.countP (Link.pending v w₁) ≤ L.length := List.countP_le_length
  obtain ⟨w₂, hput, hspreads, hleft⟩ := puts_withFuel hscalar f w₁ l v hl hfits hrefl hwired hkept (by omega)
  have hright : v.same (r.value w₂) = true := by
    refine hspreads.reached _ _ ?_
    unfold World.slot World.object
    rw [hobjects]
    rw [hv] at hrefl ⊢
    exact hrefl
  have hstart : EqualityBinding.start (N.platform.withFuel f) ⟨w.next⟩ .twoWay (r.source N.platform.types)
      (l.target N.platform.types) (w.registering b) = .ok false w₂ := by
    have hsource : (r.source N.platform.types).run (N.platform.withFuel f) (w.registering b) = .ok v (w.registering b) := by
      rw [hv]
      exact source_run hr f _
    have hassign : EqualityBinding.assign (N.platform.withFuel f) ⟨w.next⟩ (l.target N.platform.types) v
        ((w.registering b).updateEquality ⟨w.next⟩ fun b => { b with value := v }) = .ok () w₂ := by
      rw [EqualityBinding.assign_carried hregistered hdisp hrec, target_run hl f hfits, ← hw₁]
      exact hput
    rw [EqualityBinding.start_eq hsource (by decide)]
    exact (bind_of_ok hassign).trans rfl
  have hown₂ : w₂.equality? ⟨w.next⟩ = some { b with value := v } := by
    rcases hspreads.bindings ⟨w.next⟩ with hsame | ⟨k, hk, hid, -⟩
    · rw [World.equality?_eq_some, hsame]
      exact World.equality?_eq_some.mp hown
    · exact absurd hid (h.new hk)
  obtain ⟨w', hcreate, hjoins⟩ : ∃ w', EqualityBinding.create (N.platform.withFuel f) N.config .twoWay l.expr r.expr w =
      .ok ⟨w.next⟩ w' ∧ Joins N.platform.types ⟨w.next⟩ { b with value := v } l r w₂ w' :=
    Endpoint.create_joins (N.loud l hl) (N.loud r hr) (by decide) hnode (hb ▸ hstart) hown₂ (hspreads.wired.offers l hl)
      (hspreads.wired.offers r hr)
  refine ⟨w', hcreate, ⟨Wired.joins hjoins hspreads.wired hl hr (fun _ hk => h.new hk) hdisp hrec,
    Synced.joins hjoins (hspreads.synced hscalar hsynced) (fun _ hk => h.new hk) ⟨hleft, hright⟩,
    Listed.joins hjoins (hlisted.spread hspreads.toSpread)⟩, ?_⟩
  have hgiven := hspreads.given
  have hfirst : w₁.assignments.length = w.assignments.length + 1 := by
    rw [hw₁]
    rfl
  rw [hjoins.assignments]
  omega

end Network

end DataBinding
