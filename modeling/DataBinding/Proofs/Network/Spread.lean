import DataBinding.Proofs.Network.State
import DataBinding.Proofs.Network.Telling

/-!
# Spreading a value

A write that changes something is carried over by every pending binding that it reaches, and by each only once. So
raises are nested no deeper than there are pending bindings (`puts_withFuel`).
-/

namespace DataBinding

open Effect

theorem countP_succ_le {α : Type} {p q : α → Bool} {l : List α} {a : α} (ha : a ∈ l) (hp : p a = true)
    (hq : q a = false) (h : ∀ b ∈ l, q b = true → p b = true) : l.countP q + 1 ≤ l.countP p := by
  induction l with
  | nil => cases ha
  | cons b l ih =>
    have hrest : ∀ b ∈ l, q b = true → p b = true := fun b hb => h b (List.mem_cons_of_mem _ hb)
    rw [List.countP_cons, List.countP_cons]
    rcases List.mem_cons.mp ha with rfl | hm
    · have hle := List.countP_mono_left hrest
      rw [hp, hq]
      simp only [Bool.false_eq_true, if_false, if_true]
      omega
    · have hle := ih hm hrest
      have hhead : (if q b = true then 1 else 0) ≤ if p b = true then 1 else 0 := by
        cases hb : q b with
        | false => simp
        | true => simp [h b List.mem_cons_self hb]
      omega

namespace Endpoint

variable {e a : Endpoint} {w : World} {x v : Value}

theorem put_changed (host : Host) (hl : host.raiseLimit = none) (hs : x.settles (e.value w) = false) :
    ∃ w₁, (e.store w x).Alike w₁ ∧ ∀ w₂,
      respondAll host (.property e.member.name) (w.handlersOf (.changed e.object.name)) w₁ = .ok () w₂ →
        ∃ w₃, w₂.Alike w₃ ∧ e.put host x w = .ok () w₃ := by
  exact ⟨e.raising w x, {}, fun w₂ h => ⟨{ w₂ with depth := w.depth }, {}, put_told hl hs h⟩⟩

end Endpoint

/-! ## One binding -/

section
variable {N : Network} {L : List Link} {v : Value} {w w' : World}

theorem Spread.pending_le (h : Spread L v w w') {k : Link} (hk : k ∈ L) (hp : k.pending v w' = true) :
    k.pending v w = true := by
  cases hw : k.pending v w with
  | true => rfl
  | false => exact absurd hp (by simp [h.settled k hk hw])

theorem Spread.count_le (h : Spread L v w w') : L.countP (Link.pending v w') ≤ L.countP (Link.pending v w) :=
  List.countP_mono_left fun _ hk => h.pending_le hk

/-- A stored value has spread if no binding that is still pending has this side. -/
theorem Spread.of_store {e : Endpoint} {x : Value} {w' : World} (hx : v.same x = true)
    (h : Spread L v (e.store w x) w') (hpending : ∀ k ∈ L, k.pending v w' = true →
      k.left.value (e.store w x) = k.left.value w ∧ k.right.value (e.store w x) = k.right.value w) :
    Spread L v w w' where
  handlers := h.handlers
  next := h.next
  offers o := (h.offers o).trans (Endpoint.offers_store e w x o)
  bindings := h.bindings
  reached o s hs := by
    refine h.reached o s ?_
    unfold Endpoint.store
    rw [World.slot_setSlot]
    split
    · exact hx
    · exact hs
  settled := h.settled
  untouched k hk hp := by
    obtain ⟨hb, hl, hr⟩ := h.untouched k hk hp
    obtain ⟨hl', hr'⟩ := hpending k hk hp
    exact ⟨hb, hl.trans hl', hr.trans hr'⟩
  given := h.given

theorem Network.Wired.equality?_carried (hw : N.Wired L w) {k k' : Link} (hk : k ∈ L) (hk' : k' ∈ L) (hne : k' ≠ k)
    (b : EqualityBinding) (s : Setter) (x : Value) : (w.carried k.id b s x).equality? k'.id = w.equality? k'.id := by
  have hid : ¬ k.id = k'.id := fun h => hne (hw.distinct k' hk' k hk h.symm)
  unfold World.equality? World.carried
  rw [World.find?_setBinding, if_neg hid]

theorem Network.Wired.carried_spread (hw : N.Wired L w) {k : Link} (hk : k ∈ L) {b : EqualityBinding}
    (hb : w.equality? k.id = some b) (hp : k.pending v w = true) {x : Value} (hx : v.same x = true) (s : Setter) :
    Spread L v w (w.carried k.id b s x) ∧ k.pending v (w.carried k.id b s x) = false ∧
      L.countP (Link.pending v (w.carried k.id b s x)) + 1 ≤ L.countP (Link.pending v w) := by
  have hown : k.pending v (w.carried k.id b s x) = false :=
    (Link.pending_eq_false (World.equality?_carried w k.id b s x)).mpr (.inr hx)
  have hother : ∀ k' ∈ L, k' ≠ k → (w.carried k.id b s x).equality? k'.id = w.equality? k'.id :=
    fun k' hk' hne => hw.equality?_carried hk hk' hne b s x
  have hpending : ∀ k' ∈ L, k'.pending v (w.carried k.id b s x) = true → k' ≠ k ∧ k'.pending v w = true := by
    intro k' hk' hp'
    have hne : k' ≠ k := by
      rintro rfl
      rw [hown] at hp'
      cases hp'
    exact ⟨hne, (Link.pending_congr (hother k' hk' hne)).symm.trans hp'⟩
  have hcount := countP_succ_le hk hp hown fun k' hk' hp' => (hpending k' hk' hp').2
  refine ⟨?_, hown, hcount⟩
  constructor
  · rfl
  · rfl
  · exact fun _ => rfl
  · intro id
    by_cases hid : k.id = id
    · subst hid
      exact .inr ⟨k, hk, rfl, b, x, hb, World.equality?_carried w k.id b s x⟩
    · exact .inl ((World.find?_setBinding _ _ _ _).trans (if_neg hid))
  · exact fun _ _ h => h
  · intro k' hk' hp'
    by_cases hne : k' = k
    · rw [hne]
      exact hown
    · exact (Link.pending_congr (hother k' hk' hne)).trans hp'
  · intro k' hk' hp'
    exact ⟨hother k' hk' (hpending k' hk' hp').1, rfl, rfl⟩
  · show w.assignments.length + 1 + _ ≤ _
    omega

end

/-! ## Nested writes -/

namespace Network

variable (N : Network) (L : List Link) (v : Value)

/-- A value has spread as far as it gets. -/
structure Spreads (w w' : World) : Prop extends Spread L v w w' where
  wired : N.Wired L w'
  kept : Kept L v w'

/-- Writing a value like `v` returns if actions may be nested so deep. -/
def Puts (f : Nat) : Prop :=
  ∀ w e x, e ∈ N.ends → x.Fits N.platform.types N.type → v.same x = true → N.Wired L w → Kept L v (e.store w x) →
    L.countP (Link.pending v w) < f →
      ∃ w', e.put (N.platform.withFuel f) x w = .ok () w' ∧ N.Spreads L v w w' ∧ v.same (e.value w') = true

variable {N L v} {w : World} {f : Nat}

theorem carries_ends (hw : N.Wired L w) {k : Link} (hk : k ∈ L) {e e' : Endpoint} (hc : k.Carries e e') :
    e ∈ N.ends ∧ e' ∈ N.ends := by
  obtain ⟨hl, hr⟩ := hw.ends k hk
  rcases hc with ⟨rfl, rfl⟩ | ⟨rfl, rfl⟩
  · exact ⟨hl, hr⟩
  · exact ⟨hr, hl⟩

theorem fits_scalar {x : Value} (h : x.Fits N.platform.types N.type) : x.IsScalar := h.isScalar N.scalar

theorem source_run {e : Endpoint} (he : e ∈ N.ends) (f : Nat) (w : World) :
    (e.source N.platform.types).run (N.platform.withFuel f) w = .ok (e.value w) w :=
  Endpoint.Loud.source_run (N.loud e he) w

theorem target_run {e : Endpoint} (he : e ∈ N.ends) (f : Nat) {x : Value} (hx : x.Fits N.platform.types N.type) :
    (e.target N.platform.types).run (N.platform.withFuel f) x = e.put (N.platform.withFuel f) x :=
  Endpoint.Loud.target_run (N.loud e he) hx

/-- A binding whose one side has the value carries it over, unless it has done so before. -/
theorem follow_spreads (hv : v.IsScalar) (hp : N.Puts L v f) {k : Link} (hk : k ∈ L) {e e' : Endpoint}
    (hc : k.Carries e e') (hw : N.Wired L w) (hkept : Kept L v w) (hsame : v.same (e.value w) = true)
    (hcount : L.countP (Link.pending v w) < f + 1) :
    ∃ w', EqualityBinding.follow (N.platform.withFuel f) k.id (e.source N.platform.types) (e'.target N.platform.types) w =
        .ok () w' ∧ N.Spreads L v w w' ∧ k.pending v w' = false := by
  obtain ⟨b, hb, hbound⟩ := hw.bound k hk
  obtain ⟨he, he'⟩ := carries_ends hw hk hc
  have hstay : N.Spreads L v w w := { (spread_chains L v).refl w with wired := hw, kept := hkept }
  cases hd : b.disposed with
  | true => exact ⟨w, EqualityBinding.follow_disposed hb hd, hstay, (Link.pending_eq_false hb).mpr (.inl hd)⟩
  | false =>
    have hfits := hw.fits e he
    rw [EqualityBinding.follow_eq hb hd (source_run he f w)]
    cases hs : b.value.same (e.value w) with
    | true =>
      have hcached := Value.same_trans (fits_scalar hfits) (.inl hv) hsame (Value.same_symm (.inr (fits_scalar hfits)) hs)
      exact ⟨w, rfl, hstay, (Link.pending_eq_false hb).mpr (.inr hcached)⟩
    | false =>
      have hpend : k.pending v w = true := by
        refine Link.pending_eq_true.mpr ⟨b, hb, hd, ?_⟩
        cases hvb : v.same b.value with
        | false => rfl
        | true =>
          -- The side has the value, so a binding that had carried it over would find nothing new.
          have hback := Value.same_trans hv (.inr (fits_scalar hfits)) (Value.same_symm (.inl hv) hvb) hsame
          rw [hs] at hback
          cases hback
      obtain ⟨hspread, hown, hless⟩ := hw.carried_spread hk hb hpend hsame (e'.target N.platform.types)
      simp only [Bool.false_eq_true, if_false]
      rw [EqualityBinding.assign_carried hb hbound.dispatcher hbound.recurring, target_run he' f hfits]
      have hkept₁ : Kept L v (e'.store (w.carried k.id b (e'.target N.platform.types) (e.value w)) (e.value w)) := by
        intro k' hk' b' hb' hd' hs'
        by_cases hne : k' = k
        · have hreached : v.same (e'.value (e'.store (w.carried k.id b (e'.target N.platform.types) (e.value w))
              (e.value w))) = true := by
            rw [Endpoint.value_store_self]
            exact hsame
          subst hne
          rcases hc with ⟨rfl, rfl⟩ | ⟨rfl, rfl⟩
          · exact ⟨Endpoint.same_store hsame hsame, hreached⟩
          · exact ⟨hreached, Endpoint.same_store hsame hsame⟩
        · have hbefore := (hw.equality?_carried hk hk' hne b (e'.target N.platform.types) (e.value w)).symm.trans hb'
          obtain ⟨hl, hr⟩ := hkept k' hk' b' hbefore hd' hs'
          exact ⟨Endpoint.same_store hsame hl, Endpoint.same_store hsame hr⟩
      -- One pending binding less, which pays for going one level deeper.
      have hcount₁ : L.countP (Link.pending v (w.carried k.id b (e'.target N.platform.types) (e.value w))) < f := by
        omega
      obtain ⟨w', hput, hspreads, -⟩ := hp _ e' _ he' hfits hsame (hw.spread hspread hw.fits) hkept₁ hcount₁
      refine ⟨w', hput, ⟨(spread_chains L v).trans hspread hspreads.toSpread, hspreads.wired, hspreads.kept⟩, ?_⟩
      exact hspreads.settled k hk hown

theorem respondAll_spreads (hv : v.IsScalar) (hp : N.Puts L v f) {e : Endpoint} (he : e ∈ N.ends) {hs : List Handler}
    (hhs : ∀ g ∈ hs, ∃ k ∈ L, ∃ a a', k.Carries a a' ∧ a.object.name = e.object.name ∧ g.response = N.reaction k a a')
    (hw : N.Wired L w) (hkept : Kept L v w) (hsame : v.same (e.value w) = true)
    (hcount : L.countP (Link.pending v w) < f + 1) :
    ∃ w', respondAll (N.platform.withFuel (f + 1)) (.property e.member.name) hs w = .ok () w' ∧ N.Spreads L v w w' ∧
      ∀ g ∈ hs, ∀ k ∈ L, ∀ a a', g.response = N.reaction k a a' → a.member.name = e.member.name →
        k.pending v w' = false := by
  induction hs generalizing w with
  | nil =>
    refine ⟨w, rfl, { (spread_chains L v).refl w with wired := hw, kept := hkept }, ?_⟩
    exact fun g hg => absurd hg List.not_mem_nil
  | cons g hs ih =>
    obtain ⟨k, hk, a, a', hc, ho, hg⟩ := hhs g List.mem_cons_self
    have hrespond : ∃ w₁, g.respond (N.platform.withFuel (f + 1)) (.property e.member.name) w = .ok () w₁ ∧
        N.Spreads L v w w₁ ∧ (a.member.name = e.member.name → k.pending v w₁ = false) := by
      unfold Handler.respond
      rw [hg]
      by_cases hn : a.member.name = e.member.name
      · obtain ⟨ha, -⟩ := carries_ends hw hk hc
        have hslot : a.slot = e.slot := (N.separate a ha e he ho).mpr hn
        have hav : a.value w = e.value w := by
          unfold Endpoint.value
          rw [ho, hslot]
        obtain ⟨w₁, hf, hsp, hown⟩ := follow_spreads hv hp hk hc hw hkept (by rw [hav]; exact hsame) hcount
        refine ⟨w₁, ?_, hsp, fun _ => hown⟩
        simp only [reaction, hn, if_true]
        exact hf
      -- A handler for another property of the object passes this one over.
      · refine ⟨w, ?_, { (spread_chains L v).refl w with wired := hw, kept := hkept }, fun h => absurd h hn⟩
        simp only [reaction, EventArgs.property.injEq, Ne.symm hn, if_false]
        rfl
    obtain ⟨w₁, hr, hsp, hown⟩ := hrespond
    obtain ⟨w', hrest, hsp', hdone⟩ := ih (fun g' hg' => hhs g' (List.mem_cons_of_mem _ hg')) hsp.wired hsp.kept
      (hsp.reached _ _ hsame) (Nat.lt_of_le_of_lt hsp.count_le hcount)
    refine ⟨w', (bind_of_ok hr).trans hrest, ⟨(spread_chains L v).trans hsp.toSpread hsp'.toSpread, hsp'.wired,
      hsp'.kept⟩, fun g' hg' k' hk' b b' hb hn => ?_⟩
    rcases List.mem_cons.mp hg' with rfl | hm
    · have hsame : N.reaction k a a' = N.reaction k' b b' := hg.symm.trans hb
      unfold reaction at hsame
      simp only [Response.onProperty.injEq, Action.follow.injEq] at hsame
      obtain ⟨hname, hid, -, -⟩ := hsame
      cases hw.distinct k hk k' hk' hid
      exact hsp'.settled k hk (hown (hname.trans hn))
    · exact hdone g' hm k' hk' b b' hb hn

theorem Wired.store (hw : N.Wired L w) (e : Endpoint) {x : Value} (hx : x.Fits N.platform.types N.type) :
    N.Wired L (e.store w x) where
  ends := hw.ends
  distinct := hw.distinct
  fits a ha := by
    rw [Endpoint.value_store]
    split
    · exact hx
    · exact hw.fits a ha
  offers a ha := (Endpoint.offers_store e w x _).trans (hw.offers a ha)
  handlers := hw.handlers
  bound k hk := by
    obtain ⟨b, hb, hbound⟩ := hw.bound k hk
    exact ⟨b, hb, hbound.dispatcher, hbound.recurring, hbound.listens⟩

/-- One level deeper a write may be carried over by one more binding. -/
theorem Puts.succ (hv : v.IsScalar) (hp : N.Puts L v f) : N.Puts L v (f + 1) := by
  intro w e x he hx hvx hw hkept hcount
  cases hs : x.settles (e.value w) with
  | true =>
    have hreached : v.same (e.value w) = true :=
      Value.same_trans (fits_scalar hx) (.inl hv) hvx (Value.same_symm (.inr (fits_scalar hx)) (Value.same_of_settles hs))
    refine ⟨w, if_pos hs, { (spread_chains L v).refl w with wired := hw, kept := fun k hk b hb hd hc => ?_ }, hreached⟩
    obtain ⟨hl, hr⟩ := hkept k hk b hb hd hc
    exact ⟨Endpoint.same_of_store hreached hl, Endpoint.same_of_store hreached hr⟩
  | false =>
    obtain ⟨w₁, ha, hrun⟩ := Endpoint.put_changed (N.platform.withFuel (f + 1)) N.unlimited hs
    have hstored : v.same (e.value (e.store w x)) = true := by
      rw [Endpoint.value_store_self]
      exact hvx
    have hw₁ : N.Wired L w₁ := (hw.store e hx).alike ha
    have hstart : Spread L v (e.store w x) w₁ := .of_alike ha
    have hcount₁ : L.countP (Link.pending v w₁) < f + 1 := Nat.lt_of_le_of_lt hstart.count_le hcount
    obtain ⟨w₂, hr, hsp, hdone⟩ := respondAll_spreads hv hp he (hw.handlers e.object.name) hw₁ (hkept.alike ha)
      (hstart.reached _ _ hstored) hcount₁
    obtain ⟨w₃, ha', hput⟩ := hrun w₂ hr
    have hend : Spread L v w₂ w₃ := .of_alike ha'
    have hspread : Spread L v (e.store w x) w₃ :=
      (spread_chains L v).trans hstart ((spread_chains L v).trans hsp.toSpread hend)
    refine ⟨w₃, hput, ⟨hspread.of_store hvx fun k hk hpend => ?_, hsp.wired.alike ha', hsp.kept.alike ha'⟩,
      hspread.reached _ _ hstored⟩
    -- A binding with this side has listened to the change.
    have hside : ∀ a a', k.Carries a a' → a.value (e.store w x) = a.value w := by
      intro a a' hc
      rw [Endpoint.value_store]
      split
      · rename_i hslot
        obtain ⟨hname, hslot⟩ := hslot
        obtain ⟨b, hb, hbound⟩ := hw.bound k hk
        obtain ⟨b', hb', hd, -⟩ := Link.pending_eq_true.mp (hspread.pending_le hk hpend)
        cases hb.symm.trans hb'
        obtain ⟨g, hg, hresp⟩ := hbound.listens hd a a' hc
        rw [← hname] at hg
        have hown := (N.separate a (carries_ends hw hk hc).1 e he hname.symm).mp hslot.symm
        have hsettled := hend.settled k hk (hdone g hg k hk a a' hresp hown)
        rw [hpend] at hsettled
        cases hsettled
      · rfl
    exact ⟨hside k.left k.right (.inl ⟨rfl, rfl⟩), hside k.right k.left (.inr ⟨rfl, rfl⟩)⟩

theorem puts_withFuel (hv : v.IsScalar) (f : Nat) : N.Puts L v f := by
  induction f with
  | zero => exact fun w e x _ _ _ _ _ hcount => absurd hcount (Nat.not_lt_zero _)
  | succ f ih => exact ih.succ hv

end Network

end DataBinding
