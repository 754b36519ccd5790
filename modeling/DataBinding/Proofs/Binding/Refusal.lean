import DataBinding.Proofs.Subscription.Failed

/-!
# Disposal past refusals

A trigger that cannot be detached does not keep a binding from being disposed, nor the other triggers from being detached
(`dispose_past_refusals`).
-/

namespace DataBinding

open Effect

namespace Binding

def subscriptions : Binding → Nat
  | equality b => b.subscriptions
  | action b => b.subscriptions
  | _ => 0

end Binding

theorem subscribedCount_detached (ts : List Trigger) : subscribedCount (ts.map Trigger.detached) = 0 := by
  simp [subscribedCount, Trigger.isSubscribed, Trigger.detached]

section
variable {host : Host} {w : World} {id : BindingId} {s : Binding}

theorem disposal_released (hs : s.observes = true) : s.disposal.isDisposed = true ∧ s.disposal.subscriptions = 0 := by
  cases s with
  | equality b =>
    simp [Binding.disposal, Binding.isDisposed, Binding.subscriptions, EqualityBinding.subscriptions, subscribedCount_detached]
  | action b =>
    simp [Binding.disposal, Binding.isDisposed, Binding.subscriptions, ActionBinding.subscriptions, subscribedCount_detached]
  | event b => cases hs
  | custom name => cases hs

theorem dispose_frees (host : Host) (hs : w.bindings.find? id = some s) (hd : s.isDisposed = false) (hobserves : s.observes = true) :
    ∃ w', host.dispose id w = .ok () w' ∧
      World.Frees (freed host w s.triggers) (protests host w s.triggers) (w.setBinding id s.disposal) w' := by
  unfold Host.dispose
  rw [bind_get]
  simp only [hs]
  cases s with
  | equality b => exact EqualityBinding.dispose_frees host id hd w
  | action b => exact ActionBinding.dispose_frees host id hd w
  | event b => cases hobserves
  | custom name => cases hobserves

/-- Whichever triggers of a live equality or action binding refuse to be detached: disposal returns with the binding
disposed and without subscriptions, exactly the handlers of the other triggers are gone from their events, one warning was
given for each refusal, and disposing again does nothing. -/
theorem dispose_past_refusals (host : Host) (hs : w.bindings.find? id = some s) (hd : s.isDisposed = false)
    (hobserves : s.observes = true) :
    ∃ w', host.dispose id w = .ok () w' ∧
      (w'.bindings.find? id = some s.disposal ∧ s.disposal.isDisposed = true ∧ s.disposal.subscriptions = 0) ∧
      World.Frees (freed host w s.triggers) (protests host w s.triggers) (w.setBinding id s.disposal) w' ∧
      (∀ k i, (w'.handlersOf k).countP (·.id = i) =
        (w.handlersOf k).countP (·.id = i) - (heldAt k (freed host w s.triggers)).countP (·.id = i)) ∧
      (protests host w s.triggers).length = s.triggers.countP (fun t => (t.refusal? host w).isSome) ∧
      host.dispose id w' = .ok () w' := by
  obtain ⟨w', hdispose, hw'⟩ := dispose_frees host hs hd hobserves
  obtain ⟨hdisposed, hnone⟩ := disposal_released hobserves
  have hfound : w'.bindings.find? id = some s.disposal := by
    rw [hw'.bindings, World.find?_setBinding, if_pos rfl]
  refine ⟨w', hdispose, ⟨hfound, hdisposed, hnone⟩, hw', fun k i => ?_, ?_, dispose_disposed hfound hdisposed⟩
  · rw [hw'.lists k, HandlerList.countP_foldl_remove]
    rfl
  · simp [protests, Trigger.protest?, List.length_filterMap_eq_countP]

end

namespace Sums

/-- Changes of `Y` are told by an event that lets no handler go. -/
def clinging : Configuration where
  memberSources := Table.empty.insert ⟨⟨5⟩, 1⟩ (.traced .ticked "t" (some .detach))

def bound : World :=
  after (Blueprint.equality clinging .empty (access 0 "a" "X" 0)
    (.binary .add (access 1 "b" "X" 0) (access 2 "b" "Y" 1) .int) |>.create host idle)

/-- The sum is disposed although its second trigger cannot be detached. -/
theorem clinging_sum_disposed :
    ∃ s, bound.bindings.find? ⟨3⟩ = some s ∧ s.isDisposed = false ∧ s.observes = true ∧ s.subscriptions = 2 ∧
      ∃ w', host.dispose ⟨3⟩ bound = .ok () w' ∧ w'.bindings.find? ⟨3⟩ = some s.disposal ∧ s.disposal.subscriptions = 0 ∧
        (bound.handlersOf (.changed "b")).length = 1 ∧ (w'.handlersOf (.changed "b")).length = 0 ∧
        (bound.handlersOf (.named "b" .ticked)).length = 1 ∧ (w'.handlersOf (.named "b" .ticked)).length = 1 ∧
        w'.warnings = ["WARN failed to unsubscribe: cannot unsubscribe t [trigger=Model.Y]"] ∧
        host.dispose ⟨3⟩ w' = .ok () w' := by
  have hbound : (bound.bindings.find? ⟨3⟩).map (fun s => (s.isDisposed, s.observes, s.subscriptions)) =
      some (false, true, 2) := by decide +kernel
  obtain ⟨s, hs, hstate⟩ := Option.map_eq_some_iff.mp hbound
  obtain ⟨hlive, hobserves, hcount⟩ : s.isDisposed = false ∧ s.observes = true ∧ s.subscriptions = 2 := by
    simpa using hstate
  obtain ⟨w', hdispose, ⟨hfound, -, hnone⟩, -, -, -, hagain⟩ := dispose_past_refusals host hs hlive hobserves
  have hw' : after (host.dispose ⟨3⟩ bound) = w' := by rw [hdispose]; rfl
  refine ⟨s, hs, hlive, hobserves, hcount, w', hdispose, hfound, hnone, ?_⟩
  rw [← hw'] at hagain ⊢
  exact ⟨by decide +kernel, by decide +kernel, by decide +kernel, by decide +kernel, by decide +kernel, hagain⟩

end Sums

end DataBinding
