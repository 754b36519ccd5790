import DataBinding.Binding.Dispose
import DataBinding.Proofs.Effect

/-!
# Releasing subscriptions

Unsubscribing takes away handlers of the given numbers and does nothing else, also where it fails.
-/

namespace DataBinding

open Effect

/-- Handlers with numbers of a set may have been taken away; nothing else has changed but the log. -/
structure World.Loses (S : Nat → Prop) (w w' : World) : Prop where
  objects : w'.objects = w.objects := by rfl
  removed : ∀ k, w'.handlersOf k ⊆ w.handlersOf k := by exact fun _ => List.Subset.refl _
  kept : ∀ k, ∀ h ∈ w.handlersOf k, ¬ S h.id → h ∈ w'.handlersOf k := by exact fun _ _ h _ => h
  /-- All other handlers are where they were, as often as before. -/
  spared : ∀ k (keep : Handler → Bool), (∀ h ∈ w.handlersOf k, keep h = true → ¬ S h.id) →
    (w'.handlersOf k).filter keep = (w.handlersOf k).filter keep := by exact fun _ _ _ => rfl
  direct : w'.direct ⊆ w.direct := by exact List.Subset.refl _
  named : w'.namedHandlers = w.namedHandlers := by rfl
  jobs : w'.jobs = w.jobs := by rfl
  bindings : w'.bindings = w.bindings := by rfl
  assignments : w'.assignments = w.assignments := by rfl
  next : w'.next = w.next := by rfl

variable {S : Nat → Prop} {E : Stop → Prop} {host : Host}

theorem loses_chains (S : Nat → Prop) : Chains (World.Loses S) where
  refl _ := {}
  trans h h' := {
    objects := h'.objects.trans h.objects
    removed := fun k => List.Subset.trans (h'.removed k) (h.removed k)
    kept := fun k g hg hs => h'.kept k g (h.kept k g hg hs) hs
    spared := fun k keep hkeep =>
      (h'.spared k keep fun g hg => hkeep g (h.removed k hg)).trans (h.spared k keep hkeep)
    direct := List.Subset.trans h'.direct h.direct
    named := h'.named.trans h.named
    jobs := h'.jobs.trans h.jobs
    bindings := h'.bindings.trans h.bindings
    assignments := h'.assignments.trans h.assignments
    next := h'.next.trans h.next }

theorem World.Loses.mono {S' : Nat → Prop} {w w' : World} (h : w.Loses S w') (hS : ∀ n, S n → S' n) : w.Loses S' w' where
  objects := h.objects
  removed := h.removed
  kept k g hg hs := h.kept k g hg fun hn => hs (hS _ hn)
  spared k keep hkeep := h.spared k keep fun g hg hk hn => hkeep g hg hk (hS _ hn)
  direct := h.direct
  named := h.named
  jobs := h.jobs
  bindings := h.bindings
  assignments := h.assignments
  next := h.next

theorem tell_loses (line : String) : Always (World.Loses S) E (tell line) := always_modify fun _ => {}

theorem removeHandler_loses (k : EventKey) {id : Nat} (hid : S id) : Always (World.Loses S) E (removeHandler k id) := by
  have hc := loses_chains S
  constructor
  · intro w b w' h
    rw [removeHandler_run] at h
    cases hr : HandlerList.removeLatest? id (w.handlersOf k) with
    | none =>
      rw [hr] at h
      cases h
      exact hc.refl w
    | some hs =>
      rw [hr] at h
      cases h
      obtain ⟨pre, h₀, post, hlist, rfl, -, rfl⟩ := (HandlerList.removeLatest?_eq_some_iff _ _ _).mp hr
      -- One occurrence has gone from the list, and its number is of the set.
      refine { removed := fun k' g hg => ?_, kept := fun k' g hg hs => ?_, spared := fun k' keep hkeep => ?_ }
      · rw [World.handlersOf_setHandlers] at hg
        split at hg
        · rename_i he
          rw [← he, hlist]
          simp only [List.mem_append, List.mem_cons] at hg ⊢
          exact hg.imp id .inr
        · exact hg
      · rw [World.handlersOf_setHandlers]
        split
        · rename_i he
          rw [← he, hlist] at hg
          simp only [List.mem_append, List.mem_cons] at hg ⊢
          rcases hg with hg | rfl | hg
          · exact .inl hg
          · exact absurd hid hs
          · exact .inr hg
        · exact hg
      · rw [World.handlersOf_setHandlers]
        split
        · rename_i he
          have hgone : keep h₀ ≠ true := by
            rw [← he, hlist] at hkeep
            exact fun hk => hkeep h₀ (List.mem_append_right _ List.mem_cons_self) hk hid
          rw [← he, hlist, List.filter_append, List.filter_append, List.filter_cons_of_neg hgone]
        · rfl
  · intro w e w' h
    rw [removeHandler_run] at h
    cases hr : HandlerList.removeLatest? id (w.handlersOf k) with
    | none =>
      rw [hr] at h
      cases h
    | some hs =>
      rw [hr] at h
      cases h

section
variable {R : World → World → Prop} (hR : Chains R)
include hR

theorem key?_always (s : ChangeSource) (target : Target) (h : Handler) : Always R IsFailure (s.key? host target h) := by
  have hevent : Always R IsFailure (s.event? host target) := by
    cases s with
    | property name => exact always_get hR fun w => always_bind hR (always_except hR _) fun _ => always_pure hR _
    | direct tag => exact always_pure hR _
    | _ => exact always_bind hR (always_except hR _) fun _ => always_pure hR _
  refine always_bind hR hevent fun key => ?_
  cases key with
  | none => exact always_pure hR _
  | some k => exact always_bind hR (always_except hR _) fun _ => always_pure hR _

theorem checkTraced_always (htell : ∀ line, Always R IsFailure (tell line)) (s : ChangeSource) (fault : Fault)
    (k : EventKey) : Always R IsFailure (s.checkTraced fault k) := by
  cases s with
  | traced e tag refusing =>
    cases k with
    | named o e' =>
      refine always_bind hR (htell _) fun _ => ?_
      split
      · exact always_throw hR nofun
      · exact always_pure hR _
    | _ => exact always_pure hR _
  | _ => exact always_pure hR _

end

theorem detach_loses (s : ChangeSource) (target : Target) {h : Handler} (hid : S h.id) :
    Always (World.Loses S) IsFailure (s.detach host target h) := by
  have hc := loses_chains S
  refine always_bind hc (key?_always hc s target h) fun key => ?_
  split
  · refine always_bind hc (checkTraced_always hc tell_loses _ _ _) fun _ => ?_
    exact always_bind hc (removeHandler_loses _ hid) fun _ => always_pure hc _
  · refine always_bind hc (tell_loses _) fun _ => ?_
    exact always_modify fun w => { direct := fun d hd => (List.mem_filter.mp hd).1 }
  · exact always_pure hc _

/-- Detaching the handler of an event binding always returns. -/
theorem release_loses {b : EventBinding} {target : Value} {g : Handler} (hg : S g.id) :
    Always (World.Loses S) E (b.release host target g) := by
  have hc := loses_chains S
  have hdebug (line : String) : Always (World.Loses S) E (debug line) := tell_loses _
  unfold EventBinding.release
  cases b.source with
  | some s =>
    refine always_bind hc (always_attempt (detach_loses s _ hg)) fun r => ?_
    cases r with
    | ok u => exact hdebug _
    | error e => exact always_bind hc (tell_loses _) fun _ => hdebug _
  | none =>
    have hremove : Always (World.Loses S) E (removeExposed target b.event g) := by
      refine always_get hc fun w => ?_
      split
      · unfold removeUniversal
        split
        · exact removeHandler_loses _ hg
        · exact always_pure hc _
      · exact always_pure hc _
    refine always_bind hc hremove fun r => ?_
    cases r with
    | true => exact hdebug _
    | false => exact always_bind hc (tell_loses _) fun _ => hdebug _

namespace Trigger

def detached (t : Trigger) : Trigger := { t with handler := none }

theorem unsubscribe_ok (host : Host) (t : Trigger) (w : World) (hS : ∀ h ∈ t.handler, S h.id) :
    ∃ r w', t.unsubscribe host w = .ok (r, t.detached) w' ∧ w.Loses S w' := by
  obtain ⟨target, source, label, handler⟩ := t
  cases handler with
  | none => exact ⟨.ok (), w, rfl, {}⟩
  | some g =>
    have hdetach : Always (World.Loses S) IsFailure (do
        source.detach host target g
        tellState host ⟨target, source, label, some g⟩ "unsubscribed") :=
      always_bind (loses_chains S) (detach_loses source target (hS g rfl)) fun _ => tell_loses _
    obtain ⟨r, w', hr, hloses⟩ := attempt_always hdetach w
    exact ⟨r, w', bind_of_ok hr, hloses⟩

/-- Unsubscribing returns, whatever goes wrong, and only the handlers of these triggers can be gone after it. -/
theorem unsubscribeAll_ok (host : Host) (ts : List Trigger) (w : World) (hS : ∀ h ∈ ts.filterMap handler, S h.id) :
    ∃ w', unsubscribeAll host ts w = .ok (ts.map detached) w' ∧ w.Loses S w' := by
  have hc := loses_chains S
  induction ts generalizing w with
  | nil => exact ⟨w, rfl, hc.refl w⟩
  | cons t ts ih =>
    have hown : ∀ h ∈ t.handler, S h.id := fun h hh => hS h (List.mem_filterMap.mpr ⟨t, List.mem_cons_self, hh⟩)
    have hrest : ∀ h ∈ ts.filterMap handler, S h.id := by
      intro h hh
      obtain ⟨t', ht', hh⟩ := List.mem_filterMap.mp hh
      exact hS h (List.mem_filterMap.mpr ⟨t', List.mem_cons_of_mem _ ht', hh⟩)
    obtain ⟨r, w₁, h₁, hl₁⟩ := unsubscribe_ok host t w hown
    cases r with
    | ok u =>
      obtain ⟨w', h', hl'⟩ := ih w₁ hrest
      exact ⟨w', (bind_of_ok h₁).trans ((bind_of_ok rfl).trans (bind_of_ok h')), hc.trans hl₁ hl'⟩
    | error e =>
      let line := "failed to unsubscribe: " ++ e.message ++ " [trigger=" ++ t.label ++ "]"
      have hwarn : w₁.Loses S { w₁ with log := ("WARN " ++ line) :: w₁.log } := {}
      obtain ⟨w', h', hl'⟩ := ih _ hrest
      exact ⟨w', (bind_of_ok h₁).trans ((bind_of_ok rfl).trans (bind_of_ok h')), hc.trans hl₁ (hc.trans hwarn hl')⟩

end Trigger

end DataBinding
