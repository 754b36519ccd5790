import DataBinding.Trigger.Attach
import DataBinding.Proofs.Effect

/-!
# Subscribing new triggers

A trigger that has no handler makes one and attaches it. Its subscription gives this handler or the refusal that came
up (`subscribe_eq_ok`, `subscribe_eq_refused`), and a list of triggers is subscribed up to the first refusal.
-/

namespace DataBinding

open Effect

namespace Trigger

variable {host : Host} {a : Action} {t t' : Trigger} {w w' : World}

def attachNew (host : Host) (t : Trigger) (a : Action) : Effect Handler := do
  let h ← t.source.createHandler a
  t.source.attach host t.target h
  t.tellState host "subscribed"
  return h

theorem subscribe_detached (ht : t.handler = none) :
    t.subscribe host a w = (do
      match ← attempt (t.attachNew host a) with
      | .error e => return (.error e, t)
      | .ok h => return (.ok (), { t with handler := some h }) : Effect (Except Error Unit × Trigger)) w := by
  have hunsubscribe : t.unsubscribe host w = .ok (.ok (), t) w := by
    unfold unsubscribe
    rw [ht]
    rfl
  exact bind_of_ok hunsubscribe

theorem subscribe_eq_ok (ht : t.handler = none) :
    t.subscribe host a w = .ok (.ok (), t') w' ↔
      ∃ g, t.attachNew host a w = .ok g w' ∧ t' = { t with handler := some g } := by
  rw [subscribe_detached ht]
  constructor
  · intro h
    obtain ⟨outcome, w₁, hnew, h⟩ := bind_eq_ok.mp h
    cases outcome with
    | error e => cases h
    | ok g =>
      cases h
      exact ⟨g, attempt_eq_ok.mp hnew, rfl⟩
  · rintro ⟨g, hnew, rfl⟩
    exact bind_of_ok (attempt_eq_ok.mpr hnew)

theorem subscribe_eq_refused {e : Error} (ht : t.handler = none) :
    t.subscribe host a w = .ok (.error e, t') w' ↔ t.attachNew host a w = .error (.failed e) w' ∧ t' = t := by
  rw [subscribe_detached ht]
  constructor
  · intro h
    obtain ⟨outcome, w₁, hnew, h⟩ := bind_eq_ok.mp h
    cases outcome with
    | error e' =>
      cases h
      exact ⟨attempt_eq_failed.mp hnew, rfl⟩
    | ok g => cases h
  · rintro ⟨hnew, rfl⟩
    exact bind_of_ok (attempt_eq_failed.mpr hnew)

theorem subscribe_error_exhausted {e : Stop} (ht : t.handler = none) (h : t.subscribe host a w = .error e w') :
    t.attachNew host a w = .error .exhausted w' := by
  rw [subscribe_detached ht] at h
  obtain hnew | ⟨outcome, w₁, -, hreturn⟩ := bind_eq_error.mp h
  · exact (attempt_eq_error.mp hnew).2
  · cases outcome <;> cases hreturn

variable {ts ts' : List Trigger}

theorem subscribeAll_cons_eq_ok :
    subscribeAll host a (t :: ts) w = .ok ts' w' ↔ ∃ t₁ w₁ us, t.subscribe host a w = .ok (.ok (), t₁) w₁ ∧
      subscribeAll host a ts w₁ = .ok us w' ∧ ts' = t₁ :: us := by
  constructor
  · intro h
    obtain ⟨⟨outcome, t₁⟩, w₁, hsub, h⟩ := bind_eq_ok.mp h
    obtain ⟨u, w₂, hok, h⟩ := bind_eq_ok.mp h
    obtain ⟨rfl, rfl⟩ := ofExcept_eq_ok.mp hok
    obtain ⟨us, w₃, hrest, h⟩ := bind_eq_ok.mp h
    cases h
    exact ⟨t₁, w₁, us, hsub, hrest, rfl⟩
  · rintro ⟨t₁, w₁, us, hsub, hrest, rfl⟩
    exact (bind_of_ok hsub).trans ((bind_of_ok rfl).trans (bind_of_ok hrest))

/-- A list of triggers is not subscribed if the first of them is not, or else if the others are not. -/
theorem subscribeAll_cons_error {e : Stop} (h : subscribeAll host a (t :: ts) w = .error e w') :
    t.subscribe host a w = .error e w' ∨
      (∃ e' t', e = .failed e' ∧ t.subscribe host a w = .ok (.error e', t') w') ∨
      ∃ t' w₁, t.subscribe host a w = .ok (.ok (), t') w₁ ∧ subscribeAll host a ts w₁ = .error e w' := by
  obtain hsub | ⟨⟨outcome, t'⟩, w₁, hsub, h⟩ := bind_eq_error.mp h
  · exact .inl hsub
  · cases outcome with
    | error e' =>
      cases h
      exact .inr (.inl ⟨e', t', rfl, hsub⟩)
    | ok u =>
      obtain hrest | ⟨us, w₂, -, hreturn⟩ := bind_eq_error.mp ((bind_of_ok rfl).symm.trans h)
      · exact .inr (.inr ⟨t', w₁, hsub, hrest⟩)
      · cases hreturn

end Trigger

end DataBinding
