import DataBinding.World

/-!
# Running computations

How a sequence of computations runs, and two notions about one world: a computation is quiet there if it gives
a value or fails and leaves the world as it is, and two computations agree there if both are quiet and give
the same value or both fail.
-/

namespace DataBinding

section
variable {ε σ α β : Type} {x : EStateM ε σ α} {f : α → EStateM ε σ β} {s s' : σ}

theorem bind_of_ok {a : α} (h : x s = .ok a s') : (x >>= f) s = f a s' := by
  show EStateM.bind x f s = _
  unfold EStateM.bind; rw [h]

theorem bind_get {f : σ → EStateM ε σ β} : (get >>= f) s = f s s := rfl

theorem bind_of_error {e : ε} (h : x s = .error e s') : (x >>= f) s = .error e s' := by
  show EStateM.bind x f s = _
  unfold EStateM.bind; rw [h]

theorem bind_eq_ok {b : β} {s'' : σ} :
    (x >>= f) s = .ok b s'' ↔ ∃ a s', x s = .ok a s' ∧ f a s' = .ok b s'' := by
  constructor
  · intro h
    cases hx : x s with
    | ok a s' =>
      rw [bind_of_ok hx] at h
      exact ⟨a, s', rfl, h⟩
    | error e s' =>
      rw [bind_of_error hx] at h
      cases h
  · rintro ⟨a, s', hx, hf⟩
    rw [bind_of_ok hx, hf]

theorem bind_eq_error {e : ε} {s'' : σ} :
    (x >>= f) s = .error e s'' ↔ x s = .error e s'' ∨ ∃ a s', x s = .ok a s' ∧ f a s' = .error e s'' := by
  constructor
  · intro h
    cases hx : x s with
    | ok a s' =>
      rw [bind_of_ok hx] at h
      exact .inr ⟨a, s', rfl, h⟩
    | error e' s' =>
      rw [bind_of_error hx] at h
      cases h
      exact .inl rfl
  · rintro (hx | ⟨a, s', hx, hf⟩)
    · exact bind_of_error hx
    · rw [bind_of_ok hx, hf]

/-- What follows a computation matters only for the values that this gives. -/
theorem bind_congr_of_ok {g : α → EStateM ε σ β} (h : ∀ a s', x s = .ok a s' → f a s' = g a s') :
    (x >>= f) s = (x >>= g) s := by
  cases hx : x s with
  | ok a s' => rw [bind_of_ok hx, bind_of_ok hx, h a s' hx]
  | error e s' => rw [bind_of_error hx, bind_of_error hx]

theorem modify_eq_ok {g : σ → σ} {u : PUnit} : (modify g : EStateM ε σ PUnit) s = .ok u s' ↔ s' = g s := by
  constructor
  · intro h
    cases h
    rfl
  · rintro rfl
    rfl

theorem pure_eq_ok {a b : α} : (pure a : EStateM ε σ α) s = .ok b s' ↔ a = b ∧ s = s' := by
  constructor
  · intro h
    cases h
    exact ⟨rfl, rfl⟩
  · rintro ⟨rfl, rfl⟩
    rfl

/-- A relation that steps can be put together in. -/
structure Chains (R : σ → σ → Prop) : Prop where
  refl : ∀ s, R s s
  trans : ∀ {s s' s''}, R s s' → R s' s'' → R s s''

/-- A computation that gives a value leads to a related state. -/
def Within (R : σ → σ → Prop) (x : EStateM ε σ α) : Prop := ∀ s a s', x s = .ok a s' → R s s'

/-- Under an invariant, which it preserves, a step stays in a relation. -/
def Guarded (I : σ → Prop) (R : σ → σ → Prop) (s s' : σ) : Prop := I s → I s' ∧ R s s'

theorem Chains.guarded {I : σ → Prop} {R : σ → σ → Prop} (hR : Chains R) : Chains (Guarded I R) where
  refl s hs := ⟨hs, hR.refl s⟩
  trans h h' hs :=
    have hs' := h hs
    have hs'' := h' hs'.1
    ⟨hs''.1, hR.trans hs'.2 hs''.2⟩

end

section
variable {ε σ α β : Type} {R : σ → σ → Prop} (hR : Chains R)
include hR

theorem within_pure (a : α) : Within R (pure a : EStateM ε σ α) := by
  intro s b s' h
  cases h
  exact hR.refl s

theorem within_bind {x : EStateM ε σ α} {f : α → EStateM ε σ β} (hx : Within R x) (hf : ∀ a, Within R (f a)) :
    Within R (x >>= f) := by
  intro s b s'' h
  obtain ⟨a, s', ha, hb⟩ := bind_eq_ok.mp h
  exact hR.trans (hx s a s' ha) (hf a s' b s'' hb)

theorem within_get {f : σ → EStateM ε σ α} (h : ∀ s, Within R (f s)) : Within R (get >>= f) :=
  within_bind hR (fun s a s' h => by cases h; exact hR.refl s) h

end

/-- However it ends, the computation leads to a related state, and errors are of some kind. -/
structure Always {ε σ α : Type} (R : σ → σ → Prop) (E : ε → Prop) (x : EStateM ε σ α) : Prop where
  ok : ∀ s a s', x s = .ok a s' → R s s'
  error : ∀ s e s', x s = .error e s' → E e ∧ R s s'

section
variable {ε σ α β : Type} {R : σ → σ → Prop} {E : ε → Prop} (hR : Chains R)
include hR

theorem always_pure (a : α) : Always R E (pure a : EStateM ε σ α) where
  ok := within_pure hR a
  error _ _ _ h := by cases h

theorem always_throw {e : ε} (he : E e) : Always R E (throw e : EStateM ε σ α) where
  ok _ _ _ h := by cases h
  error s _ _ h := by
    cases h
    exact ⟨he, hR.refl s⟩

theorem always_bind_of {x : EStateM ε σ α} {f : α → EStateM ε σ β} (hx : Always R E x)
    (hf : ∀ s a s', x s = .ok a s' → Always R E (f a)) : Always R E (x >>= f) where
  ok s b s'' h := by
    obtain ⟨a, s', ha, hb⟩ := bind_eq_ok.mp h
    exact hR.trans (hx.ok s a s' ha) ((hf s a s' ha).ok s' b s'' hb)
  error s e s'' h := by
    cases ha : x s with
    | ok a s' =>
      rw [bind_of_ok ha] at h
      obtain ⟨he, hs⟩ := (hf s a s' ha).error s' e s'' h
      exact ⟨he, hR.trans (hx.ok s a s' ha) hs⟩
    | error e' s' =>
      rw [bind_of_error ha] at h
      cases h
      exact hx.error s e s'' ha

theorem always_bind {x : EStateM ε σ α} {f : α → EStateM ε σ β} (hx : Always R E x) (hf : ∀ a, Always R E (f a)) :
    Always R E (x >>= f) := always_bind_of hR hx fun _ a _ _ => hf a

theorem always_get {f : σ → EStateM ε σ α} (h : ∀ s, Always R E (f s)) : Always R E (get >>= f) :=
  always_bind hR ⟨fun s _ _ h => by cases h; exact hR.refl s, fun _ _ _ h => by cases h⟩ h

end

theorem always_modify {ε σ : Type} {R : σ → σ → Prop} {E : ε → Prop} {f : σ → σ} (h : ∀ s, R s (f s)) :
    Always R E (modify f : EStateM ε σ PUnit) where
  ok s a s' hm := by
    cases modify_eq_ok.mp hm
    exact h s
  error _ _ _ hm := by cases hm

namespace Effect

variable {α β : Type}

/-- A failure, which can be caught. -/
def IsFailure (e : Stop) : Prop := e ≠ .exhausted

theorem always_except {R : World → World → Prop} (hR : Chains R) (r : Except Error α) :
    Always R IsFailure (Effect.ofExcept r) := by
  cases r with
  | ok a => exact always_pure hR a
  | error e => exact always_throw hR nofun

theorem attempt_always {R : World → World → Prop} {x : Effect α} (h : Always R IsFailure x) (w : World) :
    ∃ r w', attempt x w = .ok r w' ∧ R w w' := by
  unfold attempt
  cases hx : x w with
  | ok a w' => exact ⟨_, w', rfl, h.ok w a w' hx⟩
  | error e w' =>
    obtain ⟨he, hr⟩ := h.error w e w' hx
    cases e with
    | failed e => exact ⟨_, w', rfl, hr⟩
    | exhausted => exact absurd rfl he

theorem always_attempt {R : World → World → Prop} {E : Stop → Prop} {x : Effect α} (h : Always R IsFailure x) :
    Always R E (attempt x) where
  ok w r w' hx := by
    obtain ⟨r', w₁, ha, hr⟩ := attempt_always h w
    cases hx.symm.trans ha
    exact hr
  error w e w' hx := by
    obtain ⟨r', w₁, ha, -⟩ := attempt_always h w
    cases hx.symm.trans ha

theorem always_returns {R : World → World → Prop} {x : Effect α} (h : Always R (fun _ => False) x) (w : World) :
    ∃ a w', x w = .ok a w' ∧ R w w' := by
  cases hx : x w with
  | ok a w' => exact ⟨a, w', rfl, h.ok w a w' hx⟩
  | error e w' => exact (h.error w e w' hx).1.elim

theorem attempt_eq_ok {x : Effect α} {a : α} {w w' : World} :
    attempt x w = .ok (.ok a) w' ↔ x w = .ok a w' := by
  unfold attempt
  cases x w with
  | ok b w₁ => simp
  | error e w₁ => cases e <;> simp

theorem attempt_eq_failed {x : Effect α} {e : Error} {w w' : World} :
    attempt x w = .ok (.error e) w' ↔ x w = .error (.failed e) w' := by
  unfold attempt
  cases x w with
  | ok a w₁ => simp
  | error e' w₁ => cases e' <;> simp

theorem attempt_eq_error {x : Effect α} {e : Stop} {w w' : World} :
    attempt x w = .error e w' ↔ e = .exhausted ∧ x w = .error .exhausted w' := by
  unfold attempt
  cases x w with
  | ok a w₁ => simp
  | error e' w₁ => cases e' <;> simp [eq_comm]

theorem ofExcept_eq_ok {r : Except Error α} {a : α} {w w' : World} :
    ofExcept r w = .ok a w' ↔ r = .ok a ∧ w = w' := by
  cases r with
  | ok b =>
    rw [ofExcept, pure_eq_ok, Except.ok.injEq]
  | error e =>
    constructor
    · intro h
      cases h
    · rintro ⟨h, -⟩
      cases h

def result? {α : Type} : EStateM.Result Stop World α → Option α
  | .ok a _ => some a
  | .error _ _ => none

def after {α : Type} : EStateM.Result Stop World α → World
  | .ok _ w => w
  | .error _ w => w

theorem eq_ok_after {α : Type} {x : EStateM.Result Stop World α} {a : α} (h : result? x = some a) : x = .ok a (after x) := by
  cases x with
  | ok b w =>
    cases h
    rfl
  | error e w => cases h

def failure? {α : Type} : EStateM.Result Stop World α → Option Error
  | .error (.failed e) _ => some e
  | _ => none

theorem eq_failed_after {α : Type} {x : EStateM.Result Stop World α} {e : Error} (h : failure? x = some e) :
    x = .error (.failed e) (after x) := by
  cases x with
  | ok a w => cases h
  | error stop w =>
    cases stop with
    | failed e' =>
      cases h
      rfl
    | exhausted => cases h

/-- From their worlds both give one value, or both fail, and both leave the worlds as they are. -/
def Agree (t t' : World) (x y : Effect α) : Prop :=
  (∃ a, x t = .ok a t ∧ y t' = .ok a t') ∨
    ∃ e e', x t = .error (.failed e) t ∧ y t' = .error (.failed e') t'

/-- A value or a failure, and the world as it was. -/
def QuietAt (t : World) (x : Effect α) : Prop := Agree t t x x

def Quiet (x : Effect α) : Prop := ∀ t, QuietAt t x

/-- A failure, and the world as it was. -/
def FailsAt (t : World) (x : Effect α) : Prop := ∃ e, x t = .error (.failed e) t

section
variable {t t' : World} {x y : Effect α}

theorem Agree.ok_right {w : World} {a : α} (h : Agree t t' x y) (hx : x t = .ok a w) : w = t ∧ y t' = .ok a t' := by
  rcases h with ⟨b, hb, hy⟩ | ⟨e, e', he, -⟩
  · rw [hx] at hb
    cases hb
    exact ⟨rfl, hy⟩
  · rw [hx] at he
    cases he

theorem QuietAt.ok_or_fails (h : QuietAt t x) : (∃ a, x t = .ok a t) ∨ FailsAt t x := by
  rcases h with ⟨a, hx, -⟩ | ⟨e, -, hx, -⟩
  · exact .inl ⟨a, hx⟩
  · exact .inr ⟨e, hx⟩

theorem agree_of_fails (hx : FailsAt t x) (hy : FailsAt t' y) : Agree t t' x y := by
  obtain ⟨e, he⟩ := hx
  obtain ⟨e', he'⟩ := hy
  exact .inr ⟨e, e', he, he'⟩

theorem FailsAt.bind {f : α → Effect β} (h : FailsAt t x) : FailsAt t (x >>= f) := by
  obtain ⟨e, he⟩ := h
  exact ⟨e, bind_of_error he⟩

theorem agree_pure (a : α) : Agree t t' (pure a) (pure a) := .inl ⟨a, rfl, rfl⟩

theorem agree_fail (e e' : Error) : Agree t t' (fail e : Effect α) (fail e') := .inr ⟨e, e', rfl, rfl⟩

theorem agree_ofExcept (r : Except Error α) : Agree t t' (ofExcept r) (ofExcept r) := by
  cases r with
  | ok a => exact agree_pure a
  | error e => exact agree_fail e e

theorem Agree.bind {f g : α → Effect β} (h : Agree t t' x y)
    (hf : ∀ a, x t = .ok a t → y t' = .ok a t' → Agree t t' (f a) (g a)) : Agree t t' (x >>= f) (y >>= g) := by
  rcases h with ⟨a, hx, hy⟩ | ⟨e, e', hx, hy⟩
  · have h := hf a hx hy
    unfold Agree at h ⊢
    rw [bind_of_ok hx, bind_of_ok hy]
    exact h
  · exact .inr ⟨e, e', bind_of_error hx, bind_of_error hy⟩

theorem Agree.quiet_left (h : Agree t t' x y) : QuietAt t x := by
  rcases h with ⟨a, hx, -⟩ | ⟨e, -, hx, -⟩
  · exact .inl ⟨a, hx, hx⟩
  · exact .inr ⟨e, e, hx, hx⟩

/-- The right side may fail at once where the left one fails later. -/
theorem QuietAt.agree_fail {f : α → Effect β} (h : QuietAt t x) (e : Error)
    (hf : ∀ a, x t = .ok a t → Agree t t' (f a) (fail e)) : Agree t t' (x >>= f) (fail e) := by
  rcases h with ⟨a, hx, -⟩ | ⟨e', -, hx, -⟩
  · have h := hf a hx
    unfold Agree at h ⊢
    rw [bind_of_ok hx]
    exact h
  · exact .inr ⟨e', e, bind_of_error hx, rfl⟩

theorem QuietAt.bind {f : α → Effect β} (h : QuietAt t x) (hf : ∀ a, x t = .ok a t → QuietAt t (f a)) :
    QuietAt t (x >>= f) :=
  Agree.bind h fun a ha _ => hf a ha

theorem QuietAt.world_eq {a : α} {w' : World} (h : QuietAt t x) (hx : x t = .ok a w') : w' = t := (h.ok_right hx).1

theorem quietAt_get {f : World → Effect α} (h : QuietAt t (f t)) : QuietAt t (get >>= f) :=
  QuietAt.bind (.inl ⟨t, rfl, rfl⟩) fun a ha => by
    cases ha
    exact h

end

end Effect

end DataBinding
