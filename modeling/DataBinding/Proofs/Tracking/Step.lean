import DataBinding.Proofs.Binding.Follow
import DataBinding.Proofs.Tracking.Tame

/-!
# Steps around a followed binding

What every step that returns keeps (`Watched`), and what it has done (`Step`): either the watched slots and the
followed binding are as they were, or the binding has the value of its source. Steps chain, so that a handler in
the middle of a raise needs no account of those before and after it. A step that touches nothing of this is `Calm`.
-/

namespace DataBinding

open Effect

namespace Tracking

variable (T : Tracking)

/-- The followed binding, not disposed. -/
def Live (w : World) (b : EqualityBinding) : Prop := w.equality? T.binding = some b ∧ b.disposed = false

/-- The binding carries values over at once, gave its value to its setter last, and listens to all watched slots. -/
structure Attached (w : World) (b : EqualityBinding) : Prop where
  immediate : b.dispatcher = none
  recurring : b.flags.isOneTime = false
  given : ∃ a, w.assignment? T.binding = some a ∧ a.target = T.target ∧ a.value = b.value
  listens : ∀ o s n, T.reads o s n → ∃ h ∈ w.handlersOf (.changed o), T.first ≤ h.id ∧
    h.response = .onProperty n (.follow T.binding T.source T.target)

structure Watched (w : World) : Prop extends w.Tame T.toScope where
  apart : ∀ b s, b ≠ T.binding → w.bindings.find? b = some s → ∀ h ∈ s.handlers, h.id < T.first
  numbered : T.first ≤ w.next
  attached : T.armed → ∀ b, T.Live w b → T.Attached w b

/-- The binding has the value of its source. -/
def Synced (w : World) : Prop :=
  T.armed ∧ ∀ b, T.Live w b → ∃ v, T.value w v ∧ (b.value = v ∨ b.value.same v = true)

/-- How the state of the followed binding goes on while nothing is carried over. -/
structure Continues (b b' : EqualityBinding) : Prop where
  dispatcher : b'.dispatcher = b.dispatcher := by rfl
  flags : b'.flags = b.flags := by rfl
  live : b'.disposed = false → b.disposed = false ∧ b'.value = b.value := by exact fun h => ⟨h, rfl⟩

structure Unchanged (w w' : World) : Prop where
  reads : T.armed → ∀ o s n, T.reads o s n → w'.slot o s = w.slot o s := by exact fun _ _ _ _ _ => rfl
  given : w'.assignment? T.binding = w.assignment? T.binding := by rfl
  binding : ∀ b', w'.equality? T.binding = some b' → ∃ b, w.equality? T.binding = some b ∧ Continues b b' :=
    by exact fun b h => ⟨b, h, {}⟩

def Step (w w' : World) : Prop := Guarded T.Watched (fun w w' => T.Synced w' ∨ T.Unchanged w w') w w'

structure Calm (w w' : World) : Prop where
  handlers : ∀ k, ∀ h ∈ w'.handlersOf k, h ∈ w.handlersOf k ∨ h.Tame T.toScope := by exact fun _ _ h => .inl h
  kept : ∀ b, T.Live w' b → ∀ o, ∀ h ∈ w.handlersOf (.changed o), T.first ≤ h.id →
    h ∈ w'.handlersOf (.changed o) := by exact fun _ _ _ _ h _ => h
  direct : ∀ d ∈ w'.direct, d ∈ w.direct := by exact fun _ h => h
  named : w'.namedHandlers = w.namedHandlers := by rfl
  jobs : ∀ j ∈ w'.jobs, j ∈ w.jobs ∨ j.Tame T.toScope := by exact fun _ h => .inl h
  apart : ∀ b s', b ≠ T.binding → w'.bindings.find? b = some s' → ∀ h ∈ s'.handlers,
    h.id < T.first ∨ ∃ s, w.bindings.find? b = some s ∧ h ∈ s.handlers := by exact fun _ s _ hs _ h => .inr ⟨s, hs, h⟩
  next : w.next ≤ w'.next := by exact Nat.le_refl _
  unchanged : T.Unchanged w w' := by exact {}

variable {T} {w w' w'' : World}

theorem Unchanged.trans (h : T.Unchanged w w') (h' : T.Unchanged w' w'') : T.Unchanged w w'' where
  reads ha o s n hr := (h'.reads ha o s n hr).trans (h.reads ha o s n hr)
  given := h'.given.trans h.given
  binding b'' hb'' := by
    obtain ⟨b', hb', hc'⟩ := h'.binding b'' hb''
    obtain ⟨b, hb, hc⟩ := h.binding b' hb'
    refine ⟨b, hb, hc'.dispatcher.trans hc.dispatcher, hc'.flags.trans hc.flags, fun hd => ?_⟩
    obtain ⟨hd', hv'⟩ := hc'.live hd
    obtain ⟨hd₀, hv⟩ := hc.live hd'
    exact ⟨hd₀, hv'.trans hv⟩

theorem Unchanged.live (h : T.Unchanged w w') {b' : EqualityBinding} (hb' : T.Live w' b') :
    ∃ b, T.Live w b ∧ b'.value = b.value ∧ Continues b b' := by
  obtain ⟨b, hb, hc⟩ := h.binding b' hb'.1
  obtain ⟨hd, hv⟩ := hc.live hb'.2
  exact ⟨b, ⟨hb, hd⟩, hv, hc⟩

theorem Unchanged.synced (h : T.Unchanged w w') (hs : T.Synced w) : T.Synced w' := by
  refine ⟨hs.1, fun b' hb' => ?_⟩
  obtain ⟨b, hb, hv, -⟩ := h.live hb'
  obtain ⟨v, hval, hsame⟩ := hs.2 b hb
  refine ⟨v, T.value_congr w w' v (h.reads hs.1) hval, ?_⟩
  rw [hv]
  exact hsame

/-- What is kept to be run stays, and so do the other bindings; the followed one has to be looked at. -/
theorem Watched.of_frame (hw : T.Watched w) (hh : w'.handlers = w.handlers) (hd : w'.direct = w.direct)
    (hn : w'.namedHandlers = w.namedHandlers) (hj : w'.jobs = w.jobs) (hnext : w'.next = w.next)
    (hb : ∀ b, b ≠ T.binding → w'.bindings.find? b = w.bindings.find? b)
    (hatt : T.armed → ∀ b, T.Live w' b → T.Attached w' b) : T.Watched w' where
  handlers k g hg := by
    unfold World.handlersOf at hg
    rw [hh] at hg
    exact hw.handlers k g hg
  direct := hd ▸ hw.direct
  named := hn ▸ hw.named
  jobs := hj ▸ hw.jobs
  apart b s hne hs := hw.apart b s hne (hb b hne ▸ hs)
  numbered := hnext ▸ hw.numbered
  attached := hatt

theorem Calm.watched (h : T.Calm w w') (hw : T.Watched w) : T.Watched w' where
  handlers k g hg := (h.handlers k g hg).elim (hw.handlers k g) id
  direct d hd := hw.direct d (h.direct d hd)
  named n g hg := hw.named n g (h.named ▸ hg)
  jobs j hj := (h.jobs j hj).elim (hw.jobs j) id
  apart b s hb hs g hg := by
    rcases h.apart b s hb hs g hg with hlt | ⟨s₀, hs₀, hg₀⟩
    · exact hlt
    · exact hw.apart b s₀ hb hs₀ g hg₀
  numbered := Nat.le_trans hw.numbered h.next
  attached ha b' hb' := by
    obtain ⟨b, hb, hv, hc⟩ := h.unchanged.live hb'
    have hatt := hw.attached ha b hb
    refine ⟨hc.dispatcher ▸ hatt.immediate, hc.flags ▸ hatt.recurring, ?_, fun o s n hr => ?_⟩
    · rw [h.unchanged.given, hv]
      exact hatt.given
    · obtain ⟨g, hg, hid, hresp⟩ := hatt.listens o s n hr
      exact ⟨g, h.kept b' hb' o g hg hid, hid, hresp⟩

/-- Nothing of this has to do with the log, static members, boxes, names of bindings or how deep raises are nested. -/
theorem Calm.of_same (h : (w'.objects, w'.handlers, w'.direct, w'.bindings, w'.namedHandlers, w'.jobs, w'.assignments) =
    (w.objects, w.handlers, w.direct, w.bindings, w.namedHandlers, w.jobs, w.assignments))
    (hnext : w.next ≤ w'.next) : T.Calm w w' := by
  cases w
  cases w'
  simp only [Prod.mk.injEq] at h
  obtain ⟨rfl, rfl, rfl, rfl, rfl, rfl, rfl⟩ := h
  exact { next := hnext }

theorem Calm.step (h : T.Calm w w') : T.Step w w' := fun hw => ⟨h.watched hw, .inr h.unchanged⟩

theorem Step.synced (h : T.Step w w') (hw : T.Watched w) (hs : T.Synced w) : T.Synced w' :=
  (h hw).2.elim id fun hu => hu.synced hs

theorem step_chains (T : Tracking) : Chains T.Step where
  refl w := Calm.step (.of_same rfl (Nat.le_refl _))
  trans h h' hw := by
    obtain ⟨hw', hr⟩ := h hw
    obtain ⟨hw'', hr'⟩ := h' hw'
    refine ⟨hw'', ?_⟩
    rcases hr' with hs | hu'
    · exact .inl hs
    · exact hr.imp hu'.synced fun hu => hu.trans hu'

/-- A disposed binding has nothing to follow. -/
theorem synced_of_not_live (ha : T.armed) (h : ∀ b, ¬ T.Live w b) : T.Synced w := ⟨ha, fun b hb => absurd hb (h b)⟩

section
variable {α β : Type}

theorem within_modify {f : World → World} (h : ∀ w, T.Calm w (f w)) :
    Within T.Step (modify f : Effect Unit) := by
  intro w a w' hm
  cases modify_eq_ok.mp hm
  exact (h w).step

theorem within_fail (e : Error) : Within T.Step (fail e : Effect α) := by
  intro w a w' h
  cases h

theorem within_except (r : Except Error α) : Within T.Step (Effect.ofExcept r) := by
  intro w a w' h
  obtain ⟨-, rfl⟩ := ofExcept_eq_ok.mp h
  exact (step_chains T).refl w

theorem within_tell (line : String) : Within T.Step (tell line) := within_modify fun _ => .of_same rfl (Nat.le_refl _)

theorem within_seq {x : Effect α} {f : α → Effect β} (hx : Within T.Step x) (hf : ∀ a, Within T.Step (f a)) :
    Within T.Step (x >>= f) := within_bind (step_chains T) hx hf

theorem within_world {f : World → Effect α} (h : ∀ w, Within T.Step (f w)) : Within T.Step (get >>= f) :=
  within_get (step_chains T) h

theorem within_return (a : α) : Within T.Step (pure a : Effect α) := within_pure (step_chains T) a

theorem within_check {c : Prop} [Decidable c] {e : Error} {f : PUnit → Effect β} (h : Within T.Step (f ())) :
    Within T.Step (if c then fail e >>= f else f ()) := by
  split
  · exact within_seq (within_fail e) fun _ => h
  · exact h

theorem within_optional {c : Prop} [Decidable c] {x : Effect PUnit} {y : PUnit → Effect β} (hx : Within T.Step x)
    (hy : Within T.Step (y ())) : Within T.Step (if c then x >>= y else y ()) := by
  by_cases hc : c
  · rw [if_pos hc]
    exact within_seq hx fun _ => hy
  · rw [if_neg hc]
    exact hy

theorem within_forM {x : α → Effect PUnit} {l : List α} (h : ∀ a ∈ l, Within T.Step (x a)) :
    Within T.Step (l.forM x) := by
  induction l with
  | nil => exact within_return _
  | cons a l ih => exact within_seq (h a List.mem_cons_self) fun _ => ih fun b hb => h b (List.mem_cons_of_mem _ hb)

theorem within_nested (limit : Option Nat) {x : Effect Unit} (h : Within T.Step x) :
    Within T.Step (nested limit x) := by
  intro w a w' hn
  unfold nested at hn
  split at hn
  · cases hn
  · split at hn
    · rename_i u w₁ hx
      cases hn
      have hin : T.Step w { w with depth := w.depth + 1 } := Calm.step (.of_same rfl (Nat.le_refl _))
      have hout : T.Step w₁ { w₁ with depth := w.depth } := Calm.step (.of_same rfl (Nat.le_refl _))
      exact (step_chains T).trans hin ((step_chains T).trans (h _ _ _ hx) hout)
    · cases hn

theorem within_attempt {x : Effect α} (h : Within T.Step x) {f : Except Error α → Effect β}
    (hf : ∀ a, Within T.Step (f (.ok a))) (he : ∀ e w b w', f (.error e) w ≠ .ok b w') :
    Within T.Step (attempt x >>= f) := by
  intro w b w'' hx
  obtain ⟨r, w', hr, hb⟩ := bind_eq_ok.mp hx
  unfold attempt at hr
  cases hxw : x w with
  | ok a w₁ =>
    rw [hxw] at hr
    cases hr
    exact (step_chains T).trans (h w a w' hxw) (hf a w' b w'' hb)
  | error e w₁ =>
    rw [hxw] at hr
    cases e with
    | failed e =>
      cases hr
      exact absurd hb (he e w' b w'')
    | exhausted => cases hr

end

end Tracking

end DataBinding
