import DataBinding.Proofs.Trigger.Refusal

/-!
# Calls on one trigger

A trigger is subscribed and unsubscribed any number of times, and any of these calls may fail. Behind the handlers that its
event had before, there are always those that it could not detach and then the one that it has installed
(`calls_audience`). One that could not be detached is given up nevertheless, so there may be several
(`refused_handler_stays`).
-/

namespace DataBinding

open Effect

namespace ChangeSource

/-- The source with this fault, if it is one that can have any. -/
def withFault (fault : Option Fault) : ChangeSource → ChangeSource
  | traced e tag _ => .traced e tag fault
  | s => s

theorem place?_withFault (s : ChangeSource) (fault : Option Fault) (target : Target) :
    (s.withFault fault).place? target = s.place? target := by
  cases s with
  | traced e tag fault' =>
    cases target with
    | type t => rfl
    | value v => cases v <;> rfl
  | _ => rfl

theorem isDirect_withFault (s : ChangeSource) (fault : Option Fault) : (s.withFault fault).isDirect = s.isDirect := by
  cases s <;> rfl

theorem direct_or_not (s : ChangeSource) : (∃ tag, s = .direct tag) ∨ s.isDirect = false := by
  cases s with
  | direct tag => exact .inl ⟨tag, rfl⟩
  | _ => exact .inr rfl

end ChangeSource

namespace Trigger

def withFault (fault : Option Fault) (t : Trigger) : Trigger := { t with source := t.source.withFault fault }

/-- The handlers where the trigger attaches its own: at an event, or directly under a tag. -/
def audience (t : Trigger) (w : World) : List Handler :=
  match t.source with
  | .direct tag => (w.direct.filter (·.1 = tag)).map Prod.snd
  | _ => (t.place?.map w.handlersOf).getD []

def stuck (host : Host) (w : World) (t : Trigger) : List Handler :=
  if (t.refusal? host w).isSome then t.handler.toList else []

end Trigger

/-- A call on a trigger, with the objects and the fault of its source at that time. -/
structure Call where
  /-- The action to subscribe to; without one the trigger is unsubscribed. -/
  action : Option Action
  objects : Table String ObjectState
  fault : Option Fault

namespace Call

def run (host : Host) (c : Call) (t : Trigger) : Effect (Except Error Unit × Trigger) :=
  match c.action with
  | some a => t.subscribe host a
  | none => t.unsubscribe host

def runAll (host : Host) : List Call → Trigger → Effect (Trigger × List Handler)
  | [], t => pure (t, [])
  | c :: cs, t => do
    modify fun w => { w with objects := c.objects }
    let t := t.withFault c.fault
    let stuck := t.stuck host (← get)
    let (_, t) ← c.run host t
    let (t, more) ← runAll host cs t
    return (t, stuck ++ more)

end Call

/-! ## One call -/

/-- Behind other handlers, the event has the installed one. -/
structure Trigger.Holds (t : Trigger) (others : List Handler) (w : World) : Prop where
  audience : t.audience w = others ++ t.handler.toList
  issued : ∀ d ∈ w.direct, d.2.id < w.next
  own : t.source.isDirect = true → ∀ g ∈ t.handler, ∀ h ∈ others, h.id ≠ g.id

section
variable {p : Platform} {f : Action → Effect Unit} {w w' : World} {t : Trigger} {others : List Handler}

namespace Trigger

theorem audience_direct {tag : String} (hs : t.source = .direct tag) :
    t.audience w = (w.direct.filter (·.1 = tag)).map Prod.snd := by
  simp [audience, hs]

theorem audience_indirect (hs : t.source.isDirect = false) : t.audience w = (t.place?.map w.handlersOf).getD [] := by
  unfold audience
  cases h : t.source with
  | direct tag => simp [h, ChangeSource.isDirect] at hs
  | _ => rfl

theorem audience_withFault (fault : Option Fault) : (t.withFault fault).audience w = t.audience w := by
  rcases t.source.direct_or_not with ⟨tag, hs⟩ | hs
  · have hsame : (t.withFault fault).source = .direct tag := by simp [withFault, hs, ChangeSource.withFault]
    rw [audience_direct hs, audience_direct hsame]
  · rw [audience_indirect hs, audience_indirect ((t.source.isDirect_withFault fault).trans hs)]
    simp [place?, withFault, ChangeSource.place?_withFault]

theorem Holds.before_call (h : t.Holds others w) (c : Call) :
    (t.withFault c.fault).Holds others { w with objects := c.objects } where
  audience := by
    rw [audience_withFault]
    exact h.audience
  issued := h.issued
  own hd := h.own ((ChangeSource.isDirect_withFault _ _).symm.trans hd)

theorem Holds.notes (h : t.Holds others w) (hw : w.Notes w') : t.Holds others w' := by
  obtain ⟨log, rfl, -⟩ := hw
  exact ⟨h.audience, h.issued, h.own⟩

/-- Of a trigger that cannot be detached the handler is one of the others from now on. -/
theorem Holds.give_up (h : t.Holds others w) : t.detached.Holds (others ++ t.handler.toList) w where
  audience := h.audience.trans (List.append_nil _).symm
  issued := h.issued
  own _ _ hg := by cases hg

theorem heldAt_one {k : EventKey} (hp : t.place? = some k) : heldAt k [t] = t.handler.toList := by
  cases hg : t.handler <;> simp [heldAt, handlerAt, hp, hg]

/-- Of what is attached directly, those handlers go that have the number of the installed one. -/
theorem Holds.filter_own (h : t.Holds others w) (hd : t.source.isDirect = true) :
    (others ++ t.handler.toList).filter (fun g => !t.holdsDirectly g) = others := by
  have hothers : others.filter (fun g => !t.holdsDirectly g) = others := by
    refine List.filter_eq_self.mpr fun h' hh' => ?_
    cases hg : t.handler with
    | none => simp [holdsDirectly, hg]
    | some g =>
      have hother := (h.own hd g hg h' hh').symm
      simp [holdsDirectly, hg, hother]
  have hown : t.handler.toList.filter (fun g => !t.holdsDirectly g) = [] := by
    cases hg : t.handler with
    | none => rfl
    | some g => simp [holdsDirectly, hg, hd]
  rw [List.filter_append, hothers, hown, List.append_nil]

theorem Holds.frees (h : t.Holds others w) (hw : World.Frees [t] [] w w') : t.detached.Holds others w' where
  audience := by
    have haudience := h.audience
    show _ = others ++ []
    rw [List.append_nil]
    rcases t.source.direct_or_not with ⟨tag, hs⟩ | hs
    · have hd : t.source.isDirect = true := by rw [hs]; rfl
      rw [audience_direct hs] at haudience
      rw [audience_direct (show t.detached.source = .direct tag from hs), hw.directs, List.filter_filter]
      -- What is let go is picked by number and the audience by tag; in either order the same is left.
      rw [← h.filter_own hd, ← haudience, List.filter_map, List.filter_filter]
      congr 2
      funext d
      simp [Bool.and_comm]
    · rw [audience_indirect hs] at haudience
      rw [audience_indirect (show t.detached.source.isDirect = false from hs), show t.detached.place? = t.place? from rfl]
      cases hp : t.place? with
      | none =>
        rw [hp] at haudience
        exact (List.append_eq_nil_iff.mp haudience.symm).1.symm
      | some k =>
        rw [hp] at haudience
        have hlist : w.handlersOf k = others ++ t.handler.toList := haudience
        show w'.handlersOf k = others
        rw [hw.lists, hlist, heldAt_one hp]
        cases t.handler with
        | none => simp
        | some g =>
          show HandlerList.remove (others ++ [g]) g = others
          simpa using HandlerList.remove_append_cons (List.forall_mem_nil _)
  issued d hd := Nat.lt_of_lt_of_le (h.issued d (hw.direct hd)) hw.next
  own _ _ hg := by cases hg

theorem Holds.unsubscribe (h : t.Holds others w) :
    ∃ r w', t.unsubscribe ⟨p, f⟩ w = .ok (r, t.detached) w' ∧ t.detached.Holds (others ++ t.stuck ⟨p, f⟩ w) w' := by
  cases hr : t.refusal? ⟨p, f⟩ w with
  | some e =>
    obtain ⟨w', hw', hnotes⟩ := unsubscribe_refused hr
    refine ⟨_, w', hw', ?_⟩
    simp only [stuck, hr, Option.isSome_some, if_true]
    exact h.give_up.notes hnotes
  | none =>
    obtain ⟨w', hw', hfrees⟩ := unsubscribe_freed hr
    refine ⟨_, w', hw', ?_⟩
    simpa [stuck, hr] using h.frees hfrees

/-- A direct source never refuses, and gives the handler a number that none has. -/
theorem Holds.subscribe_direct {tag : String} (a : Action) (hs : t.source = .direct tag) (ht : t.handler = none)
    (h : t.Holds others w) : ∃ r t' w', t.subscribe ⟨p, f⟩ a w = .ok (r, t') w' ∧ t'.Holds others w' := by
  obtain ⟨target, source, label, handler⟩ := t
  cases hs
  cases ht
  have haudience : (w.direct.filter (·.1 = tag)).map Prod.snd = others := by
    rw [← audience_direct (t := ⟨target, .direct tag, label, none⟩) rfl]
    simpa using h.audience
  have hothers : ∀ g ∈ others, g.id < w.next := by
    intro g hg
    rw [← haudience] at hg
    obtain ⟨d, hd, rfl⟩ := List.mem_map.mp hg
    exact h.issued d (List.mem_filter.mp hd).1
  refine ⟨.ok (), _, _, rfl, ?_, ?_, ?_⟩
  · rw [audience_direct rfl]
    simp [haudience]
  · intro d hd
    rcases List.mem_append.mp hd with hd | hd
    · exact Nat.lt_succ_of_lt (h.issued d hd)
    · cases List.mem_singleton.mp hd
      exact Nat.lt_succ_self _
  · intro _ g hg h' hh'
    cases hg
    exact Nat.ne_of_lt (hothers h' hh')

theorem place?_of_key {host : Host} {s : ChangeSource} {target : Target} {g : Handler} {key : Option EventKey}
    (hs : s.isDirect = false) (h : s.key? host target g w = .ok key w') : ∃ k, s.place? target = some k := by
  obtain ⟨key', w₁, hevent, -⟩ := bind_eq_ok.mp h
  have hplace := (event?_eq_ok hevent).2
  cases s with
  | direct tag => cases hs
  | property name =>
    obtain ⟨_, _, hget, hevent⟩ := bind_eq_ok.mp hevent
    cases hget
    obtain ⟨o, w₂, -, hreturn⟩ := bind_eq_ok.mp hevent
    cases hreturn
    exact ⟨_, hplace.symm⟩
  | _ =>
    obtain ⟨o, w₂, -, hreturn⟩ := bind_eq_ok.mp hevent
    cases hreturn
    exact ⟨_, hplace.symm⟩

/-- The other sources put their handlers into the list of an event. -/
theorem Holds.subscribe_indirect (a : Action) (hs : t.source.isDirect = false) (ht : t.handler = none)
    (h : t.Holds others w) : ∃ r t' w', t.subscribe ⟨p, f⟩ a w = .ok (r, t') w' ∧ t'.Holds others w' := by
  have haudience := h.audience
  rw [audience_indirect hs, ht, Option.toList_none, List.append_nil] at haudience
  cases hsub : t.subscribe ⟨p, f⟩ a w with
  | error e w' => exact absurd hsub (subscribe_returns ht)
  | ok r w' =>
    obtain ⟨r, t'⟩ := r
    refine ⟨r, t', w', rfl, ?_⟩
    cases r with
    | error e =>
      have hw := subscribe_error ht hsub
      cases ((subscribe_eq_refused ht).mp hsub).2
      have hdirect : w'.direct = w.direct := hw.direct (List.forall_mem_nil _)
      have hlists (k : EventKey) : w'.handlersOf k = w.handlersOf k := (hw.lists k).trans (List.append_nil _)
      refine ⟨?_, ?_, ?_⟩
      · rw [audience_indirect hs, ht, Option.toList_none, List.append_nil, funext hlists, haudience]
      · rw [hdirect]
        exact fun d hd => Nat.lt_of_lt_of_le (h.issued d hd) hw.next
      · simp [ht]
    | ok u =>
      obtain ⟨hw, hdetached⟩ := subscribe_ok ht hsub
      have hplace : t'.place? = t.place? := by rw [← hdetached]; rfl
      have hs' : t'.source.isDirect = false := by rw [← hs, ← hdetached]; rfl
      have hdirect : w'.direct = w.direct := hw.direct (by simpa using hs')
      obtain ⟨g, hg, hkey⟩ := hw.ready t' (List.mem_singleton_self t')
      obtain ⟨k, hk⟩ := place?_of_key hs' (hkey f)
      refine ⟨?_, ?_, ?_⟩
      · rw [audience_indirect hs', show t'.place? = some k from hk]
        rw [← hplace, show t'.place? = some k from hk] at haudience
        show w'.handlersOf k = _
        rw [hw.lists, heldAt_one hk, ← haudience]
        rfl
      · rw [hdirect]
        exact fun d hd => Nat.lt_of_lt_of_le (h.issued d hd) hw.next
      · simp [hs']

theorem Holds.subscribe_new (a : Action) (ht : t.handler = none) (h : t.Holds others w) :
    ∃ r t' w', t.subscribe ⟨p, f⟩ a w = .ok (r, t') w' ∧ t'.Holds others w' := by
  rcases t.source.direct_or_not with ⟨tag, hs⟩ | hs
  · exact h.subscribe_direct a hs ht
  · exact h.subscribe_indirect a hs ht

theorem Holds.subscribe (a : Action) (h : t.Holds others w) :
    ∃ r t' w', t.subscribe ⟨p, f⟩ a w = .ok (r, t') w' ∧ t'.Holds (others ++ t.stuck ⟨p, f⟩ w) w' := by
  obtain ⟨r, w₁, hdetach, h₁⟩ := h.unsubscribe (p := p) (f := f)
  cases r with
  | error e => exact ⟨_, _, w₁, bind_of_ok hdetach, h₁⟩
  | ok u =>
    obtain ⟨r, t', w', hnew, h'⟩ := h₁.subscribe_new (p := p) (f := f) a rfl
    refine ⟨r, t', w', ?_, h'⟩
    exact (bind_of_ok hdetach).trans hnew

end Trigger

/-! ## Many calls -/

theorem Call.run_holds (c : Call) (h : t.Holds others w) :
    ∃ r t' w', c.run ⟨p, f⟩ t w = .ok (r, t') w' ∧ t'.Holds (others ++ t.stuck ⟨p, f⟩ w) w' := by
  unfold run
  cases c.action with
  | none =>
    obtain ⟨r, w', hrun, h'⟩ := h.unsubscribe (p := p) (f := f)
    exact ⟨r, t.detached, w', hrun, h'⟩
  | some a => exact h.subscribe a

theorem runAll_holds (cs : List Call) (h : t.Holds others w) :
    ∃ t' stuck w', Call.runAll ⟨p, f⟩ cs t w = .ok (t', stuck) w' ∧ t'.Holds (others ++ stuck) w' := by
  induction cs generalizing t others w with
  | nil => exact ⟨t, [], w, rfl, by simpa using h⟩
  | cons c cs ih =>
    obtain ⟨r, t₁, w₁, hrun, h₁⟩ := c.run_holds (p := p) (f := f) (h.before_call c)
    obtain ⟨t', stuck, w', hrest, h'⟩ := ih h₁
    refine ⟨t', (t.withFault c.fault).stuck ⟨p, f⟩ { w with objects := c.objects } ++ stuck, w', ?_, ?_⟩
    · exact (bind_of_ok rfl).trans ((bind_of_ok rfl).trans ((bind_of_ok hrun).trans (bind_of_ok hrest)))
    · rwa [List.append_assoc] at h'

/-- After any calls on a trigger, each of which may fail: its event has the handlers that it had before, then those of the
trigger that could not be detached, then the one that is installed if the trigger is subscribed. -/
theorem calls_audience (p : Platform) (f : Action → Effect Unit) (cs : List Call) (ht : t.handler = none)
    (hissued : ∀ d ∈ w.direct, d.2.id < w.next) :
    ∃ t' stuck w', Call.runAll ⟨p, f⟩ cs t w = .ok (t', stuck) w' ∧
      t'.audience w' = t.audience w ++ stuck ++ t'.handler.toList ∧
      (t'.audience w').length = (t.audience w).length + stuck.length + if t'.isSubscribed then 1 else 0 := by
  have h : t.Holds (t.audience w) w := ⟨by simp [ht], hissued, by simp [ht]⟩
  obtain ⟨t', stuck, w', hrun, h'⟩ := runAll_holds (p := p) (f := f) cs h
  refine ⟨t', stuck, w', hrun, h'.audience, ?_⟩
  rw [h'.audience, List.length_append, List.length_append]
  cases hg : t'.handler <;> simp [Trigger.isSubscribed, hg]

end

namespace Lamps

def host : Host := (⟨⟨[{ name := "Lamp" }]⟩, fun _ => "Lamp", none⟩ : Platform).running HostCode.ofActs 2

def lamp : Trigger where
  target := .value (.object ⟨"o", ⟨5⟩, .model⟩)
  source := .traced .clicked "t" none
  label := "Lamp.On"

def idle : World := { next := 3 }

def subscribe : Call := ⟨some (.script []), .empty, none⟩

def unsubscribe (fault : Option Fault) : Call := ⟨none, .empty, fault⟩

/-- What is seen of the trigger after some calls: whether it is subscribed, and how many handlers its event has. -/
def seen (cs : List Call) : Option (Bool × Nat) :=
  let r := Call.runAll host cs lamp idle
  (result? r).map fun (t, _) => (t.isSubscribed, (t.audience (after r)).length)

/-- After a refused call the trigger is not subscribed, but its handler is still there; soon there are two. -/
theorem refused_handler_stays :
    seen [subscribe, unsubscribe (some .detach)] = some (false, 1) ∧
      seen [subscribe, unsubscribe (some .detach), subscribe] = some (true, 2) := by
  decide +kernel

def turns : List Call := [subscribe, unsubscribe (some .detach), subscribe, unsubscribe none]

theorem lamp_turned :
    lamp.handler = none ∧ (∀ d ∈ idle.direct, d.2.id < idle.next) ∧
      ∃ t' stuck w', Call.runAll host turns lamp idle = .ok (t', stuck) w' ∧
        t'.isSubscribed = false ∧ stuck.length = 1 ∧ (t'.audience w').length = 1 := by
  have hissued : ∀ d ∈ idle.direct, d.2.id < idle.next := List.forall_mem_nil _
  obtain ⟨t', stuck, w', hrun, -, hcount⟩ := calls_audience host.toPlatform host.perform turns (t := lamp) rfl hissued
  have hresult : (result? (Call.runAll host turns lamp idle)).map (fun (t, stuck) => (t.isSubscribed, stuck.length)) =
      some (false, 1) := by decide +kernel
  rw [show Call.runAll host turns lamp idle = .ok (t', stuck) w' from hrun] at hresult
  obtain ⟨hsubscribed, hstuck⟩ : t'.isSubscribed = false ∧ stuck.length = 1 := by simpa [result?] using hresult
  refine ⟨rfl, hissued, t', stuck, w', hrun, hsubscribed, hstuck, ?_⟩
  rw [hcount, hsubscribed, hstuck]
  decide

end Lamps

end DataBinding
