import DataBinding.Proofs.Run.OneTime
import DataBinding.Proofs.Subscription.Conserved
import DataBinding.Proofs.Subscription.Made

/-!
# One call for each occurrence

When an object tells that a property has changed, a live action binding calls its method once for each member access in the
call that watches the property of the object, no more and no less (`call_per_occurrence`). An access counts as often as it
is written, also where its node is shared. The handlers of the event may do anything besides, as long as that does not make
the binding react again, which can only come of an event that they raise (`Undisturbed`).
-/

namespace DataBinding

open Effect Compile

variable {p : Platform} {scripts : List Act → HostCode} {n : Nat} {id : BindingId} {args : EventArgs}

/-! ## Without the binding -/

def Action.performOn (scripts : List Act → HostCode) (host : Host) : Action → Effect Unit
  | script acts => (scripts acts).run host
  | a => a.step host

/-- The engine without the reactions of a binding. A run that comes to one of them goes no further. -/
def Engine.without (p : Platform) (scripts : List Act → HostCode) (id : BindingId) : Nat → Action → Effect Unit
  | 0, _ => throw .exhausted
  | fuel + 1, a =>
    if a.reactsFor id then throw .exhausted else a.performOn scripts ⟨p, Engine.without p scripts id fuel⟩

def Platform.without (p : Platform) (scripts : List Act → HostCode) (id : BindingId) (fuel : Nat) : Host :=
  ⟨p, Engine.without p scripts id fuel⟩

/-- Goes as the engine does with one more unit of fuel, but the binding reacts only where its handlers are called, and not to
anything that is set off by that. -/
def Platform.undisturbed (p : Platform) (scripts : List Act → HostCode) (id : BindingId) (fuel : Nat) : Host :=
  ⟨p, fun a => a.performOn scripts (p.without scripts id fuel)⟩

/-- Where the handlers are called, what they do is the same if the binding does not react to it. So it is if they raise no
event, as nothing but a raise calls handlers. -/
def Undisturbed (p : Platform) (scripts : List Act → HostCode) (n : Nat) (id : BindingId) (args : EventArgs) :
    List Handler → World → Prop
  | [], _ => True
  | h :: hs, w => h.respond (p.undisturbed scripts id n) args w = h.respond (p.running scripts (n + 1)) args w ∧
    ∀ w', h.respond (p.running scripts (n + 1)) args w = .ok () w' → Undisturbed p scripts n id args hs w'

/-- The handlers answer one after the other. This many answers are a call of the binding, and nothing else comes to one. -/
inductive Calls (p : Platform) (scripts : List Act → HostCode) (n : Nat) (id : BindingId) (g : Getter) (args : EventArgs) :
    Nat → List Handler → World → World → Prop
  | done (w : World) : Calls p scripts n id g args 0 [] w w
  | call {k : Nat} {h : Handler} {hs : List Handler} {w w₁ w' : World}
    (hanswer : h.respond (p.running scripts (n + 1)) args w = .ok () w₁)
    (hcall : ∃ v, g.run (p.running scripts n) w = .ok v w₁) (honce : ∃ v, g.run (p.without scripts id n) w = .ok v w₁)
    (rest : Calls p scripts n id g args k hs w₁ w') : Calls p scripts n id g args (k + 1) (h :: hs) w w'
  | pass {k : Nat} {h : Handler} {hs : List Handler} {w w₁ w' : World}
    (hanswer : h.respond (p.running scripts (n + 1)) args w = .ok () w₁)
    (hwithout : h.respond (p.without scripts id (n + 1)) args w = .ok () w₁)
    (rest : Calls p scripts n id g args k hs w₁ w') : Calls p scripts n id g args k (h :: hs) w w'

/-! ## One answer -/

/-- A live binding that calls at once and more than one time does nothing but call. -/
theorem rerun_direct {host : Host} {b : ActionBinding} {g : Getter} {w : World} (hb : w.bindings.find? id = some (.action b))
    (hlive : b.disposed = false) (hdirect : b.dispatcher = none) (hone : b.flags.isOneTime = false) :
    ActionBinding.rerun host id g w = (g.run host >>= fun _ => pure ()) w := by
  unfold ActionBinding.rerun
  rw [bind_get, action?_eq_some.mpr hb]
  simp only [hlive, hdirect, hone, Bool.false_eq_true, if_false]
  cases hr : g.run host w with
  | ok v w' =>
    have hdispatch : dispatch host none (.call g) w = .ok () w' := bind_of_ok hr
    exact (bind_of_ok hdispatch).trans (bind_of_ok (f := fun _ => pure ()) hr).symm
  | error e w' =>
    have hdispatch : dispatch host none (.call g) w = .error e w' := bind_of_error hr
    exact (bind_of_error hdispatch).trans (bind_of_error hr).symm

def Handler.callsFor (id : BindingId) (prop : String) (h : Handler) : Bool := h.answers prop && h.reactsFor id

/-- The answer of a handler that is not one of the binding, or that waits for another property, does not come to a call. -/
theorem respond_without {h : Handler} {prop : String} {w : World} (hh : h.callsFor id prop = false)
    (hown : h.reactsFor id = true → ∃ name a, h.response = .onProperty name a) :
    h.respond (p.without scripts id (n + 1)) (.property prop) w = h.respond (p.undisturbed scripts id n) (.property prop) w := by
  have hperform {a : Action} (ha : a.reactsFor id = false) :
      (p.without scripts id (n + 1)).perform a = (p.undisturbed scripts id n).perform a := by
    show (if a.reactsFor id then throw .exhausted else a.performOn scripts (p.without scripts id n) : Effect Unit) = _
    rw [ha]
    rfl
  obtain ⟨i, payload, response⟩ := h
  cases response with
  | always a =>
    cases ha : a.reactsFor id with
    | true =>
      obtain ⟨name, a', hresponse⟩ := hown ha
      cases hresponse
    | false => exact congrFun (hperform ha) w
  | onProperty name a =>
    unfold Handler.respond
    simp only
    split
    · rename_i hname
      cases ha : a.reactsFor id with
      | true =>
        cases hname
        simp [Handler.callsFor, Handler.reactsFor, Handler.answers, ha] at hh
      | false => exact congrFun (hperform ha) w
    · rfl
  | report name acts =>
    unfold Handler.respond Host.run
    simp only
    split
    · rfl
    · rw [hperform (a := .script acts) rfl]

theorem respond_call {h : Handler} {prop : String} {b : ActionBinding} {g : Getter} {w w' : World}
    (hh : h.response = .onProperty prop (.rerun id g)) (hb : w.bindings.find? id = some (.action b))
    (hlive : b.disposed = false) (hdirect : b.dispatcher = none) (hone : b.flags.isOneTime = false)
    (hanswer : h.respond (p.running scripts (n + 1)) (.property prop) w = .ok () w')
    (hcalm : h.respond (p.undisturbed scripts id n) (.property prop) w = h.respond (p.running scripts (n + 1)) (.property prop) w) :
    (∃ v, g.run (p.running scripts n) w = .ok v w') ∧ ∃ v, g.run (p.without scripts id n) w = .ok v w' := by
  have hrespond (host : Host) : h.respond host (.property prop) w = host.perform (.rerun id g) w := by
    unfold Handler.respond
    rw [hh]
    simp only [if_true]
  have hcalled {host : Host} (hr : ActionBinding.rerun host id g w = .ok () w') : ∃ v, g.run host w = .ok v w' := by
    rw [rerun_direct hb hlive hdirect hone] at hr
    obtain ⟨v, w₁, hv, hr⟩ := bind_eq_ok.mp hr
    cases hr
    exact ⟨v, hv⟩
  rw [hanswer, hrespond] at hcalm
  rw [hrespond] at hanswer
  exact ⟨hcalled hanswer, hcalled hcalm⟩

/-! ## A raise -/

theorem World.live_of_action? {w : World} (h : (w.action? id).map (·.disposed) = some false) : w.Live id := by
  obtain ⟨b, hb, hlive⟩ := Option.map_eq_some_iff.mp h
  exact ⟨b, action?_eq_some.mp hb, hlive⟩

theorem World.Staked.live {m : Nat} {b : ActionBinding} {w w' : World} (h : w.Staked m id b) (hid : id.index < m)
    (hl : World.Later m w w') (hlive : w'.Live id) : w.Live id := by
  obtain ⟨b', hb'⟩ := h.found hid
  refine ⟨b', hb', Bool.eq_false_iff.mpr fun hd => ?_⟩
  have hsilent : w.Silent id := ⟨_, hb', hd⟩
  obtain ⟨-, s, hs, hdead⟩ := silent_later hl h.next hid hsilent
  obtain ⟨b'', hb'', hdisposed⟩ := hlive
  cases hs.symm.trans hb''
  cases hdisposed.symm.trans hdead

theorem respondAll_calls {m : Nat} {b : ActionBinding} {g : Getter} {prop : String} (hid : id.index < m)
    (hdirect : b.dispatcher = none) (hone : b.flags.isOneTime = false) {hs : List Handler} {w w' : World}
    (hown : ∀ h ∈ hs, h.reactsFor id = true → ∃ name, h.response = .onProperty name (.rerun id g)) (hw : w.Staked m id b)
    (h : respondAll (p.running scripts (n + 1)) (.property prop) hs w = .ok () w') (hlive : w'.Live id)
    (hcalm : Undisturbed p scripts n id (.property prop) hs w) :
    Calls p scripts n id g (.property prop) (hs.countP (Handler.callsFor id prop)) hs w w' := by
  have hstakes := (stakes p scripts m id b).perform (fun acts => (scripts acts).makes_any) (n + 1)
  have hlater := (later p scripts m).perform (fun acts => (scripts acts).makes_any) (n + 1)
  -- Along the list: what one handler does leaves the stake as it is, and the binding is live as it is in the end.
  induction hs generalizing w with
  | nil =>
    cases h
    exact .done _
  | cons x hs ih =>
    obtain ⟨hsame, hrest⟩ := hcalm
    have hl : World.Later m w w' := ((later p scripts m).respondAll hlater _ (x :: hs)).ok _ _ _ h
    obtain ⟨u, w₁, hanswer, h⟩ := bind_eq_ok.mp h
    obtain ⟨hw₁, -⟩ := ((stakes p scripts m id b).respond hstakes _ x).ok _ _ _ hanswer hw
    have hcalls := ih (fun y hy => hown y (List.mem_cons_of_mem _ hy)) hw₁ h (hrest w₁ hanswer)
    have hlive₀ := hw.live hid hl hlive
    obtain ⟨hb, -⟩ := hw.stake hid hlive₀
    obtain ⟨b', hb', hdisposed⟩ := hlive₀
    cases hb.symm.trans hb'
    cases hx : x.callsFor id prop with
    | true =>
      rw [List.countP_cons_of_pos hx]
      obtain ⟨hanswers, hreacts⟩ := Bool.and_eq_true_iff.mp hx
      obtain ⟨name, hresponse⟩ := hown x List.mem_cons_self hreacts
      have hname : name = prop := by
        unfold Handler.answers at hanswers
        rw [hresponse] at hanswers
        exact of_decide_eq_true hanswers
      subst hname
      obtain ⟨hcall, honce⟩ := respond_call hresponse hb hdisposed hdirect hone hanswer hsame
      exact .call hanswer hcall honce hcalls
    | false =>
      rw [List.countP_cons_of_neg (Bool.eq_false_iff.mp hx)]
      refine .pass hanswer ?_ hcalls
      rw [respond_without hx fun hr => (hown x List.mem_cons_self hr).imp fun name hresponse => ⟨_, hresponse⟩, hsame, hanswer]

theorem raise_eq_ok {host : Host} {k : EventKey} {w w' : World} {u : Unit} (h : host.raise k args w = .ok u w') :
    ∃ w'', respondAll host args (w.handlersOf k) { w with depth := w.depth + 1 } = .ok () w'' ∧
      w' = { w'' with depth := w.depth } := by
  unfold Host.raise nested at h
  split at h
  · cases h
  · split at h
    · rename_i w'' hr
      cases h
      exact ⟨w'', hr, rfl⟩
    · cases h

section
variable {b : ActionBinding} {g : Getter} {o : String} {w : World} (h : w.Holds id b)
  (hmade : ∀ t ∈ b.triggers, ∃ h, t.handler = some h ∧ h.response = t.source.response (.rerun id g))
include h hmade

theorem World.Holds.response {x : Handler} (hx : x ∈ w.handlersOf (.changed o)) (hreacts : x.reactsFor id = true) :
    ∃ name, x.response = .onProperty name (.rerun id g) := by
  have hheld : x ∈ heldAt (.changed o) b.triggers := h.lists (.changed o) ▸ List.mem_filter.mpr ⟨hx, hreacts⟩
  obtain ⟨t, ht, hplace, hhandler⟩ := mem_heldAt.mp hheld
  obtain ⟨x', hx', hresponse⟩ := hmade t ht
  cases hhandler.symm.trans hx'
  obtain ⟨name, r, hsource, -⟩ := place?_eq_changed hplace
  exact ⟨name, by rw [hresponse, hsource]; rfl⟩

theorem World.Holds.countP_callsFor (prop : String) :
    (w.handlersOf (.changed o)).countP (Handler.callsFor id prop) = b.triggers.countP (Trigger.awaits o prop) := by
  calc (w.handlersOf (.changed o)).countP (Handler.callsFor id prop)
      = ((w.handlersOf (.changed o)).filter (·.reactsFor id)).countP (Handler.answers prop) := by
        rw [List.countP_filter]
        rfl
    _ = b.triggers.countP (Trigger.awaits o prop) := by rw [h.lists, countP_answers o prop hmade]

end

/-- Wherever the binding has its stake, a change of a property comes to one call for each trigger that waits for it. -/
theorem raise_calls {m : Nat} {b : ActionBinding} {g : Getter} {o prop : String} {w w' : World} (hid : id.index < m)
    (hdirect : b.dispatcher = none) (hone : b.flags.isOneTime = false)
    (hmade : ∀ t ∈ b.triggers, ∃ h, t.handler = some h ∧ h.response = t.source.response (.rerun id g))
    (hw : w.Staked m id b) (hraise : (p.running scripts (n + 1)).raise (.changed o) (.property prop) w = .ok () w')
    (hlive : w'.Live id)
    (hcalm : Undisturbed p scripts n id (.property prop) (w.handlersOf (.changed o)) { w with depth := w.depth + 1 }) :
    ∃ w'', Calls p scripts n id g (.property prop) (b.triggers.countP (Trigger.awaits o prop)) (w.handlersOf (.changed o))
        { w with depth := w.depth + 1 } w'' ∧ w' = { w'' with depth := w.depth } := by
  obtain ⟨w'', hrespond, rfl⟩ := raise_eq_ok hraise
  have hlive' : w''.Live id := hlive
  have hentered : ({ w with depth := w.depth + 1 } : World).Staked m id b := hw.same rfl (Nat.le_refl _) rfl fun _ => rfl
  have hlater : World.Later m { w with depth := w.depth + 1 } w'' :=
    ((later p scripts m).respondAll ((later p scripts m).perform (fun acts => (scripts acts).makes_any) (n + 1)) _ _).ok
      _ _ _ hrespond
  obtain ⟨-, hholds⟩ := hentered.stake hid (hentered.live hid hlater hlive')
  have hcount := hholds.countP_callsFor (o := o) hmade prop
  have hcalls := respondAll_calls hid hdirect hone (fun x hx => hholds.response hmade hx) hentered hrespond hlive' hcalm
  exact ⟨w'', hcount ▸ hcalls, rfl⟩

theorem World.Unbound.numbered {w : World} (h : w.Unbound) : w.Numbered where
  listed k g hg := by
    rw [h.handlers] at hg
    cases hg
  named name g hg := by
    rw [h.namedHandlers] at hg
    cases hg
  bound id s hs := by
    have hmem := Table.mem_entries hs
    rw [h.bindings] at hmem
    cases hmem

theorem running_stakes (p : Platform) (scripts : List Act → HostCode) (fuel m : Nat) (id : BindingId) (b : ActionBinding) :
    (p.running scripts fuel).Lasting (World.Stakes m id b) :=
  (stakes p scripts m id b).lasting ((stakes p scripts m id b).perform (fun acts => (scripts acts).makes_any) fuel)
    (M := untouched)

/-- An action binding without a dispatcher, and not for one time, whose call has no member with a registered source of change:
as long as it is live, each change of a property that an object tells of comes to one call for each access that watches the
property of this object. -/
theorem call_per_occurrence (p : Platform) (scripts : List Act → HostCode) (fuel : Nat) (before : HostCode) {w₀ w₁ : World}
    (h₀ : w₀.Unbound) {config : Configuration} {flags : Flags} {e : Expr} {id : BindingId} (hone : flags.isOneTime = false)
    (hdirect : config.actions = none) (himplicit : ∀ x ∈ e.accesses, ∀ m ∈ x.member?, config.memberSources.find? m.id = none)
    (hcreate : ActionBinding.create (p.running scripts fuel) config flags e (after (before.run (p.running scripts fuel) w₀)) =
      .ok id w₁) :
    ∃ g seen rs, ActionBinding.Observes (p.running scripts fuel) config flags e (after (before.run (p.running scripts fuel) w₀))
        g seen rs ∧
      ∀ (next : HostCode) (n : Nat) (o prop : String) (w w' : World), w = after (next.run (p.running scripts fuel) w₁) →
        (p.running scripts (n + 1)).raise (.changed o) (.property prop) w = .ok () w' → w'.Live id →
        Undisturbed p scripts n id (.property prop) (w.handlersOf (.changed o)) { w with depth := w.depth + 1 } →
        ∃ w'', Calls p scripts n id g (.property prop) (seen.countP (Expr.watches p.types config rs o prop))
            (w.handlersOf (.changed o)) { w with depth := w.depth + 1 } w'' ∧ w' = { w'' with depth := w.depth } := by
  have hstakes (m : Nat) (id : BindingId) (b : ActionBinding) (c : HostCode) :
      Lasts (World.Stakes m id b) (c.run (p.running scripts fuel)) :=
    (stakes p scripts m id b).run (fun acts => (scripts acts).makes_any) fuel c c.makes_any
  have hbefore : (after (before.run (p.running scripts fuel) w₀)).Numbered :=
    ((hstakes 0 id _ before).after w₀ (h₀.numbered.staked id { dispatcher := none, flags })).1.toNumbered
  obtain ⟨hid, g, seen, rs, ts, hobserves, hts, hmade, hstaked⟩ := create_stakes (running_stakes p scripts fuel) hbefore hone hcreate
  refine ⟨g, seen, rs, hobserves, fun next n o prop w w' hw hraise hlive hcalm => ?_⟩
  obtain ⟨hreached, -⟩ := (hstakes w₁.next id _ next).after w₁ hstaked
  have hcount : ts.countP (Trigger.awaits o prop) = seen.countP (Expr.watches p.types config rs o prop) := by
    apply countP_awaits o prop hts
    intro v hv m hm
    obtain ⟨s, s', -, -, haccesses, -⟩ := hobserves
    exact himplicit v.1 (haccesses ▸ List.mem_map_of_mem hv) m hm
  rw [← hcount]
  exact raise_calls hid hdirect hone hmade (hw ▸ hreached) hraise hlive hcalm

/-! ## Boards -/

namespace Boards

def level : MemberSpec := ⟨"X", .property, .int, false, some (.slot "X"), some (.slot "X" none true)⟩

def twin : MemberSpec := ⟨"Twin", .property, ⟨5⟩, false, some (.slot "Twin"), none⟩

def compare : MethodSpec where
  name := "Compare"
  params := ["a", "b", "c"].map fun name => ⟨name, .int, false⟩
  returns := none
  isVirtual := false
  convention := .static
  body := { traced := true }

def platform : Platform :=
  ⟨⟨[{ name := "Board", notifies := true, members := [level, twin], methods := [compare] }]⟩, fun _ => "Model", none⟩

def board (name : String) : ObjectRef := ⟨name, ⟨5⟩, .model⟩

def levelOf (i : Nat) (e : Expr) : Expr := .member ⟨i⟩ e { level with id := ⟨⟨5⟩, 0⟩ }

def named (name : String) : Expr := .constant (.object (board name)) ⟨5⟩ (some name)

/-- `Board.Compare(a.X, a.X, b.Twin.X)`, where the first two arguments have one node. -/
def comparison : Expr :=
  .typeCall { compare with id := ⟨⟨5⟩, 0⟩ }
    [levelOf 0 (named "a"), levelOf 0 (named "a"), levelOf 2 (.member ⟨1⟩ (named "b") { twin with id := ⟨⟨5⟩, 1⟩ })]

def idle : World where
  objects := (Table.empty.insert "a" { slots := Table.empty.insert "X" (.integer 0), offersChanges := true }).insert "b"
    { slots := Table.empty.insert "Twin" (.object (board "a")), offersChanges := true }

theorem idle_unbound : idle.Unbound := ⟨fun _ => rfl, rfl, rfl, fun _ => rfl, fun _ => rfl, rfl⟩

def host : Host := platform.running HostCode.ofActs 3

def made : World := after (ActionBinding.create host {} .noInitialTrigger comparison idle)

def told : World := after (host.raise (.changed "a") (.property "X") made)

def compared : Getter :=
  .call (.fixed ⟨{ compare with id := ⟨⟨5⟩, 0⟩ }, .action 3⟩)
    (List.replicate 3 (.read (.shared (.object (board "a"))) ⟨{ level with id := ⟨⟨5⟩, 0⟩ }, false⟩))

def waiting (i : Nat) : Handler := ⟨i, .property, .onProperty "X" (.rerun ⟨0⟩ compared)⟩

theorem made_created : ActionBinding.create host {} .noInitialTrigger comparison idle = .ok ⟨0⟩ made :=
  eq_ok_after (by decide +kernel)

/-- The stake of the new binding says how the handlers answer. -/
theorem made_handler {h : Handler} (hh : h ∈ made.handlersOf (.changed "a")) : waiting h.id = h := by
  obtain ⟨s₁, hcompared⟩ : ∃ s₁, ActionBinding.start host {} .noInitialTrigger comparison
      ⟨idle.birth (.action { dispatcher := none, flags := .noInitialTrigger }), .empty⟩ = .ok compared s₁ := ⟨_, rfl⟩
  have hall : (made.handlersOf (.changed "a")).all (fun h => h.payload = .property ∧ h.callsFor ⟨0⟩ "X") = true := by
    decide +kernel
  obtain ⟨hid, g, seen, rs, ts, ⟨s, s', hstart, -⟩, -, hmade, hstaked⟩ :=
    create_stakes (running_stakes platform HostCode.ofActs 3) idle_unbound.numbered rfl made_created
  obtain ⟨-, hholds⟩ := hstaked.stake hid (World.live_of_action? (by decide +kernel))
  cases hstart.symm.trans hcompared
  obtain ⟨hpayload, hcalls⟩ := of_decide_eq_true (List.all_eq_true.mp hall h hh)
  obtain ⟨hanswers, hreacts⟩ := Bool.and_eq_true_iff.mp hcalls
  obtain ⟨name, hresponse⟩ := hholds.response hmade hh hreacts
  obtain ⟨i, payload, response⟩ := h
  cases hpayload
  cases hresponse
  cases of_decide_eq_true hanswers
  rfl

theorem made_handlers : made.handlersOf (.changed "a") = [1, 2, 3].map waiting := by
  have hids : (made.handlersOf (.changed "a")).map Handler.id = [1, 2, 3] := by decide +kernel
  rw [← hids, List.map_map]
  exact ((List.map_congr_left fun h hh => made_handler hh).trans (List.map_id _)).symm

theorem compared_run (f : Action → Effect Unit) (w : World) : compared.run ⟨platform, f⟩ w = .ok .null
    { w with log := ("call Board.Compare(" ++ ", ".intercalate ((List.replicate 3 (w.slot "a" "X")).map
      (Value.inspect platform.types)) ++ ")") :: w.log } := rfl

theorem waiting_respond {w : World} (i : Nat) (hw : w.bindings = made.bindings) : ∃ log,
    (waiting i).respond host (.property "X") w = .ok () { w with log := log } ∧
      (waiting i).respond (platform.undisturbed HostCode.ofActs ⟨0⟩ 2) (.property "X") w = .ok () { w with log := log } := by
  have hmade : (made.action? ⟨0⟩).map (fun b => (b.disposed, b.dispatcher, b.flags.isOneTime)) = some (false, none, false) := by
    decide +kernel
  obtain ⟨b, hb, hfields⟩ := Option.map_eq_some_iff.mp hmade
  simp only [Prod.mk.injEq] at hfields
  obtain ⟨hlive, hdirect, hone⟩ := hfields
  have hfound : w.bindings.find? ⟨0⟩ = some (.action b) := by rw [hw, action?_eq_some.mp hb]
  have hrerun (f : Action → Effect Unit) := (rerun_direct hfound hlive hdirect hone).trans (bind_of_ok (compared_run f w))
  exact ⟨_, hrerun _, hrerun _⟩

theorem waiting_undisturbed {w : World} (is : List Nat) (hw : w.bindings = made.bindings) :
    Undisturbed platform HostCode.ofActs 2 ⟨0⟩ (.property "X") (is.map waiting) w := by
  induction is generalizing w with
  | nil => trivial
  | cons i is ih =>
    obtain ⟨log, hrespond, hcalm⟩ := waiting_respond i hw
    refine ⟨hcalm.trans hrespond.symm, fun w' h => ih ?_⟩
    cases hrespond.symm.trans h
    exact hw

theorem waiting_calls {g : Getter} {k : Nat} {w w' : World} (is : List Nat)
    (h : Calls platform HostCode.ofActs 2 ⟨0⟩ g (.property "X") k (is.map waiting) w w') : k = is.length := by
  induction is generalizing k w with
  | nil =>
    cases h
    rfl
  | cons i is ih =>
    cases h with
    | call _ _ _ rest => rw [ih rest, List.length_cons]
    | pass _ hwithout _ => cases hwithout

-- Of any world, so that the worlds here need not be computed.
theorem run_done (w : World) : w = after (HostCode.done.run host w) := rfl

theorem entered_bindings (w : World) : ({ w with depth := w.depth + 1 } : World).bindings = w.bindings := rfl

/-- A change of `a` comes to three calls: the first two arguments share their node and count twice, and the last one is the
level of the same board. -/
theorem compared_three_times : host.raise (.changed "a") (.property "X") made = .ok () told ∧ told.Live ⟨0⟩ ∧
    ∃ g seen rs, ActionBinding.Observes host {} .noInitialTrigger comparison idle g seen rs ∧
      seen.countP (Expr.watches platform.types {} rs "a" "X") = 3 ∧
      ∃ w, Calls platform HostCode.ofActs 2 ⟨0⟩ g (.property "X") 3 ([1, 2, 3].map waiting)
          { made with depth := made.depth + 1 } w ∧ told = { w with depth := made.depth } := by
  obtain ⟨g, seen, rs, hobserves, hraise⟩ := call_per_occurrence platform HostCode.ofActs 3 .done idle_unbound rfl rfl
    (fun _ _ _ _ => rfl) made_created
  have htold : host.raise (.changed "a") (.property "X") made = .ok () told := eq_ok_after (by decide +kernel)
  have hlive : told.Live ⟨0⟩ := World.live_of_action? (by decide +kernel)
  replace hraise := hraise .done 2 "a" "X" made told (run_done made) htold hlive
  rw [made_handlers] at hraise
  obtain ⟨w, hcalls, hend⟩ := hraise (waiting_undisturbed [1, 2, 3] (entered_bindings made))
  have hthree := waiting_calls [1, 2, 3] hcalls
  rw [hthree] at hcalls
  exact ⟨htold, hlive, g, seen, rs, hobserves, hthree, w, hcalls, hend⟩

end Boards

end DataBinding
