import DataBinding.Proofs.Run.Inert
import DataBinding.Proofs.Tracking.Build

/-!
# One-time bindings

A one-time binding is disposed when its write, call or action has come to its end. From then on the handlers of an
equality or action binding do nothing, whoever calls them. The handler of an event binding does not look whether the
binding is disposed, and all that is said of it is what holds of every handler: in no list after the act, it is in none
later (`one_time_acts_last`). Until the act has ended the binding reacts to what the act brings about, so an act may
contain further ones (`Meters.one_time_acts_twice`).
-/

namespace DataBinding

open Effect Compile

/-- From the first world to the second a one-time binding has acted: it has written, called its method again, run the
action of its event, or called its method when it was built. -/
inductive Acted (host : Host) (id : BindingId) (w w' : World) : Prop where
  | write {b : EqualityBinding} {s : Setter} {v : Value} (hid : id.index < w.next) (hb : w.equality? id = some b)
      (hone : b.flags.isOneTime = true) (h : EqualityBinding.assign host id s v w = .ok () w')
  | call {b : ActionBinding} {g : Getter} (hid : id.index < w.next) (hb : w.action? id = some b)
      (hlive : b.disposed = false) (hone : b.flags.isOneTime = true) (h : ActionBinding.rerun host id g w = .ok () w')
  | event {s : Binding} {a : Action} (hid : id.index < w.next) (hs : w.bindings.find? id = some s)
      (h : (Action.once id a).step host w = .ok () w')
  | firstCall {config : Configuration} {flags : Flags} {e : Expr} (hone : flags.isOneTime = true)
      (hfirst : flags.hasInitialTrigger = true) (h : ActionBinding.create host config flags e w = .ok id w')

section
variable {host : Host} {w w' : World} {id : BindingId} {m : Nat}

theorem find?_later {s : Binding} (h : World.Later m w w') (hm : m ≤ w.next) (hid : id.index < m)
    (hs : w.bindings.find? id = some s) : ∃ s', w'.bindings.find? id = some s' ∧ s.Continues s' :=
  (h hm).2.bindings id s hid hs

/-- A binding that is disposed after an act is silent then, whatever the act has done. -/
theorem act_silent {α : Type} {x : Effect α} (hx : Lasts (World.Later w.next) x) {s : Binding} (hid : id.index < w.next)
    (hs : w.bindings.find? id = some s) (h : (x >>= fun _ => host.dispose id) w = .ok () w') :
    w.next ≤ w'.next ∧ w'.Silent id := by
  obtain ⟨u, w₁, hact, h⟩ := bind_eq_ok.mp h
  have hlater := hx.ok w u w₁ hact
  obtain ⟨s', hs', -⟩ := find?_later hlater (Nat.le_refl _) hid hs
  obtain ⟨hnext, hsilent⟩ := dispose_silent hs' h
  exact ⟨Nat.le_trans (hlater (Nat.le_refl _)).1 (Nat.le_of_eq hnext.symm), hsilent⟩

theorem action?_eq_some {b : ActionBinding} : w.action? id = some b ↔ w.bindings.find? id = some (.action b) := by
  unfold World.action?
  split
  · rename_i s hs
    rw [hs]
    simp
  · rename_i hs
    constructor
    · intro h
      cases h
    · exact fun h => absurd h (hs b)

variable (hl : ∀ m, host.Lasting (World.Later m))
include hl

theorem assign_silent {b : EqualityBinding} {s : Setter} {v : Value} (hid : id.index < w.next)
    (hb : w.equality? id = some b) (hone : b.flags.isOneTime = true)
    (h : EqualityBinding.assign host id s v w = .ok () w') : w.next ≤ w'.next ∧ w'.Silent id := by
  obtain ⟨_, _, hg, h⟩ := bind_eq_ok.mp h
  cases hg
  simp only [hb, hone, if_true] at h
  exact act_silent ((hl _).dispatch _ _) hid (World.equality?_eq_some.mp hb) h

theorem rerun_one_time {b : ActionBinding} {g : Getter} (hid : id.index < w.next) (hb : w.action? id = some b)
    (hlive : b.disposed = false) (hone : b.flags.isOneTime = true)
    (h : ActionBinding.rerun host id g w = .ok () w') : w.next ≤ w'.next ∧ w'.Silent id := by
  obtain ⟨_, _, hg, h⟩ := bind_eq_ok.mp h
  cases hg
  simp only [hb, hlive, hone, Bool.false_eq_true, if_false, if_true] at h
  exact act_silent ((hl _).dispatch _ _) hid (action?_eq_some.mp hb) h

theorem firstCall_silent {config : Configuration} {flags : Flags} {e : Expr} (hone : flags.isOneTime = true)
    (hfirst : flags.hasInitialTrigger = true) (h : ActionBinding.create host config flags e w = .ok id w') :
    id = ⟨w.next⟩ ∧ w.next < w'.next ∧ w'.Silent id := by
  rw [ActionBinding.create_eq_building] at h
  obtain ⟨rfl, s, hcall, rfl⟩ := building_eq_ok h
  obtain ⟨g, s₁, hgetter, hcall⟩ := bind_eq_ok.mp hcall
  simp only [hone, hfirst, if_true] at hcall
  obtain ⟨u, s₂, hdispatch, hcall⟩ := bind_eq_ok.mp hcall
  obtain ⟨u, s₃, hmod, hcall⟩ := bind_eq_ok.mp hcall
  cases modify_eq_ok.mp hmod
  cases hcall
  have hh := hl (w.next + 1)
  have hl₁ : World.Later (w.next + 1) _ s₁.world :=
    (Expr.getterOrFallback_lasts hh.chains hh.stores e fun x _ => hh.part x).ok _ g s₁ hgetter
  have hl₂ : World.Later (w.next + 1) s₁.world s₂.world := (lasts_lift (hh.dispatch _ _)).ok s₁ _ s₂ hdispatch
  have hlater := hh.chains.trans hl₁ hl₂
  have hnew : (w.birth (.action { dispatcher := config.actions, flags })).bindings.find? ⟨w.next⟩ =
      some (.action { dispatcher := config.actions, flags }) :=
    (World.find?_setBinding _ _ _ _).trans (if_pos rfl)
  -- Host code of the first call cannot take the binding away, so the mark is put on this one.
  obtain ⟨s', hs', hc⟩ := find?_later hlater (Nat.le_refl _) (Nat.lt_succ_self _) hnew
  have hnext := (hlater (Nat.le_refl _)).1
  cases s' with
  | action b =>
    have hupdate : s₂.world.updateAction ⟨w.next⟩ (fun b => { b with disposed := true }) =
        s₂.world.setBinding ⟨w.next⟩ (.action { b with disposed := true }) := by
      rw [World.updateAction, action?_eq_some.mpr hs']
    simp only [hupdate]
    refine ⟨trivial, hnext, .action { b with disposed := true }, ?_, rfl⟩
    rw [World.find?_setBinding, if_pos rfl]
  | _ => cases hc

theorem Acted.silent (hperform : ∀ m a, Lasts (World.Later m) (host.perform a)) (h : Acted host id w w') :
    id.index < w'.next ∧ w'.Silent id := by
  cases h with
  | write hid hb hone h =>
    obtain ⟨hnext, hs⟩ := assign_silent hl hid hb hone h
    exact ⟨Nat.lt_of_lt_of_le hid hnext, hs⟩
  | call hid hb hlive hone h =>
    obtain ⟨hnext, hs⟩ := rerun_one_time hl hid hb hlive hone h
    exact ⟨Nat.lt_of_lt_of_le hid hnext, hs⟩
  | event hid hs h =>
    obtain ⟨hnext, hs⟩ := act_silent (hperform _ _) hid hs h
    exact ⟨Nat.lt_of_lt_of_le hid hnext, hs⟩
  | firstCall hone hfirst h =>
    obtain ⟨rfl, hnext, hs⟩ := firstCall_silent hl hone hfirst h
    exact ⟨hnext, hs⟩

end

/-- After a one-time equality or action binding has acted, every list of handlers answers as if those of the binding were
not there, in whatever world host code leads to. After that of any binding, of an event too, a handler that is in no list
by then stays out of all of them. -/
theorem one_time_acts_last (p : Platform) (scripts : List Act → HostCode) (fuel : Nat) (code : HostCode) {n : Nat}
    {w w₁ : World} {id : BindingId} (h : Acted (p.running scripts n) id w w₁) :
    (∀ n args hs, respondAll (p.running scripts (n + 1)) args hs (after (code.run (p.running scripts fuel) w₁)) =
      respondAll (p.running scripts (n + 1)) args (hs.filter fun g => !g.reactsFor id)
        (after (code.run (p.running scripts fuel) w₁))) ∧
      ∀ i < w₁.next, w₁.Absent i → (after (code.run (p.running scripts fuel) w₁)).Absent i := by
  have hperform (m : Nat) := (later p scripts m).perform (fun acts => (scripts acts).makes_any) n
  obtain ⟨hid, hsilent⟩ := h.silent (fun m => (later p scripts m).lasting (M := untouched) (hperform m)) hperform
  have hl := (run_later p scripts fuel code w₁.next).after w₁
  obtain ⟨hm, hsilent'⟩ := silent_later hl (Nat.le_refl _) hid hsilent
  exact ⟨fun n args hs => respondAll_silent hid n args hs hm hsilent', (hl (Nat.le_refl _)).2.absent⟩

/-! ## Meters -/

namespace Meters

def level : MemberSpec := ⟨"X", .property, .int, false, some (.slot "X"), some (.slot "X" none true)⟩

def platform : Platform := ⟨⟨[{ name := "Model", notifies := true, members := [level] }]⟩, fun _ => "Model", none⟩

def host : Host := platform.running HostCode.ofActs 6

def meter (name : String) : ObjectRef := ⟨name, ⟨5⟩, .model⟩

def access (i : Nat) (o : String) : Expr :=
  .member ⟨i⟩ (.constant (.object (meter o)) ⟨5⟩ none) { level with id := ⟨⟨5⟩, 0⟩ }

def config : Configuration where
  eventSources := ⟨Table.empty.insert "Changed" [(⟨5⟩, .property "X")]⟩

def idle : World where
  objects := (["a", "b"].foldl fun t o =>
    t.insert o { slots := Table.empty.insert "X" (.integer 0), offersChanges := true }) Table.empty

/-- When `a` changes for the first time, that is logged and `a` is set to two. -/
def logged : World :=
  after ((HostCode.bind "k" (.event config .oneTime (.object (meter "a")) "Changed"
    [.log "run", .write (meter "a") "X" (.integer 2)]) .done).run host idle)

/-- The first change of `b` is carried over to `a`, and a change of `a` sets `b` to two. -/
def linked : World :=
  after ((HostCode.bind "echo" (.event config .empty (.object (meter "a")) "Changed" [.write (meter "b") "X" (.integer 2)])
    (.bind "k" (.equality {} (Flags.oneTime.union .noInitialTrigger) (access 0 "a") (access 1 "b")) .done)).run host idle)

/-- One write from outside lets a one-time event binding run twice, and a one-time equality write twice. -/
theorem one_time_acts_twice :
    result? ((Act.write (meter "a") "X" (.integer 1)).run host logged) = some () ∧
      (after ((Act.write (meter "a") "X" (.integer 1)).run host logged)).log.take 5 =
        ["DEBUG Removed handler [Changed] for Model", "log run", "changed a.X", "log run", "changed a.X"] ∧
      result? ((Act.write (meter "b") "X" (.integer 1)).run host linked) = some () ∧
      (linked.equality? ⟨2⟩).map (fun b => (b.flags.isOneTime, b.disposed)) = some (true, false) ∧
      (after ((Act.write (meter "b") "X" (.integer 1)).run host linked)).assignments.map
        (fun a => (a.binding, a.value.asInt?)) = [(⟨2⟩, some 2), (⟨2⟩, some 1)] := by
  decide +kernel

def target : Setter := .write (.shared (.object (meter "a"))) ⟨{ level with id := ⟨⟨5⟩, 0⟩ }, false⟩

def written : World := after (EqualityBinding.assign host ⟨2⟩ target (.integer 7) linked)

/-- A change of `b` after the one write is not carried over. -/
theorem one_write_is_last :
    Acted host ⟨2⟩ linked written ∧ (written.equality? ⟨2⟩).map (·.disposed) = some true ∧
      ∀ n args hs,
        respondAll (platform.running HostCode.ofActs (n + 1)) args hs
            (after ((HostCode.ofActs [.write (meter "b") "X" (.integer 3)]).run host written)) =
          respondAll (platform.running HostCode.ofActs (n + 1)) args (hs.filter fun g => !g.reactsFor ⟨2⟩)
            (after ((HostCode.ofActs [.write (meter "b") "X" (.integer 3)]).run host written)) := by
  have hone : (linked.equality? ⟨2⟩).map (fun b => b.flags.isOneTime) = some true := by decide +kernel
  obtain ⟨b, hb, hone⟩ := Option.map_eq_some_iff.mp hone
  have hacted : Acted host ⟨2⟩ linked written := .write (by decide +kernel) hb hone (eq_ok_after (by decide +kernel))
  exact ⟨hacted, by decide +kernel, (one_time_acts_last platform HostCode.ofActs 6 _ hacted).1⟩

end Meters

end DataBinding
