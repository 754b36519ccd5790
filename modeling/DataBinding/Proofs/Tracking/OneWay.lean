import DataBinding.Proofs.Tracking.Build
import DataBinding.Proofs.Tracking.Engine
import DataBinding.Proofs.Value.Same

/-!
# One-way bindings

A one-way binding tracks the expression on its right side, whatever tame code runs in between
(`one_way_tracks`). Nothing listens to the right side while the first value is written, so that write has to leave
the right side as it was.
-/

namespace DataBinding

open Effect Compile

/-- What follows the binding of this number, whose source gives the value of an observed expression. -/
def Expr.follow {p : Platform} {config : Configuration} {e : Expr} (he : ∀ x ∈ e.parts, x.Observed p config)
    (id : BindingId) {source : Getter} (hs : ∀ f w, Agree w w (source.run ⟨p, f⟩) (e.eval ⟨p, f⟩)) {target : Setter}
    (ht : target.Tame (e.watch p)) (htypes : p.types.Tame (e.watch p)) (first : Nat) (armed : Prop) : Tracking where
  toWatch := e.watch p
  binding := id
  own g s := armed ∧ g = source ∧ s = target
  source := source
  target := target
  first := first
  armed := armed
  own_iff _ _ := Iff.rfl
  value w v := ∀ f, e.eval ⟨p, f⟩ w = .ok v w
  value_congr w w' v hr hv f := (Agree.ok_right (Expr.eval_congr he hr) (hv f)).2
  source_value host w v w' hp hv := by
    obtain ⟨p', f⟩ := host
    cases hp
    obtain ⟨hw, hval⟩ := (hs f w).ok_right hv
    exact ⟨hw, fun f' => (Agree.ok_right (Expr.eval_congr he fun _ _ _ _ => rfl) hval).2⟩
  target_tame := ht
  types_tame := htypes

/-! ## Tame worlds stay tame when the binding starts to react -/

section
variable {S : Scope} {own : Getter → Setter → Prop} (h : ∀ g s, S.own g s → own g s)
include h

theorem Action.Tame.mono {a : Action} (ha : a.Tame S) : a.Tame { S with own } := by
  induction a with
  | follow b g s => exact ha.imp id fun hb => ⟨hb.1, h g s hb.2⟩
  | once b inner ih => exact ih ha
  | _ => exact ha

theorem Handler.Tame.mono {g : Handler} (hg : g.Tame S) : g.Tame { S with own } := by
  unfold Handler.Tame at hg ⊢
  split
  · rename_i a hr
    rw [hr] at hg
    exact Action.Tame.mono h hg
  · rename_i n a hr
    rw [hr] at hg
    exact Action.Tame.mono h hg
  · rename_i n acts hr
    rw [hr] at hg
    exact hg

theorem World.Tame.mono {w : World} (hw : w.Tame S) : w.Tame { S with own } where
  handlers k g hg := (hw.handlers k g hg).mono h
  direct d hd := (hw.direct d hd).mono h
  named n g hg := (hw.named n g hg).mono h
  jobs j hj := by
    cases j with
    | assign a => exact hw.jobs _ hj
    | call g => exact hw.jobs _ hj

end

/-! ## Construction -/

namespace Tracking

variable {T : Tracking} {host : Host}

theorem accessor_tame {types : TypeTable} (ht : types.Tame T.toWatch) {m : Member} (hm : m.Tame T.toWatch)
    (t : TypeId) : (Accessor.on types m t).member.Tame T.toWatch := by
  unfold Accessor.on Accessor.resolve
  simp only
  split
  · exact hm
  · cases hf : (types.member? t m.name).filter fun found => found.kind = m.kind && !found.isStatic with
    | none => exact hm
    | some found =>
      obtain ⟨-, a, -, -, ha, -⟩ := TypeTable.member?_eq_some (Option.filter_eq_some_iff.mp hf).1
      exact ht.members a found (TypeTable.mem_of_declaredMember? ha).1

theorem ofValue_step {v : Value} : Within T.Step (Receiver.ofValue v) := by
  cases v with
  | record t fields =>
    intro w r w' h
    obtain ⟨n, w₁, hn, h⟩ := bind_eq_ok.mp h
    cases hn
    cases h
    exact Calm.step (.of_same rfl (Nat.le_succ _))
  | _ => exact within_return _

section
variable (h : T.Follows host)
include h

theorem readThrough_step {m : Member} (hm : m.Tame T.toWatch) (r : Receiver) (whole : Expr) :
    Within T.Step (Expr.readThrough host r m whole) := by
  intro w v w' hx
  obtain ⟨a, w₁, ha, hread⟩ := bind_eq_ok.mp hx
  obtain ⟨t, -, rfl, rfl⟩ := Expr.accessor_eq_ok ha
  exact Receiver.read_step h (accessor_tame (host_types_tame h) hm t) r _ v w' hread

theorem setter?_step {custom : Option (Table DeclId CustomSetter)} {e : Expr} (he : e.Tame T.toWatch)
    (hn : ∀ x ∈ e.parts, x.Named e.parts) :
    Within (fun s s' => T.Step s.world s'.world) (e.setter? host custom) := by
  have hc : Chains fun s s' : Workbench => T.Step s.world s'.world :=
    ⟨fun s => (step_chains T).refl s.world, (step_chains T).trans⟩
  have lifted {α : Type} {x : Effect α} (hx : Within T.Step x) :
      Within (fun s s' : Workbench => T.Step s.world s'.world) (lift x) := by
    intro s a s' hl
    obtain ⟨w, hw, rfl⟩ := lift_eq_ok.mp hl
    exact hx _ _ _ hw
  refine Expr.setter?_within hc custom e fun x hx => Expr.node_within hc e hn (fun y hy => ?_) hx
  have htame : y.Tame T.toWatch := fun z hz => he z (Expr.parts_subset e hy hz)
  refine ⟨lifted (eval_step h y htame), fun m hm r => lifted (readThrough_step h ?_ r y), ?_, ?_⟩
  · have hnode := he y hy
    cases y with
    | member node target m' =>
      cases hm
      exact hnode
    | typeMember node m' =>
      cases hm
      exact hnode
    | _ => cases hm
  · intro n s v r w _ _ hr _
    exact ofValue_step _ _ _ hr
  · intro n m s _ _
    exact (step_chains T).refl s.world

/-- How the first write leaves the binding: with the value that its setter was given. -/
theorem start_step (harmed : ¬ T.armed) {w w' : World} (hw : T.Watched w)
    (hb : ∀ b, w.equality? T.binding = some b → b.dispatcher = none ∧ b.flags.isOneTime = false) {done : Bool}
    (hstart : EqualityBinding.start host T.binding .empty T.source T.target w = .ok done w') :
    T.Watched w' ∧ ∃ v, T.value w v ∧ ∀ b', w'.equality? T.binding = some b' →
      b'.dispatcher = none ∧ b'.flags.isOneTime = false ∧ (b'.disposed = false → b'.value = v ∧
        ∃ a, w'.assignment? T.binding = some a ∧ a.target = T.target ∧ a.value = v) := by
  obtain ⟨-, v, w₁, u, hv, hassign⟩ := EqualityBinding.start_eq_ok hstart
  obtain ⟨hw₁, hval⟩ := T.source_value host w v w₁ h.platform hv
  subst hw₁
  cases he : w₁.equality? T.binding with
  | none =>
    have hsame : w₁.updateEquality T.binding (fun b => { b with value := v }) = w₁ := by
      rw [World.updateEquality, he]
    rw [hsame] at hassign
    obtain ⟨_, _, hg, hassign⟩ := bind_eq_ok.mp hassign
    cases hg
    rw [he] at hassign
    cases hassign
    exact ⟨hw, v, hval, fun b' hb' => by rw [he] at hb'; cases hb'⟩
  | some b =>
    obtain ⟨hdisp, hflags⟩ := hb b he
    rw [EqualityBinding.assign_carried he hdisp hflags] at hassign
    have hcarried : T.Watched (w₁.carried T.binding b T.target v) := by
      refine hw.of_frame rfl rfl rfl rfl rfl (fun id hne => ?_) fun ha => absurd ha harmed
      exact (World.find?_setBinding _ _ _ _).trans (if_neg (Ne.symm hne))
    obtain ⟨hw', hdone⟩ := setter_step h T.target_tame v _ _ _ hassign hcarried
    have hunchanged := hdone.resolve_left fun hs => harmed hs.1
    refine ⟨hw', v, hval, fun b' hb' => ?_⟩
    obtain ⟨b₁, hb₁, hc⟩ := hunchanged.binding b' hb'
    cases hb₁.symm.trans (World.equality?_carried w₁ T.binding b T.target v)
    refine ⟨hc.dispatcher.trans hdisp, by rw [hc.flags, hflags], fun hd => ⟨(hc.live hd).2, ?_⟩⟩
    rw [hunchanged.given]
    exact ⟨_, World.assignment?_carried w₁ T.binding b T.target v, rfl, rfl⟩

end

theorem subscribed_watched {p : Platform} {config : Configuration} {e : Expr}
    (he : ∀ x ∈ e.parts, x.Observed p config) {id : BindingId} {source : Getter}
    (hs : ∀ f w, Agree w w (source.run ⟨p, f⟩) (e.eval ⟨p, f⟩)) {target : Setter} (ht : target.Tame (e.watch p))
    (htypes : p.types.Tame (e.watch p)) {first : Nat} {w w' : World}
    (hw : (e.follow he id hs ht htypes first False).Watched w)
    (hb : ∀ b, w.equality? id = some b → b.dispatcher = none ∧ b.flags.isOneTime = false ∧ (b.disposed = false →
      ∃ a, w.assignment? id = some a ∧ a.target = target ∧ a.value = b.value))
    (hg : w.Gains (.follow id source target) w')
    (hl : ∀ o s n, (e.watch p).reads o s n → ∃ h ∈ w'.handlersOf (.changed o), first ≤ h.id ∧
      h.response = .onProperty n (.follow id source target)) (ts : List Trigger) (log : List String) :
    (e.follow he id hs ht htypes first True).Watched
      { w'.updateEquality id (fun b => { b with right := ts }) with log := log } := by
  have htame : w.Tame (e.follow he id hs ht htypes first True).toScope :=
    World.Tame.mono (S := (e.follow he id hs ht htypes first False).toScope)
      (fun _ _ h => h.1.elim) hw.toTame
  have hfields := World.updateEquality_eq w' id fun b => { b with right := ts }
  refine ⟨⟨fun k g hk => ?_, ?_, ?_, ?_⟩, fun b s hne hf => ?_, ?_, fun _ b hlive => ?_⟩
  · have hk' : g ∈ w'.handlersOf k := by
      rw [hfields] at hk
      exact hk
    rcases hg.added k g hk' with hold | ⟨n, hn⟩
    · exact htame.handlers k g hold
    · unfold Handler.Tame
      rw [hn]
      exact .inr ⟨rfl, trivial, rfl, rfl⟩
  · rw [hfields]
    exact fun d hd => htame.direct d (hg.direct ▸ hd)
  · rw [hfields]
    exact fun n g hn => htame.named n g (hg.named ▸ hn)
  · rw [hfields]
    exact fun j hj => htame.jobs j (hg.jobs ▸ hj)
  · have hf' := (World.find?_updateEquality w' (fun b => { b with right := ts }) hne).symm.trans hf
    rw [hg.bindings] at hf'
    exact hw.apart b s hne hf'
  · rw [hfields]
    exact Nat.le_trans hw.numbered hg.next
  · have hbind : (w'.equality? id).map (fun b => { b with right := ts }) = some b :=
      (World.equality?_updateEquality w' id _).symm.trans hlive.1
    obtain ⟨b₀, hb₀, rfl⟩ := Option.map_eq_some_iff.mp hbind
    rw [World.equality?_eq_some, hg.bindings, ← World.equality?_eq_some] at hb₀
    obtain ⟨hdisp, hflags, hgiven⟩ := hb b₀ hb₀
    refine ⟨hdisp, hflags, ?_, ?_⟩
    · rw [hfields]
      unfold World.assignment? at hgiven ⊢
      rw [← hg.assignments] at hgiven
      exact hgiven hlive.2
    · rw [hfields]
      exact hl

end Tracking

/-! ## The binding over its whole life -/

section
variable {p : Platform} {config : Configuration} {left right : Expr} {w₀ w₁ : World} {target : Setter}
  {s₁ : Workbench} {fuel : Nat} {id : BindingId}

/-- What a new binding finds: everything that is kept to be run is tame, and the handlers of the bindings there are
have been given their numbers. -/
structure World.Ready (w : World) (W : Watch) : Prop where
  tame : w.Tame ⟨W, ⟨w.next⟩, fun _ _ => False⟩
  numbered : ∀ b s, w.bindings.find? b = some s → ∀ h ∈ s.handlers, h.id < w.next

/-- The binding has been built over an observed expression, and whatever its first write caused, the expression has
the value that was written. -/
structure Built (p : Platform) (config : Configuration) (left right : Expr) (target : Setter) (w₀ w₁ : World)
    (id : BindingId) : Prop where
  observed : ∀ x ∈ right.parts, x.Observed p config
  immediate : config.assignments = none
  named : ∀ x ∈ left.parts ++ right.parts, x.Named (left.parts ++ right.parts)
  left_tame : left.Tame (right.watch p)
  target_tame : target.Tame (right.watch p)
  types_tame : p.types.Tame (right.watch p)
  ready : w₀.Ready (right.watch p)
  built : ∃ fuel s, EqualityBinding.create (p.withFuel fuel) config .empty left right w₀ = .ok id w₁ ∧
    left.setter? (p.withFuel fuel) (some config.setters)
      ⟨w₀.registering { dispatcher := config.assignments, flags := .empty }, .empty⟩ = .ok (some target) s ∧
    ∀ v, right.eval (p.withFuel fuel) s.world = .ok v s.world →
      ∃ v', right.eval (p.withFuel fuel) w₁ = .ok v' w₁ ∧ (v = v' ∨ v.same v' = true)

theorem World.Ready.registering {e : Expr} (h : w₀.Ready (e.watch p)) (he : ∀ x ∈ e.parts, x.Observed p config)
    {source : Getter} (hs : ∀ f w, Agree w w (source.run ⟨p, f⟩) (e.eval ⟨p, f⟩)) (ht : target.Tame (e.watch p))
    (htypes : p.types.Tame (e.watch p)) (b : EqualityBinding) :
    (e.follow he ⟨w₀.next⟩ hs ht htypes w₀.next False).Watched (w₀.registering b) := by
  have htame : w₀.Tame (e.follow he ⟨w₀.next⟩ hs ht htypes w₀.next False).toScope :=
    World.Tame.mono (S := ⟨e.watch p, ⟨w₀.next⟩, fun _ _ => False⟩)
      (fun _ _ ho => False.elim ho) h.tame
  refine ⟨⟨htame.handlers, htame.direct, htame.named, htame.jobs⟩, fun id s hne hfind => ?_, Nat.le_succ _,
    fun ha => ha.elim⟩
  refine h.numbered id s ?_
  have hother := World.find?_setBinding { w₀ with next := w₀.next + 1 } ⟨w₀.next⟩ id (.equality b)
  exact (hother.trans (if_neg (Ne.symm hne))).symm.trans hfind

theorem Expr.Collects.listens {e : Expr} {ts : List Trigger} (h : Expr.Collects e.parts ts) {P : String → String → Prop}
    (hP : ∀ t ∈ ts, ∀ o n, t.Observes o n → P o.name n) {o slot n : String} (hr : (e.watch p).reads o slot n) :
    P o n := by
  obtain ⟨x, hx, hreads⟩ := hr
  unfold Expr.Reads at hreads
  split at hreads
  · obtain ⟨rfl, -, rfl⟩ := hreads
    obtain ⟨t, ht, ho⟩ := h.complete _ _ _ _ _ hx
    exact hP t ht _ _ ho
  · exact hreads.elim

/-- From its construction on the binding is attached and has the value of the right side. -/
theorem Built.tracks (h : Built p config left right target w₀ w₁ id) :
    ∃ T : Tracking, T.platform = p ∧ T.toWatch = right.watch p ∧ T.binding = id ∧ T.target = target ∧ T.armed ∧
      (∀ w v, T.value w v → ∀ f, right.eval ⟨p, f⟩ w = .ok v w) ∧ T.Watched w₁ ∧ T.Synced w₁ := by
  obtain ⟨k, s, hcreate, hset, hkept⟩ := h.built
  obtain ⟨rfl, B, log, rfl⟩ := EqualityBinding.create_eq_ok hcreate hset
  have hnamed : ∀ x ∈ left.parts, x.Named left.parts := fun y hy z hz =>
    h.named y (List.mem_append_left _ hy) z (List.mem_append_left _ hz)
  have hfits : s.Fits (left.parts ++ right.parts) := by
    refine Expr.setter?_within (Expr.fits_chains _) _ left (fun x hx => ?_) _ _ _ hset fun _ _ _ _ _ hr => by cases hr
    exact Expr.node_fits left hnamed (fun y hy => h.named y (List.mem_append_left _ hy)) hx
  obtain ⟨hfits, ⟨log', hcompiled⟩, hs⟩ :=
    observed_getter h.observed (List.subset_append_right _ _) h.named hfits B.hsource
  -- Before the binding observes its right side, it is followed as not armed.
  have hready := h.ready.registering h.observed hs h.target_tame h.types_tame
    { dispatcher := config.assignments, flags := .empty }
  have hfollows := Tracking.follows_withFuel
    (right.follow h.observed ⟨w₀.next⟩ hs h.target_tame h.types_tame w₀.next False) k
  obtain ⟨hwset, hstep⟩ := Tracking.setter?_step hfollows h.left_tame hnamed _ _ _ hset hready
  have hunchanged := hstep.resolve_left fun hs => hs.1
  have hwcompiled : (right.follow h.observed ⟨w₀.next⟩ hs h.target_tame h.types_tame w₀.next False).Watched
      B.compiled.world := Tracking.Calm.watched (by rw [hcompiled]; exact {}) hwset
  have hnew : ∀ b, B.compiled.world.equality? ⟨w₀.next⟩ = some b → b.dispatcher = none ∧ b.flags.isOneTime = false := by
    intro b hb
    have hbset : s.world.equality? ⟨w₀.next⟩ = some b := by
      rw [hcompiled] at hb
      exact hb
    obtain ⟨b₀, hb₀, hc⟩ := hunchanged.binding b hbset
    have hfind : (w₀.registering { dispatcher := config.assignments, flags := .empty }).equality? ⟨w₀.next⟩ =
        some { dispatcher := config.assignments, flags := .empty } :=
      World.equality?_eq_some.mpr ((World.find?_setBinding _ _ _ _).trans (if_pos rfl))
    cases hfind.symm.trans hb₀
    have hrecurring : Flags.empty.isOneTime = false := by decide
    exact ⟨hc.dispatcher.trans h.immediate, (congrArg Flags.isOneTime hc.flags).trans hrecurring⟩
  obtain ⟨hwstarted, v, hv, hstarted⟩ := Tracking.start_step hfollows (fun ha => ha) hwcompiled hnew B.hstart
  obtain ⟨hworld, -, hcollects⟩ :=
    Expr.triggers_collect (s := ⟨B.started, B.compiled.receivers⟩) rfl right h.observed
      (List.subset_append_right _ _) h.named hfits B.htriggers
  obtain ⟨hgains, hlist⟩ := Trigger.subscribeAll_gains hcollects.observes B.hsubscribe
  rw [hworld] at hgains hlist
  -- From the subscriptions on it is armed, and has the value that its setter was given.
  have hwatched := Tracking.subscribed_watched h.observed hs h.target_tame h.types_tame hwstarted (fun b hb => ?_)
    hgains (fun o slot n hr => ?_) B.subscriptions log
  · refine ⟨right.follow h.observed ⟨w₀.next⟩ hs h.target_tame h.types_tame w₀.next True, rfl, rfl, rfl, rfl, trivial,
      fun w v hv f => ?_, ?_, trivial, fun b hl => ?_⟩
    · exact hv f
    · exact hwatched
    · have hvset : right.eval (p.withFuel k) s.world = .ok v s.world := by
        refine (Agree.ok_right (Expr.eval_congr h.observed fun o slot n _ => ?_) (hv (Engine.perform p k))).2
        rw [hcompiled]
        rfl
      obtain ⟨v', hv', hsame⟩ := hkept v hvset
      refine ⟨v', fun f => (Agree.ok_right (Expr.eval_congr h.observed fun _ _ _ _ => rfl) hv').2, ?_⟩
      have hbind : (B.subscribed.equality? ⟨w₀.next⟩).map (fun b => { b with right := B.subscriptions }) = some b :=
        (World.equality?_updateEquality _ _ _).symm.trans hl.1
      obtain ⟨b₀, hb₀, rfl⟩ := Option.map_eq_some_iff.mp hbind
      rw [World.equality?_eq_some, hgains.bindings, ← World.equality?_eq_some] at hb₀
      rw [((hstarted b₀ hb₀).2.2 hl.2).1]
      exact hsame
  · obtain ⟨hdisp, hflags, hlive⟩ := hstarted b hb
    refine ⟨hdisp, hflags, fun hd => ?_⟩
    obtain ⟨hval, a, ha, htarget, hgiven⟩ := hlive hd
    exact ⟨a, ha, htarget, hgiven.trans hval.symm⟩
  · refine hcollects.listens (P := fun o n => ∃ g ∈ B.subscribed.handlersOf (.changed o), w₀.next ≤ g.id ∧
      g.response = .onProperty n (.follow ⟨w₀.next⟩ B.source target)) (fun t ht o n ho => ?_) hr
    obtain ⟨g, hg, hid, hresp⟩ := hlist t ht o n ho
    exact ⟨g, hg, Nat.le_trans hwstarted.numbered hid, hresp⟩

theorem one_way_tracks (h : Built p config left right target w₀ w₁ id) {acts : List Act}
    (hacts : ∀ a ∈ acts, a.Tame (right.watch p)) {fuel : Nat} {w₂ : World}
    (hrun : acts.forM (Act.run (p.withFuel fuel)) w₁ = .ok () w₂) {b : EqualityBinding}
    (hb : w₂.equality? id = some b) (hlive : b.disposed = false) :
    (∃ v, right.eval (p.withFuel fuel) w₂ = .ok v w₂ ∧ (v.Coherent → b.value.same v = true)) ∧
      ∃ a, w₂.assignment? id = some a ∧ a.target = target ∧ a.value = b.value := by
  obtain ⟨T, rfl, hwatch, rfl, rfl, harmed, hval, hwatched, hsynced⟩ := h.tracks
  have hstep : T.Step w₁ w₂ := by
    refine Tracking.within_forM (fun a ha => ?_) _ _ _ hrun
    exact Tracking.act_step (Tracking.follows_withFuel T fuel) (hwatch ▸ hacts a ha)
  obtain ⟨v, hv, hsame⟩ := (hstep.synced hwatched hsynced).2 b ⟨hb, hlive⟩
  refine ⟨⟨v, hval w₂ v hv _, fun hc => ?_⟩, ?_⟩
  · rcases hsame with rfl | hsame
    · exact Value.same_refl hc
    · exact hsame
  · exact ((hstep hwatched).1.attached harmed b ⟨hb, hlive⟩).given

end

/-! ## Gauges -/

namespace Gauges

def property (name : String) : MemberSpec :=
  ⟨name, .property, .int, false, some (.slot name), some (.slot name none true)⟩

def gauge : TypeInfo :=
  { name := "Gauge", notifies := true, members := [property "Shown", property "X", property "Y"] }

def platform : Platform := ⟨⟨[gauge]⟩, fun _ => "Model", none⟩

def host : Host := platform.withFuel 4

def g : ObjectRef := ⟨"g", ⟨5⟩, .model⟩

def member (i : Nat) (name : String) : Member := { property name with id := ⟨⟨5⟩, i⟩ }

def access (i : Nat) (name : String) : Expr := .member ⟨i⟩ (.constant (.object g) ⟨5⟩ none) (member i name)

def total : Expr := .binary .add (access 1 "X") (access 2 "Y") .int

/-- A gauge with a script that runs when this property changes. -/
def reacting (name : String) (acts : List Act) : World where
  objects := Table.empty.insert "g"
    { slots := (Table.empty.insert "X" (.integer 1)).insert "Y" (.integer 2), offersChanges := true }
  handlers := Table.empty.insert (.changed "g") [⟨0, .property, .onProperty name (.script acts)⟩]
  next := 1

def found (name : String) (acts : List Act) : Workbench where
  world := (reacting name acts).registering { dispatcher := none, flags := .empty }
  receivers := Table.empty.insert ⟨0⟩ (.shared (.object g))

def build (name : String) (acts : List Act) : EStateM.Result Stop World BindingId :=
  EqualityBinding.create host {} .empty (access 0 "Shown") total (reacting name acts)

def target : Setter := .write (.shared (.object g)) ⟨member 0 "Shown", false⟩

theorem eq_integer {v : Value} {i : Int64} (h : v.asInt? = some i) : v = .integer i := by
  cases v with
  | integer n =>
    cases h
    rfl
  | _ => cases h

theorem setter_found (name : String) (acts : List Act) :
    (access 0 "Shown").setter? host (some .empty)
      ⟨(reacting name acts).registering { dispatcher := none, flags := .empty }, .empty⟩ =
      .ok (some target) (found name acts) := rfl

theorem found_total (name : String) (acts : List Act) :
    total.eval host (found name acts).world = .ok (.integer 3) (found name acts).world := rfl

theorem total_parts : total.parts =
    [total, access 1 "X", .constant (.object g) ⟨5⟩ none, access 2 "Y", .constant (.object g) ⟨5⟩ none] := rfl

theorem access_property {i : Nat} {name : String} (h : (i, name) ∈ [(1, "X"), (2, "Y")]) :
    Property platform.types {} g (member i name) name := by
  simp only [List.mem_cons, Prod.mk.injEq, List.not_mem_nil, or_false] at h
  rcases h with ⟨rfl, rfl⟩ | ⟨rfl, rfl⟩
  all_goals
    refine ⟨rfl, rfl, rfl, rfl, ?_, rfl, .inl rfl, rfl⟩
    rintro m ⟨⟩
    rfl

theorem total_observed : ∀ x ∈ total.parts, x.Observed platform {} := by
  rw [total_parts]
  simp only [List.forall_mem_cons]
  refine ⟨trivial, ?_, trivial, ?_, trivial, fun _ h => by cases h⟩
  · exact ⟨g, ⟨5⟩, none, "X", rfl, access_property (by decide)⟩
  · exact ⟨g, ⟨5⟩, none, "Y", rfl, access_property (by decide)⟩

theorem total_reads (o slot n : String) :
    (total.watch platform).reads o slot n ↔ o = "g" ∧ (slot = "X" ∧ n = "X" ∨ slot = "Y" ∧ n = "Y") := by
  constructor
  · rintro ⟨x, hx, hr⟩
    rw [total_parts] at hx
    simp only [List.mem_cons, List.not_mem_nil, or_false] at hx
    rcases hx with rfl | rfl | rfl | rfl | rfl
    · cases hr
    · obtain ⟨rfl, hs, rfl⟩ := hr
      cases hs
      exact ⟨rfl, .inl ⟨rfl, rfl⟩⟩
    · cases hr
    · obtain ⟨rfl, hs, rfl⟩ := hr
      cases hs
      exact ⟨rfl, .inr ⟨rfl, rfl⟩⟩
    · cases hr
  · rintro ⟨rfl, ⟨rfl, rfl⟩ | ⟨rfl, rfl⟩⟩
    · exact ⟨access 1 "X", by simp [total_parts], rfl, rfl, rfl⟩
    · exact ⟨access 2 "Y", by simp [total_parts], rfl, rfl, rfl⟩

theorem named : ∀ x ∈ (access 0 "Shown").parts ++ total.parts, x.Named ((access 0 "Shown").parts ++ total.parts) := by
  have hparts : (access 0 "Shown").parts ++ total.parts =
      access 0 "Shown" :: .constant (.object g) ⟨5⟩ none :: total.parts := rfl
  have hnode : ∀ x ∈ (access 0 "Shown").parts ++ total.parts, ∀ n, x.node? = some n →
      x = if n.index = 0 then access 0 "Shown" else if n.index = 1 then access 1 "X" else access 2 "Y" := by
    rw [hparts, total_parts]
    simp only [List.forall_mem_cons]
    refine ⟨?_, ?_, ?_, ?_, ?_, ?_, ?_, fun _ h => by cases h⟩ <;>
      · intro n h
        cases h
        try rfl
  intro x hx y hy n hxn hyn
  rw [hnode x hx n hxn, hnode y hy n hyn]

theorem reacting_ready {name : String} {acts : List Act} (h : ∀ a ∈ acts, a.Tame (total.watch platform)) :
    (reacting name acts).Ready (total.watch platform) := by
  refine ⟨⟨fun k g hg => ?_, ?_, ?_, ?_⟩, ?_⟩
  unfold World.handlersOf at hg
  simp only [reacting, Table.find?_insert] at hg
  split at hg
  · cases List.mem_singleton.mp hg
    exact h
  · cases hg
  · rintro d ⟨⟩
  · rintro n g ⟨⟩
  · rintro j ⟨⟩
  · rintro b s ⟨⟩

theorem write_tame {name : String} (hn : name = "X" ∨ name = "Y") (v : Value) :
    (Act.write g name v).Tame (total.watch platform) := by
  unfold Act.Tame
  rcases hn with rfl | rfl
  · rintro m ⟨⟩ n -
    exact ⟨rfl, (total_reads _ _ _).mpr ⟨rfl, .inl ⟨rfl, rfl⟩⟩⟩
  · rintro m ⟨⟩ n -
    exact ⟨rfl, (total_reads _ _ _).mpr ⟨rfl, .inr ⟨rfl, rfl⟩⟩⟩

theorem total_eval {w : World} {i : Int64} (h : (result? (total.eval host w)).bind Value.asInt? = some i) :
    total.eval host w = .ok (.integer i) w := by
  have hquiet : Agree w w (total.eval host) (total.eval host) :=
    Expr.eval_congr (p := platform) total_observed fun _ _ _ _ => rfl
  cases hr : total.eval host w with
  | error e w' =>
    rw [hr] at h
    cases h
  | ok v w' =>
    rw [hr] at h
    obtain ⟨rfl, -⟩ := hquiet.ok_right hr
    rw [eq_integer h]

theorem shown_tame : (access 0 "Shown").Tame (total.watch platform) := by
  intro x hx
  simp only [access, Expr.parts, List.mem_cons, List.not_mem_nil, or_false] at hx
  rcases hx with rfl | rfl
  · rintro b ⟨⟩
  · trivial

theorem target_tame : target.Tame (total.watch platform) := by
  intro o ho n hr
  cases ho
  obtain ⟨-, ⟨hs, -⟩ | ⟨hs, -⟩⟩ := (total_reads _ _ _).mp hr
  · exact absurd hs (by decide)
  · exact absurd hs (by decide)

theorem built {name : String} {acts : List Act} (hacts : ∀ a ∈ acts, a.Tame (total.watch platform))
    (hb : result? (build name acts) = some ⟨1⟩)
    (hv : (result? (total.eval host (after (build name acts)))).bind Value.asInt? = some 3) :
    Built platform {} (access 0 "Shown") total target (reacting name acts) (after (build name acts)) ⟨1⟩ := by
  refine ⟨total_observed, rfl, named, shown_tame, target_tame, .of_plain (by decide), reacting_ready hacts, 4,
    found name acts, eq_ok_after hb, setter_found name acts, fun v hv' => ⟨.integer 3, total_eval hv, ?_⟩⟩
  cases (found_total name acts).symm.trans hv'
  exact .inl rfl

theorem counting_tame : ∀ a ∈ [Act.increment g "Y"], a.Tame (total.watch platform) := by
  intro a ha
  cases List.mem_singleton.mp ha
  exact write_tame (.inr rfl) .null

/-- Counting on in the middle of a write, a script changes the total twice. -/
theorem total_tracked :
    ∃ w b, [Act.write g "X" (.integer 7)].forM (Act.run host) (after (build "X" [.increment g "Y"])) = .ok () w ∧
      w.equality? ⟨1⟩ = some b ∧ b.value.asInt? = some 10 ∧
      (∃ v, total.eval host w = .ok v w ∧ (v.Coherent → b.value.same v = true)) ∧
      ∃ a, w.assignment? ⟨1⟩ = some a ∧ a.target = target ∧ a.value = b.value := by
  have hx : ∀ a ∈ [Act.write g "X" (.integer 7)], a.Tame (total.watch platform) := by
    intro a ha
    cases List.mem_singleton.mp ha
    exact write_tame (.inl rfl) _
  have hrun := eq_ok_after (x := [Act.write g "X" (.integer 7)].forM (Act.run host) (after (build "X" [.increment g "Y"])))
    (a := ()) (by decide +kernel)
  have hstate : ((after ([Act.write g "X" (.integer 7)].forM (Act.run host) (after (build "X" [.increment g "Y"])))).equality?
      ⟨1⟩).map (fun b => (b.disposed, b.value.asInt?)) = some (false, some 10) := by decide +kernel
  obtain ⟨b, hb, hmap⟩ := Option.map_eq_some_iff.mp hstate
  obtain ⟨hlive, hvalue⟩ := Prod.mk.inj hmap
  obtain ⟨hval, hgiven⟩ := one_way_tracks (built counting_tame (by decide +kernel) (by decide +kernel)) hx hrun hb hlive
  exact ⟨_, b, hrun, hb, hvalue, hval, hgiven⟩

/-- A script that counts on when the total is shown for the first time goes unnoticed. -/
theorem total_missed :
    (∀ x ∈ total.parts, x.Observed platform {}) ∧ (access 0 "Shown").Tame (total.watch platform) ∧
      target.Tame (total.watch platform) ∧ platform.types.Tame (total.watch platform) ∧
      (reacting "Shown" [.increment g "Y"]).Ready (total.watch platform) ∧
      ∃ w b, EqualityBinding.create host {} .empty (access 0 "Shown") total (reacting "Shown" [.increment g "Y"]) =
          .ok ⟨1⟩ w ∧
        w.equality? ⟨1⟩ = some b ∧ b.disposed = false ∧ total.eval host w = .ok (.integer 4) w ∧
        ¬ ∃ v, total.eval host w = .ok v w ∧ b.value.same v = true := by
  have hstate : ((after (build "Shown" [.increment g "Y"])).equality? ⟨1⟩).map
      (fun b => (b.disposed, b.value.asInt?)) = some (false, some 3) := by decide +kernel
  obtain ⟨b, hb, hmap⟩ := Option.map_eq_some_iff.mp hstate
  obtain ⟨hlive, hvalue⟩ := Prod.mk.inj hmap
  have heval : total.eval host (after (build "Shown" [.increment g "Y"])) =
      .ok (.integer 4) (after (build "Shown" [.increment g "Y"])) := total_eval (by decide +kernel)
  refine ⟨total_observed, shown_tame, target_tame, .of_plain (by decide), reacting_ready counting_tame, _, b,
    eq_ok_after (by decide +kernel), hb, hlive, heval, ?_⟩
  rintro ⟨v, hv, hsame⟩
  cases heval.symm.trans hv
  rw [eq_integer hvalue] at hsame
  exact absurd hsame (by decide)

end Gauges

end DataBinding
