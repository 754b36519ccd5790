import DataBinding.Proofs.Subscription.Stake

/-!
# What a new action binding observes

While an action binding is made, the accesses of its call are visited one after the other (`ActionBinding.Observes`). Each
that has a source of change gives one trigger, and the handlers of the triggers are the stake of the binding
(`create_stakes`). So the binding has as many handlers for a property of an object as there are accesses that watch it
(`countP_answers`).
-/

namespace DataBinding

open Effect Compile

namespace ActionBinding

def start (host : Host) (config : Configuration) (flags : Flags) (e : Expr) : Compile Getter := do
  let g ← e.getterOrFallback host
  if flags.hasInitialTrigger then dispatch host config.actions (.call g)
  return g

/-- In the making of the binding, its accesses have been seen in these worlds and have these receivers now. -/
def Observes (host : Host) (config : Configuration) (flags : Flags) (e : Expr) (w : World) (g : Getter)
    (seen : List (Expr × World)) (rs : Receivers) : Prop :=
  ∃ s s', start host config flags e ⟨w.birth (.action { dispatcher := config.actions, flags }), .empty⟩ = .ok g s ∧
    Expr.Visits host config s seen s' ∧ seen.map Prod.fst = e.accesses ∧ rs = s'.receivers

variable {host : Host} {config : Configuration} {flags : Flags} {e : Expr} {id : BindingId}

theorem take_eq_ok {s s' : Workbench} {g : Getter} {us : List Trigger} {u : Unit} (h : take host id g us s = .ok u s') :
    ∃ ts w, Trigger.subscribeAll host (.rerun id g) us s.world = .ok ts w ∧
      s'.world = w.updateAction id fun b => { b with triggers := ts } := by
  obtain ⟨ts, s₁, hlift, h⟩ := bind_eq_ok.mp h
  obtain ⟨w, hsub, rfl⟩ := lift_eq_ok.mp hlift
  cases modify_eq_ok.mp h
  exact ⟨ts, w, hsub, rfl⟩

theorem observe_eq_ok {s s' : Workbench} {g : Getter} {u : Unit} (h : observe host config id e g s = .ok u s') :
    ∃ us s₁ w₁ ts w, e.triggers host config s = .ok us s₁ ∧ s₁.world.Logs w₁ ∧
      Trigger.subscribeAll host (.rerun id g) us w₁ = .ok ts w ∧
      s'.world = w.updateAction id fun b => { b with triggers := ts } := by
  obtain ⟨us, s₁, htriggers, h⟩ := bind_eq_ok.mp h
  by_cases hempty : us.isEmpty = true
  · simp only [hempty, if_true] at h
    obtain ⟨_, s₂, hwarn, h⟩ := bind_eq_ok.mp h
    obtain ⟨w₁, htell, rfl⟩ := lift_eq_ok.mp hwarn
    cases htell
    obtain ⟨ts, w, hsub, hw⟩ := take_eq_ok h
    exact ⟨us, s₁, _, ts, w, htriggers, ⟨_, rfl⟩, hsub, hw⟩
  · simp only [hempty] at h
    obtain ⟨ts, w, hsub, hw⟩ := take_eq_ok h
    exact ⟨us, s₁, _, ts, w, htriggers, logs_chains.refl _, hsub, hw⟩

theorem bindCall_eq_ok {s s' : Workbench} {u : Unit} (hone : flags.isOneTime = false)
    (h : bindCall host config id flags e s = .ok u s') :
    ∃ g s₁, start host config flags e s = .ok g s₁ ∧ observe host config id e g s₁ = .ok u s' := by
  obtain ⟨g, s₁, hgetter, h⟩ := bind_eq_ok.mp h
  by_cases hinitial : flags.hasInitialTrigger = true
  · simp only [hinitial, if_true] at h
    obtain ⟨_, s₂, hdispatch, h⟩ := bind_eq_ok.mp h
    simp only [hone] at h
    refine ⟨g, s₂, (bind_of_ok hgetter).trans ?_, h⟩
    simp only [hinitial, if_true]
    exact (bind_of_ok hdispatch).trans rfl
  · simp only [hinitial] at h
    refine ⟨g, s₁, (bind_of_ok hgetter).trans ?_, h⟩
    simp only [hinitial]
    rfl

/-- The making of a binding: the first call, the triggers, and the handlers that the binding takes. -/
theorem create_eq_ok {w w' : World} (hone : flags.isOneTime = false) (h : create host config flags e w = .ok id w') :
    id = ⟨w.next⟩ ∧ ∃ g s us s' w₁ ts w₂,
      start host config flags e ⟨w.birth (.action { dispatcher := config.actions, flags }), .empty⟩ = .ok g s ∧
        e.triggers host config s = .ok us s' ∧ s'.world.Logs w₁ ∧
        Trigger.subscribeAll host (.rerun ⟨w.next⟩ g) us w₁ = .ok ts w₂ ∧
        w' = w₂.updateAction ⟨w.next⟩ fun b => { b with triggers := ts } := by
  rw [create_eq_building] at h
  obtain ⟨rfl, s, hcall, rfl⟩ := building_eq_ok h
  obtain ⟨g, s₁, hstart, hobserve⟩ := bindCall_eq_ok hone hcall
  obtain ⟨us, s₂, w₃, ts, w₄, htriggers, hlogs, hsub, hworld⟩ := observe_eq_ok hobserve
  exact ⟨rfl, g, s₁, us, s₂, w₃, ts, w₄, hstart, htriggers, hlogs, hsub, hworld⟩

theorem start_lasts {R : World → World → Prop} (h : host.Lasting R) : Lasts (OnWorld R) (start host config flags e) := by
  have hc := onWorld_chains h.chains
  refine always_bind hc (Expr.getterOrFallback_lasts h.chains h.stores e fun x _ => h.part x) fun g => ?_
  split
  · exact always_bind hc (lasts_lift (h.dispatch _ _)) fun _ => always_pure hc _
  · exact always_pure hc _

end ActionBinding

/-! ## The stake of a new binding -/

theorem World.Numbered.staked {w : World} (h : w.Numbered) (id : BindingId) (b : ActionBinding) : w.Staked 0 id b where
  toNumbered := h
  next := Nat.zero_le _
  found hid := absurd hid (Nat.not_lt_zero _)
  stake hid := absurd hid (Nat.not_lt_zero _)

theorem birth_staked {w : World} {b : ActionBinding} (h : w.Numbered) (hb : b.triggers = []) :
    (w.birth (.action b)).Staked (w.next + 1) ⟨w.next⟩ b where
  toNumbered := by
    have hnext : ({ w with next := w.next + 1 } : World).Staked 0 ⟨w.next⟩ b :=
      (h.staked ⟨w.next⟩ b).same rfl (Nat.le_succ _) rfl fun _ => rfl
    have hnone : (Binding.action b).handlers = [] := by rw [Binding.handlers, hb, List.filterMap_nil]
    apply (hnext.setBinding (Nat.lt_succ_self _) _ _ _).toNumbered
    · rw [hnone]
      exact List.forall_mem_nil _
    · exact fun hid => absurd hid (Nat.not_lt_zero _)
    · exact fun hid => absurd hid (Nat.not_lt_zero _)
  next := Nat.le_refl _
  found _ := ⟨b, (World.find?_setBinding ..).trans (if_pos rfl)⟩
  stake _ _ := by
    have hnone (n : Nat) : ¬ (Binding.action b).Owns n := by
      rintro ⟨g, hg, -⟩
      rw [Binding.handlers, hb] at hg
      cases hg
    refine ⟨(World.find?_setBinding ..).trans (if_pos rfl), fun k => ?_, fun n hn => absurd hn (hnone n),
      fun _ g _ => hnone g.id, fun _ _ _ _ n _ => hnone n⟩
    rw [hb, show heldAt k [] = [] from rfl, List.filter_eq_nil_iff]
    intro g hg hreacts
    exact Nat.lt_irrefl _ (h.listed k g hg ⟨w.next⟩ hreacts)

section
variable {p : Platform} {f : Action → Effect Unit} {w w' : World} {id : BindingId} {g : Getter} {ts : List Trigger}

theorem ChangeSource.reactsFor_response {s : ChangeSource} {h : Handler} (hh : h.response = s.response (.rerun id g)) :
    h.reactsFor id = true := by
  unfold Handler.reactsFor
  rw [hh]
  cases s <;> exact decide_eq_true rfl

theorem World.Staked.takeCall {m : Nat} {b : ActionBinding} (h : w.Staked m id b) (hid : id.index < m) (hb : b.triggers = [])
    (ha : World.Attaches p (.rerun id g) ts w w') :
    (w'.updateAction id fun b => { b with triggers := ts }).Staked w'.next id { b with triggers := ts } := by
  obtain ⟨b', hb'⟩ := h.found hid
  have hfound : w'.bindings.find? id = some (.action b') := by rw [ha.bindings, hb']
  rw [updateAction_found hfound]
  have htaken : (w'.setBinding id (.action { b' with triggers := ts })).bindings.find? id =
      some (.action { b' with triggers := ts }) := (World.find?_setBinding ..).trans (if_pos rfl)
  have hnumbered : (w'.setBinding id (.action { b' with triggers := ts })).Numbered := by
    have htake := (h.toNumbered.staked id b).take (s := .action { b' with triggers := ts }) ha (fun _ hy => hy)
      (Nat.lt_of_lt_of_le hid h.next) (fun h0 => absurd h0 (Nat.not_lt_zero _)) fun g' hg' => .inl hg'
    exact htake.toNumbered
  refine ⟨hnumbered, Nat.le_refl _, fun _ => ⟨_, htaken⟩, fun _ hlive => ?_⟩
  obtain ⟨b'', hb'', hdisposed⟩ := hlive
  cases hb''.symm.trans htaken
  obtain ⟨hsame, hholds⟩ := h.stake hid ⟨b', hb', hdisposed⟩
  cases hb'.symm.trans hsame
  have hfresh {n : Nat} (hn : (Binding.action { b with triggers := ts }).Owns n) : w.next ≤ n ∧ n < w'.next := by
    obtain ⟨g', hg', rfl⟩ := hn
    exact ha.fresh g' hg'
  refine ⟨htaken, fun k => ?_, fun n hn => (hfresh hn).2, fun name g' hg' hn => ?_, fun x s hx hs n hn hown => ?_⟩
  · have hbefore : (w.handlersOf k).filter (·.reactsFor id) = [] := by
      rw [hholds.lists k, hb]
      rfl
    have hafter : (heldAt k ts).filter (·.reactsFor id) = heldAt k ts := by
      rw [List.filter_eq_self]
      intro g' hg'
      obtain ⟨t, ht, -, hg'⟩ := mem_heldAt.mp hg'
      exact ChangeSource.reactsFor_response (ha.made t ht g' hg')
    show (w'.handlersOf k).filter (·.reactsFor id) = heldAt k ts
    rw [ha.lists, List.filter_append, hbefore, hafter, List.nil_append]
  · replace hg' : w'.namedHandlers.find? name = some g' := hg'
    rw [ha.namedHandlers] at hg'
    exact Nat.not_lt.mpr (hfresh hn).1 (h.named name g' hg').1
  · rw [World.find?_setBinding, if_neg (Ne.symm hx), ha.bindings] at hs
    obtain ⟨g', hg', rfl⟩ := hn
    exact Nat.not_lt.mpr (hfresh hown).1 ((h.bound x s hs).2 g' hg')

variable {config : Configuration} {flags : Flags} {e : Expr}

/-- Once an action binding is made, its stake is a handler for each trigger of the accesses that were visited. -/
theorem create_stakes (hl : ∀ m id b, Host.Lasting ⟨p, f⟩ (World.Stakes m id b)) (hw : w.Numbered)
    (hone : flags.isOneTime = false) (h : ActionBinding.create ⟨p, f⟩ config flags e w = .ok id w') :
    id.index < w'.next ∧ ∃ g seen rs ts, ActionBinding.Observes ⟨p, f⟩ config flags e w g seen rs ∧
      ts.map Trigger.detached = Expr.triggersOf p.types config rs seen ∧
      (∀ t ∈ ts, ∃ h, t.handler = some h ∧ h.response = t.source.response (.rerun id g)) ∧
      w'.Staked w'.next id { dispatcher := config.actions, flags, triggers := ts } := by
  obtain ⟨rfl, g, s, us, s', w₁, ts, w₂, hstart, htriggers, ⟨log, rfl⟩, hsub, rfl⟩ := ActionBinding.create_eq_ok hone h
  have hlasting := hl (w.next + 1) ⟨w.next⟩ { dispatcher := config.actions, flags }
  have hbirth : (w.birth (.action { dispatcher := config.actions, flags })).Staked (w.next + 1) ⟨w.next⟩
      { dispatcher := config.actions, flags } := birth_staked hw rfl
  obtain ⟨h₁, -⟩ := (ActionBinding.start_lasts hlasting).ok _ _ _ hstart hbirth
  obtain ⟨h₂, -⟩ := (Expr.triggers_lasts hlasting.chains hlasting.stores e fun x _ => hlasting.part x).ok _ _ _ htriggers h₁
  have hid : w.next < w.next + 1 := Nat.lt_succ_self _
  have h₃ : ({ s'.world with log := log } : World).Staked (w.next + 1) ⟨w.next⟩ { dispatcher := config.actions, flags } :=
    h₂.same rfl (Nat.le_refl _) rfl fun _ => rfl
  obtain ⟨ha, hdetached⟩ := Trigger.subscribeAll_ok (Expr.triggers_unsubscribed htriggers) hsub
  have hnext : (w₂.updateAction ⟨w.next⟩ fun b => { b with triggers := ts }).next = w₂.next := by
    obtain ⟨b', hb'⟩ := h₃.found hid
    rw [updateAction_found (ha.bindings ▸ hb')]
    rfl
  rw [Expr.triggers_eq] at htriggers
  obtain ⟨seen, hseen, haccesses, rfl⟩ := Expr.collected_iff.mp htriggers
  rw [hnext]
  refine ⟨?_, g, seen, s'.receivers, ts, ⟨s, s', hstart, hseen, haccesses, rfl⟩, hdetached, fun t ht => ?_, ?_⟩
  · exact Nat.lt_of_lt_of_le hid (Nat.le_trans h₃.next ha.next)
  · obtain ⟨h', hh', -⟩ := ha.ready t ht
    exact ⟨h', hh', ha.made t ht h' hh'⟩
  · exact h₃.takeCall hid rfl ha

end

/-! ## Counting -/

/-- The member has this name and is observed, and its receiver is this object. -/
def Expr.watches (types : TypeTable) (config : Configuration) (rs : Receivers) (o prop : String) (v : Expr × World) : Bool :=
  v.1.member?.any fun m =>
    m.name = prop && match v.1.subject? rs v.2 m with
      | some (.value (.object r)) => r.name = o && (config.memberSource? types m (some r.type)).isSome
      | _ => false

def Handler.answers (prop : String) (h : Handler) : Bool :=
  match h.response with
  | .onProperty name _ => name = prop
  | _ => false

def Trigger.awaits (o prop : String) (t : Trigger) : Bool :=
  match t.source, t.target with
  | .property name, .value (.object r) => name = prop && r.name = o
  | _, _ => false

/-- A member without a registered source is observed by its notifications, if at all. -/
theorem memberSource?_implicit {types : TypeTable} {config : Configuration} {m : Member} {receiver : Option TypeId}
    {s : ChangeSource} (hm : config.memberSources.find? m.id = none)
    (h : config.memberSource? types m receiver = some s) : s = .property m.name := by
  unfold Configuration.memberSource? at h
  rw [hm] at h
  simp only at h
  split at h
  · cases h
  · split at h
    · exact (Option.some.inj h).symm
    · cases h

theorem place?_eq_changed {s : ChangeSource} {target : Target} {o : String} (h : s.place? target = some (.changed o)) :
    ∃ name r, s = .property name ∧ target = .value (.object r) ∧ r.name = o := by
  unfold ChangeSource.place? at h
  split at h <;> cases h
  exact ⟨_, _, rfl, rfl, rfl⟩

/-- Each trigger that waits for a property of the object has a handler in its event that answers to the property. -/
theorem countP_answers {id : BindingId} {g : Getter} {ts : List Trigger} (o prop : String)
    (hts : ∀ t ∈ ts, ∃ h, t.handler = some h ∧ h.response = t.source.response (.rerun id g)) :
    (heldAt (.changed o) ts).countP (Handler.answers prop) = ts.countP (Trigger.awaits o prop) := by
  unfold heldAt
  rw [List.countP_filterMap]
  apply List.countP_congr
  intro t ht
  obtain ⟨h, hh, hresponse⟩ := hts t ht
  obtain ⟨target, source, label, handler⟩ := t
  cases hh
  unfold Trigger.handlerAt Trigger.place? Trigger.awaits
  by_cases hplace : source.place? target = some (.changed o)
  · obtain ⟨name, r, rfl, rfl, rfl⟩ := place?_eq_changed hplace
    simp [hplace, Handler.answers, hresponse, ChangeSource.response]
  · simp only [hplace, if_false, Option.map_none, Option.getD_none]
    split
    · rename_i name r
      have hother : r.name ≠ o := fun ho => hplace (congrArg (fun o => some (EventKey.changed o)) ho)
      simp [hother]
    · rfl

theorem countP_awaits {types : TypeTable} {config : Configuration} {rs : Receivers} {seen : List (Expr × World)}
    {ts : List Trigger} (o prop : String) (hts : ts.map Trigger.detached = Expr.triggersOf types config rs seen)
    (himplicit : ∀ v ∈ seen, ∀ m ∈ v.1.member?, config.memberSources.find? m.id = none) :
    ts.countP (Trigger.awaits o prop) = seen.countP (Expr.watches types config rs o prop) := by
  have hdetached : ts.countP (Trigger.awaits o prop) = (ts.map Trigger.detached).countP (Trigger.awaits o prop) :=
    by
    rw [List.countP_map]
    rfl
  rw [hdetached, hts]
  unfold Expr.triggersOf
  rw [List.countP_filterMap]
  apply List.countP_congr
  intro v hv
  obtain ⟨x, w⟩ := v
  unfold Expr.trigger? Expr.watches
  -- Wherever an access comes to no trigger, it is not watched either.
  cases hm : x.member? with
  | none => simp
  | some m =>
    cases hsubject : x.subject? rs w m with
    | none => simp [hsubject]
    | some subject =>
      cases hsource : config.memberSource? types m subject.type? with
      | none =>
        cases subject with
        | type t => simp [hsubject, hsource]
        | value v =>
          cases v with
          | object r =>
            replace hsource : config.memberSource? types m (some r.type) = none := hsource
            simp [hsubject, hsource, Target.type?, Value.type?]
          | _ => simp [hsubject, hsource]
      | some source =>
        cases memberSource?_implicit (himplicit _ hv m hm) hsource
        cases subject with
        | type t => simp [hsubject, hsource, Trigger.awaits]
        | value v =>
          cases v with
          | object r =>
            replace hsource : config.memberSource? types m (some r.type) = some (.property m.name) := hsource
            simp [hsubject, hsource, Target.type?, Value.type?, Trigger.awaits]
          | _ => simp [hsubject, hsource, Trigger.awaits]

end DataBinding
