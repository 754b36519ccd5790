import DataBinding.Proofs.Binding.Dispose
import DataBinding.Proofs.Tracking.Expr

/-!
# The engine around a followed binding

Performing tame actions takes steps however deep they nest (`follows_withFuel`). The binding's own reaction takes
the new value and hands it to the setter before anything else runs, so whatever the setter causes starts from a
binding that is up to date.
-/

namespace DataBinding

open Effect

variable {T : Tracking} {host : Host}

namespace Tracking

/-! ## Disposal -/

theorem setBinding_calm {w : World} {b : BindingId} {s : Binding}
    (hown : b = T.binding → ∀ b', s = .equality b' → b'.disposed = true ∧
      ∃ b₀, w.bindings.find? b = some (.equality b₀) ∧ b'.dispatcher = b₀.dispatcher ∧ b'.flags = b₀.flags)
    (hs : b ≠ T.binding → ∀ h ∈ s.handlers, h.id < T.first ∨ ∃ s₀, w.bindings.find? b = some s₀ ∧ h ∈ s₀.handlers) :
    T.Calm w (w.setBinding b s) where
  apart b' s' hb' hs' h hh := by
    rw [World.find?_setBinding] at hs'
    split at hs'
    · rename_i he
      cases hs'
      subst he
      exact hs hb' h hh
    · exact .inr ⟨s', hs', hh⟩
  unchanged.binding b' hb' := by
    rw [World.equality?_eq_some, World.find?_setBinding] at hb'
    by_cases hb : b = T.binding
    · rw [if_pos hb] at hb'
      obtain ⟨hd, b₀, hb₀, hdisp, hflags⟩ := hown hb b' (Option.some.inj hb')
      refine ⟨b₀, World.equality?_eq_some.mpr (hb ▸ hb₀), hdisp, hflags, fun hl => ?_⟩
      rw [hd] at hl
      cases hl
    · rw [if_neg hb] at hb'
      exact ⟨b', World.equality?_eq_some.mpr hb', {}⟩

theorem live_congr {w w' : World} (h : w'.bindings = w.bindings) (b : EqualityBinding) :
    T.Live w' b ↔ T.Live w b := by
  unfold Live
  rw [World.equality?_eq_some, World.equality?_eq_some, h]

def released (T : Tracking) (id : BindingId) (n : Nat) : Prop := id = T.binding ∨ n < T.first

theorem released_calm {id : BindingId} {w w' : World} (h : w.Loses (T.released id) w')
    (hd : id = T.binding → ∀ b, ¬ T.Live w b) : T.Calm w w' where
  handlers k g hg := .inl (h.removed k hg)
  kept b hb o g hg hid := by
    refine h.kept _ g hg fun hr => ?_
    rcases hr with rfl | hlt
    · exact hd rfl b ((live_congr h.bindings b).mp hb)
    · exact Nat.not_lt.mpr hid hlt
  direct := h.direct
  named := h.named
  jobs j hj := .inl (h.jobs ▸ hj)
  apart b s _ hs g hg := .inr ⟨s, h.bindings ▸ hs, hg⟩
  next := Nat.le_of_eq h.next.symm
  unchanged.reads _ o s n _ := by
    unfold World.slot World.object
    rw [h.objects]
  unchanged.given := by
    unfold World.assignment?
    rw [h.assignments]
  unchanged.binding b hb := by
    rw [World.equality?_eq_some, h.bindings, ← World.equality?_eq_some] at hb
    exact ⟨b, hb, {}⟩

theorem released_of_watched {w : World} (hw : T.Watched w) {id : BindingId} {s : Binding}
    (hs : w.bindings.find? id = some s) {h : Handler} (hh : h ∈ s.handlers) : T.released id h.id := by
  by_cases hid : id = T.binding
  · exact .inl hid
  · exact .inr (hw.apart id s hid hs h hh)

theorem not_live {w : World} {s : Binding} (h : w.bindings.find? T.binding = some s)
    (hs : ∀ b, s = .equality b → b.disposed = true) (b : EqualityBinding) : ¬ T.Live w b := by
  rintro ⟨he, hd⟩
  rw [World.equality?_eq_some, h] at he
  rw [hs b (Option.some.inj he)] at hd
  cases hd

theorem disposal_calm {w : World} {id : BindingId} {s : Binding} (hs : w.bindings.find? id = some s) :
    T.Calm w (w.setBinding id s.disposal) := by
  refine setBinding_calm (fun he b' hb' => ?_) fun _ g hg => ?_
  · cases s with
    | equality b =>
      cases hb'
      exact ⟨rfl, b, he ▸ hs, rfl, rfl⟩
    | _ => cases hb'
  · rw [Binding.handlers_disposal] at hg
    cases hg

theorem dispose_step (id : BindingId) : Within T.Step (host.dispose id) := by
  intro w u w' h hw
  have hc := step_chains T
  cases hs : w.bindings.find? id with
  | none =>
    cases (dispose_absent hs).symm.trans h
    exact hc.refl w hw
  | some s =>
    cases hd : s.isDisposed with
    | true =>
      cases (dispose_disposed hs hd).symm.trans h
      exact hc.refl w hw
    | false =>
      obtain ⟨w₁, hdispose, hloses⟩ := dispose_live host hs hd
      cases hdispose.symm.trans h
      have hreleased : (w.setBinding id s.disposal).Loses (T.released id) w' := by
        apply hloses.mono
        rintro n ⟨g, hg, rfl⟩
        exact released_of_watched hw hs hg
      have hcalm : T.Calm (w.setBinding id s.disposal) w' := by
        refine released_calm hreleased fun he => not_live ((World.find?_setBinding _ _ _ _).trans (if_pos he)) ?_
        intro b hb
        cases s <;> cases hb
        rfl
      exact hc.trans (disposal_calm hs).step hcalm.step hw

theorem disposeNamed_step (name : String) : Within T.Step (host.disposeNamed name) := by
  refine within_world fun w => ?_
  split
  · exact dispose_step _
  · exact within_return _

theorem dropNamed_step (name : String) : Within T.Step (host.dropNamed name) := by
  refine within_world fun w => ?_
  split
  · exact within_seq (within_modify fun _ => .of_same rfl (Nat.le_refl _)) fun _ => dispose_step _
  · exact within_return _

theorem updateEquality_calm {id : BindingId} (hid : id ≠ T.binding) {f : EqualityBinding → EqualityBinding}
    (hf : ∀ b, (f b).left = b.left ∧ (f b).right = b.right) (w : World) : T.Calm w (w.updateEquality id f) := by
  unfold World.updateEquality
  split
  · rename_i b hb
    refine setBinding_calm (fun he => absurd he hid) fun _ g hg => .inr ⟨.equality b, World.equality?_eq_some.mp hb, ?_⟩
    unfold Binding.handlers at hg ⊢
    simp only [(hf b).1, (hf b).2] at hg
    exact hg
  · exact .of_same rfl (Nat.le_refl _)

section
variable (h : T.Follows host)
include h

/-! ## Jobs -/

theorem job_step {j : Job} (hj : j.Tame T.toScope) : Within T.Step (j.run host) := by
  cases j with
  | assign a =>
    have hgiven : ∀ w : World, T.Calm w { w with assignments := a :: w.assignments } := fun w => {
      unchanged.given := by
        unfold World.assignment?
        rw [List.find?_cons_of_neg (by simp [hj.1])] }
    exact within_seq (within_modify hgiven) fun _ => setter_step h hj.2 _
  | call g => exact within_seq (getter_step h g hj) fun _ => within_return _

theorem dispatch_step {j : Job} (hj : j.Tame T.toScope) (d : Option Dispatcher) : Within T.Step (dispatch host d j) := by
  cases d with
  | none => exact job_step h hj
  | some d =>
    refine within_seq (within_tell _) fun _ => ?_
    cases d with
    | inline => exact job_step h hj
    | reported =>
      refine within_attempt (job_step h hj) (fun u => ?_) fun e w b w' he => ?_
      · exact within_seq (within_tell _) fun _ => within_except _
      · obtain ⟨u, w₁, -, hf⟩ := bind_eq_ok.mp he
        cases hf
    | discard => exact within_return _
    | defer =>
      refine within_modify fun w => { jobs := fun j' hj' => ?_ }
      rcases List.mem_append.mp hj' with hj' | hj'
      · exact .inl hj'
      · cases List.mem_singleton.mp hj'
        exact .inr hj
    | refuse => exact within_fail _

theorem flush_step (n : Nat) : Within T.Step (flush host n) := by
  induction n with
  | zero => exact within_return _
  | succ n ih =>
    refine within_watched fun w hw => ?_
    split
    · exact within_return _
    · rename_i j js hjobs
      have hj : ∀ j' ∈ j :: js, j'.Tame T.toScope := fun j' hj' => hw.jobs j' (hjobs ▸ hj')
      refine within_seq (within_modify fun w => { jobs := fun j' hj' => .inr (hj j' (List.mem_cons_of_mem _ hj')) })
        fun _ => ?_
      exact within_seq (job_step h (hj j List.mem_cons_self)) fun _ => ih

/-! ## Reactions -/

theorem assign_step {id : BindingId} (hid : id ≠ T.binding) {s : Setter} (hs : s.Tame T.toWatch) (v : Value) :
    Within T.Step (EqualityBinding.assign host id s v) := by
  refine within_world fun w => ?_
  split
  · exact within_return _
  · refine within_seq (dispatch_step h (j := .assign ⟨id, s, v⟩) ⟨hid, hs⟩ _) fun _ => ?_
    split
    · exact dispose_step _
    · exact within_return _

theorem follow_step {id : BindingId} (hid : id ≠ T.binding) {g : Getter} {s : Setter} (hg : g.Tame T.toWatch)
    (hs : s.Tame T.toWatch) : Within T.Step (EqualityBinding.follow host id g s) := by
  refine within_world fun w => ?_
  split
  · exact within_return _
  · split
    · exact within_return _
    · refine within_seq (getter_step h g hg) fun v => within_world fun w => ?_
      split
      · exact within_return _
      · split
        · exact within_return _
        · refine within_seq (within_modify (updateEquality_calm hid fun b => ⟨rfl, rfl⟩)) fun _ => ?_
          exact assign_step h hid hs v

theorem rerun_step (id : BindingId) {g : Getter} (hg : g.Tame T.toWatch) :
    Within T.Step (ActionBinding.rerun host id g) := by
  refine within_world fun w => ?_
  split
  · exact within_return _
  · split
    · exact within_return _
    · refine within_seq (dispatch_step h (j := .call g) hg _) fun _ => ?_
      split
      · exact dispose_step _
      · exact within_return _

/-- Once the new value is kept and recorded as given, the binding is up to date. -/
theorem carry_own (ha : T.armed) {w w' : World} {b : EqualityBinding} {v : Value} {u : Unit} (hw : T.Watched w)
    (hb : T.Live w b) (hv : T.value w v)
    (hf : EqualityBinding.assign host T.binding T.target v
      (w.updateEquality T.binding fun b => { b with value := v }) = .ok u w') : T.Watched w' ∧ T.Synced w' := by
  have hatt := hw.attached ha b hb
  rw [EqualityBinding.assign_carried hb.1 hatt.immediate hatt.recurring] at hf
  have hlive : ∀ b', T.Live (w.carried T.binding b T.target v) b' → b' = { b with value := v } := fun b' hl =>
    Option.some.inj (hl.1.symm.trans (World.equality?_carried w T.binding b T.target v))
  have hwatched : T.Watched (w.carried T.binding b T.target v) := by
    refine hw.of_frame rfl rfl rfl rfl rfl (fun id hne => ?_) fun _ b' hl => ?_
    · exact (World.find?_setBinding _ _ _ _).trans (if_neg (Ne.symm hne))
    · rw [hlive b' hl]
      exact ⟨hatt.immediate, hatt.recurring, ⟨_, World.assignment?_carried w T.binding b T.target v, rfl, rfl⟩,
        hatt.listens⟩
  have hsynced : T.Synced (w.carried T.binding b T.target v) :=
    ⟨ha, fun b' hl => ⟨v, T.value_congr w _ v (fun _ _ _ _ => rfl) hv, .inl (by rw [hlive b' hl])⟩⟩
  have hstep := setter_step h T.target_tame v _ _ _ hf
  exact ⟨(hstep hwatched).1, hstep.synced hwatched hsynced⟩

/-- The binding carries the new value over: it is up to date before its setter runs, and stays so. -/
theorem follow_own (ha : T.armed) {w w' : World} {u : Unit} (hw : T.Watched w)
    (hf : EqualityBinding.follow host T.binding T.source T.target w = .ok u w') : T.Watched w' ∧ T.Synced w' := by
  obtain ⟨_, _, hg, hf⟩ := bind_eq_ok.mp hf
  cases hg
  cases hb : w.equality? T.binding with
  | none =>
    rw [hb] at hf
    cases hf
    exact ⟨hw, synced_of_not_live ha fun b hl => by rw [hl.1] at hb; cases hb⟩
  | some b =>
    rw [hb] at hf
    cases hd : b.disposed with
    | true =>
      simp only [hd, if_true] at hf
      cases hf
      refine ⟨hw, synced_of_not_live ha fun b' hl => ?_⟩
      have he := hl.1.symm.trans hb
      cases he
      rw [hl.2] at hd
      cases hd
    | false =>
      simp only [hd, Bool.false_eq_true, if_false] at hf
      obtain ⟨v, w₁, hv, hrest⟩ := bind_eq_ok.mp hf
      obtain ⟨hw₁, hval⟩ := T.source_value host w v w₁ h.platform hv
      subst hw₁
      obtain ⟨_, _, hg, hcarry⟩ := bind_eq_ok.mp hrest
      cases hg
      simp only [hb] at hcarry
      by_cases hsame : b.value.same v = true
      · rw [if_pos hsame] at hcarry
        cases hcarry
        -- Nothing is written, and the cached value is as good as the new one.
        refine ⟨hw, ha, fun b' hl => ⟨v, hval, .inr ?_⟩⟩
        have he := hl.1.symm.trans hb
        cases he
        exact hsame
      · rw [if_neg hsame] at hcarry
        obtain ⟨u₁, w₂, hmod, hassign⟩ := bind_eq_ok.mp hcarry
        cases modify_eq_ok.mp hmod
        exact carry_own h ha hw ⟨hb, hd⟩ hval hassign

/-! ## Actions -/

theorem readNamed_step (o : ObjectRef) (name : String) : Within T.Step (host.readNamed o name) := by
  intro w v w' hx
  obtain ⟨m, w₁, hget, hread⟩ := bind_eq_ok.mp hx
  obtain ⟨hm, rfl⟩ := Effect.ofExcept_eq_ok.mp hget
  obtain ⟨-, a, -, -, ha, -⟩ := TypeTable.member?_eq_some (TypeTable.requireMember_eq_ok.mp hm)
  have htame := (host_types_tame h).members a m (TypeTable.mem_of_declaredMember? ha).1
  exact Member.read_step h htame _ w v w' hread

theorem writeNamed_step {o : ObjectRef} {name : String}
    (ho : ∀ m, T.platform.types.member? o.type name = some m → m.Tells T.toWatch o.name) (v : Value) :
    Within T.Step (host.writeNamed o name v) := by
  intro w u w' hx
  obtain ⟨m, w₁, hget, hwrite⟩ := bind_eq_ok.mp hx
  obtain ⟨hm, rfl⟩ := Effect.ofExcept_eq_ok.mp hget
  have hfound := TypeTable.requireMember_eq_ok.mp hm
  rw [h.platform] at hfound
  refine within_seq (Member.write_step h (fun o' he => ?_) v) (fun _ => within_return _) w u w' hwrite
  cases he
  exact ho m hfound

omit h in
/-- Properties do not change what listens to free events. -/
theorem setHandlers_calm {w : World} {event : String} {hs : List Handler}
    (hsub : ∀ g ∈ hs, g ∈ w.handlersOf (.free event) ∨ g.Tame T.toScope) : T.Calm w (w.setHandlers (.free event) hs) where
  handlers k g hg := by
    rw [World.handlersOf_setHandlers] at hg
    split at hg
    · rename_i hk
      exact hk ▸ hsub g hg
    · exact .inl hg
  kept b _ o g hg _ := by
    rw [World.handlersOf_setHandlers, if_neg nofun]
    exact hg

omit h in
theorem addNamedHandler_step (event handler : String) : Within T.Step (addNamedHandler event handler) := by
  refine within_watched fun w hw => ?_
  split
  · rename_i g hg
    refine within_seq (within_modify fun _ => .of_same rfl (Nat.le_refl _)) fun _ => ?_
    refine within_modify fun w => setHandlers_calm fun g' hg' => ?_
    rcases List.mem_append.mp hg' with hg' | hg'
    · exact .inl hg'
    · cases List.mem_singleton.mp hg'
      exact .inr (hw.named _ g hg)
  · exact within_return _

omit h in
theorem removeNamedHandler_step (event handler : String) : Within T.Step (removeNamedHandler event handler) := by
  refine within_world fun w => ?_
  split
  · refine within_seq (within_modify fun _ => .of_same rfl (Nat.le_refl _)) fun _ => within_watched fun w hw => ?_
    split
    · rename_i hs hr
      obtain ⟨pre, g₀, post, hlist, -, -, rfl⟩ := (HandlerList.removeLatest?_eq_some_iff _ _ _).mp hr
      refine within_seq (within_modify fun w => setHandlers_calm fun g hg => .inr ?_) fun _ => within_return _
      refine hw.handlers (.free event) g ?_
      rw [hlist]
      rcases List.mem_append.mp hg with hg | hg
      · exact List.mem_append_left _ hg
      · exact List.mem_append_right _ (List.mem_cons_of_mem _ hg)
    · exact within_return _
  · exact within_return _

theorem act_step {a : Act} (ha : a.Tame T.toWatch) : Within T.Step (a.run host) := by
  cases a with
  | log text => exact within_tell _
  | fail message => exact within_fail _
  | write o name v => exact writeNamed_step h ha v
  | poke o slot v => exact within_modify fun w => setSlot_calm ha w v
  | increment o name => exact within_seq (readNamed_step h o name) fun v => writeNamed_step h ha _
  | copy source sourceName target targetName =>
    exact within_seq (readNamed_step h source sourceName) fun v => writeNamed_step h ha v
  | notify o property => exact notify_step h o property
  | raise o e => exact raiseNamed_step h o e
  | dispose name => exact disposeNamed_step name
  | drop name => exact dropNamed_step name
  | addHandler event handler => exact addNamedHandler_step event handler
  | removeHandler event handler => exact within_seq (removeNamedHandler_step event handler) fun r => within_tell _
  | raiseFree event i => exact raise_step h _ _
  | flush => exact flush_step h _
  | fire tag => exact fire_step h tag

theorem tryExecute_step {c : Command} (hc : ∀ a ∈ c.acts, a.Tame T.toWatch) (parameter : Value) :
    Within T.Step (c.tryExecute host parameter) := by
  have hcan : Within T.Step (c.canExecute host parameter) := by
    unfold Command.canExecute
    split
    · exact within_return _
    · refine within_seq (within_tell _) fun _ => ?_
      split
      · exact within_return _
      · exact within_return _
      · exact within_world fun _ => within_return _
      · exact within_return _
  have hexec : Within T.Step (c.execute host parameter) := within_seq (within_tell _) fun _ => run_step h hc
  refine within_seq hcan fun allowed => ?_
  cases allowed with
  | true => exact within_seq hexec fun _ => within_return _
  | false => exact within_return _

theorem action_step {a : Action} (ha : a.Tame T.toScope) : Within T.Step (a.step host) := by
  cases a with
  | script acts => exact within_forM fun a hm => act_step h (ha a hm)
  | follow id g s =>
    rcases ha with ⟨hid, hg, hs⟩ | ⟨rfl, hown⟩
    · exact follow_step h hid hg hs
    · obtain ⟨harmed, rfl, rfl⟩ := (T.own_iff g s).mp hown
      intro w u w' hf hw
      obtain ⟨hw', hs'⟩ := follow_own h harmed hw hf
      exact ⟨hw', .inl hs'⟩
  | rerun id g => exact rerun_step h id ha
  | once id inner => exact within_seq (h.perform inner ha) fun _ => dispose_step _
  | command c => exact within_seq (tryExecute_step h ha _) fun _ => within_return _

end

theorem follows_withFuel (T : Tracking) (fuel : Nat) : T.Follows (T.platform.withFuel fuel) := by
  induction fuel with
  | zero =>
    refine ⟨rfl, fun a _ w u w' h => ?_, fun _ w w' _ h => ?_⟩
    · cases h
    · cases h
  | succ n ih =>
    refine ⟨rfl, fun a ha => action_step ih ha, fun harmed w w' hw hf => ?_⟩
    exact (follow_own ih harmed hw hf).2

end Tracking

end DataBinding
