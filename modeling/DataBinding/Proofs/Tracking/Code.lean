import DataBinding.Proofs.Tracking.Step

/-!
# Host code around a followed binding

If performing tame actions takes steps (`Follows`), then so does everything that host code does with them: raises,
bodies, members, expressions, compiled forms and jobs. A raise that tells about a watched slot leaves the binding
with the value of its source (`raise_synced`), because the handlers that it calls include the binding's own.
-/

namespace DataBinding

open Effect

namespace Tracking

/-- Performing a tame action takes a step, and performing the binding's own one brings it up to date. -/
structure Follows (T : Tracking) (host : Host) : Prop where
  platform : host.toPlatform = T.platform
  perform : ∀ a, a.Tame T.toScope → Within T.Step (host.perform a)
  follow : T.armed → ∀ w w', T.Watched w →
    host.perform (.follow T.binding T.source T.target) w = .ok () w' → T.Synced w'

variable {T : Tracking} {host : Host}

theorem within_watched {α : Type} {f : World → Effect α} (h : ∀ w, T.Watched w → Within T.Step (f w)) :
    Within T.Step (get >>= f) := by
  intro w a w' hx hw
  exact h w hw w a w' hx hw

section
variable (h : T.Follows host)
include h

/-! ## Raises -/

theorem run_step {acts : List Act} (ha : ∀ a ∈ acts, a.Tame T.toWatch) : Within T.Step (host.run acts) := by
  unfold Host.run
  split
  · exact within_return _
  · exact h.perform _ ha

theorem respond_step {g : Handler} (hg : g.Tame T.toScope) (args : EventArgs) : Within T.Step (g.respond host args) := by
  unfold Handler.Tame at hg
  unfold Handler.respond
  split <;> rename_i hr <;> rw [hr] at hg
  · exact h.perform _ hg
  · split
    · exact h.perform _ hg
    · exact within_return _
  · exact within_seq (within_tell _) fun _ => run_step h hg

theorem respondAll_step {hs : List Handler} (hg : ∀ g ∈ hs, g.Tame T.toScope) (args : EventArgs) :
    Within T.Step (respondAll host args hs) := within_forM fun g hm => respond_step h (hg g hm) args

theorem raise_step (k : EventKey) (args : EventArgs) : Within T.Step (host.raise k args) :=
  within_nested _ (within_watched fun _ hw => respondAll_step h (hw.handlers k) args)

theorem notify_step (o : ObjectRef) (property : String) : Within T.Step (host.notify o property) :=
  within_seq (within_tell _) fun _ => raise_step h _ _

theorem raiseNamed_step (o : ObjectRef) (e : EventName) : Within T.Step (host.raiseNamed o e) :=
  within_seq (within_tell _) fun _ => raise_step h _ _

theorem fire_step (tag : String) : Within T.Step (host.fire tag) := by
  refine within_nested _ (within_watched fun w hw => respondAll_step h (fun g hg => ?_) _)
  obtain ⟨d, hd, rfl⟩ := List.mem_map.mp hg
  exact hw.direct d (List.mem_filter.mp hd).1

/-- Once the binding's own handler has been called, the calls after it keep the binding up to date. -/
theorem respondAll_synced (ha : T.armed) {hs : List Handler} (hg : ∀ g ∈ hs, g.Tame T.toScope) {n : String}
    {own : Handler} (hmem : own ∈ hs) (hown : own.response = .onProperty n (.follow T.binding T.source T.target))
    {w w' : World} {u : PUnit} (hw : T.Watched w) (hr : respondAll host (.property n) hs w = .ok u w') :
    T.Synced w' := by
  induction hs generalizing w with
  | nil => cases hmem
  | cons g hs ih =>
    obtain ⟨u', w₁, hg₁, hrest⟩ := bind_eq_ok.mp hr
    have hstep := respond_step h (hg g List.mem_cons_self) _ w u' w₁ hg₁
    have hw₁ := (hstep hw).1
    have htail : ∀ g ∈ hs, g.Tame T.toScope := fun g hm => hg g (List.mem_cons_of_mem _ hm)
    rcases List.mem_cons.mp hmem with rfl | hm
    · unfold Handler.respond at hg₁
      rw [hown] at hg₁
      simp only [if_true] at hg₁
      have hs₁ := h.follow ha w w₁ hw hg₁
      exact (respondAll_step h htail _ w₁ u w' hrest).synced hw₁ hs₁
    · exact ih htail hm hw₁ hrest

theorem raise_synced (ha : T.armed) {o s n : String} (hn : T.reads o s n) {w w' : World} {u : Unit}
    (hw : T.Watched w) (hr : host.raise (.changed o) (.property n) w = .ok u w') : T.Synced w' := by
  by_cases hl : ∃ b, T.Live w b
  · obtain ⟨b, hb⟩ := hl
    obtain ⟨own, hmem, -, hown⟩ := (hw.attached ha b hb).listens o s n hn
    unfold Host.raise nested at hr
    split at hr
    · cases hr
    · split at hr
      · rename_i w₁ hx
        cases hr
        have hcalm : T.Calm w { w with depth := w.depth + 1 } := .of_same rfl (Nat.le_refl _)
        have hin := hcalm.watched hw
        have hs := respondAll_synced h ha (hw.handlers _) hmem hown hin hx
        exact Unchanged.synced {} hs
      · cases hr
  · have hs := synced_of_not_live ha fun b hb => hl ⟨b, hb⟩
    exact (raise_step h _ _ w u w' hr).synced hw hs

/-! ## Bodies -/

omit h in
theorem setSlot_calm {o s : String} (hu : T.Unread o s) (w : World) (v : Value) : T.Calm w (w.setSlot o s v) where
  unchanged.reads _ o' s' n hr := by
    rw [World.slot_setSlot, if_neg]
    rintro ⟨rfl, rfl⟩
    exact hu n hr

omit h in
theorem Body.setSlots_step {sets : List (String × Operand)} (hs : ∀ s ∈ sets, ∀ o, T.Unread o s.1)
    (types : TypeTable) (inPlace : Bool) (args : List Value) (r : Value) :
    Within T.Step (Body.setSlots types inPlace args r sets) := by
  induction sets generalizing r with
  | nil => exact within_return _
  | cons s rest ih =>
    obtain ⟨name, operand⟩ := s
    refine within_world fun w => within_seq ?_ fun r' => ih (fun s hm => hs s (List.mem_cons_of_mem _ hm)) r'
    unfold Body.setSlot
    split
    · exact within_return _
    · split
      · exact within_seq (within_modify fun w => setSlot_calm (hs _ List.mem_cons_self _) w _) fun _ => within_return _
      · exact within_return _
    · exact within_return _

theorem Body.run_step {b : Body} (hb : b.Tame T.toWatch) (label : String) (inPlace : Bool) (r : Value)
    (args : List Value) : Within T.Step (b.run host label inPlace r args) := by
  unfold Body.run
  apply within_optional (within_tell _)
  refine within_seq (Tracking.run_step h hb.acts) fun _ => within_seq ?_ fun r' => ?_
  · exact setSlots_step hb.sets _ _ _ _
  · split
    · exact within_fail _
    · exact within_world fun w => within_return _

theorem Method.run_step {m : Method} (hm : m.Tame T.toWatch) (r : Value) (args : List Value) :
    Within T.Step (m.run host r args) := by
  unfold Method.run
  split
  · exact within_seq (Body.run_step h hm _ _ _ _) fun _ => within_return _
  · exact within_seq (within_except _) fun _ => Body.run_step h hm _ _ _ _
  · exact Body.run_step h hm _ _ _ _

theorem Delegate.invoke_step {d : Delegate} (hd : d.method.Tame T.toWatch) (args : List Value) :
    Within T.Step (d.invoke host args) := by
  unfold Delegate.invoke
  refine within_check ?_
  cases d.method.isStatic with
  | true => exact within_seq (Method.run_step h hd _ _) fun _ => within_return _
  | false =>
    cases args with
    | nil => exact within_fail _
    | cons r rest =>
      simp only [Bool.false_eq_true, if_false]
      refine within_check ?_
      exact within_seq (Method.run_step h hd _ _) fun _ => within_return _

/-! ## Members -/

omit h in
theorem downcast_eq_ok {k : ObjectKind} {v : Value} {o : ObjectRef} (hv : host.downcast k v = .ok o) :
    v = .object o := by
  unfold Host.downcast at hv
  split at hv
  · split at hv
    · cases hv
      rfl
    · cases hv
  · cases hv

theorem Member.read_step {m : Member} (hm : m.Tame T.toWatch) (r : Value) : Within T.Step (m.read host r) := by
  unfold Member.read
  split
  · exact within_fail _
  · exact within_seq (within_except _) fun _ => within_world fun _ => within_return _
  · split
    · exact within_return _
    · exact within_fail _
  · rename_i b hb
    exact within_seq (Body.run_step h (hm b hb) _ _ _ _) fun _ => within_return _
  · exact within_world fun _ => within_return _
  · exact within_return _
  · split
    · exact within_return _
    · exact within_return _

omit h in
theorem watched_setSlot {w : World} (hw : T.Watched w) (o s : String) (v : Value) : T.Watched (w.setSlot o s v) :=
  hw.of_frame rfl rfl rfl rfl rfl (fun _ _ => rfl) fun ha b hb =>
    have hatt := hw.attached ha b hb
    ⟨hatt.immediate, hatt.recurring, hatt.given, hatt.listens⟩

theorem Member.store_step {m : Member} {o : ObjectRef} {s : String} {loud : Bool}
    (hm : ∀ n, T.reads o.name s n → loud = true ∧ T.reads o.name s m.name) (v : Value) :
    Within T.Step (m.store host o s loud v) := by
  refine within_world fun w => ?_
  split
  · exact within_return _
  · by_cases hu : T.Unread o.name s
    · refine within_seq (within_modify fun w => setSlot_calm hu w v) fun _ => ?_
      split
      · exact notify_step h _ _
      · exact within_return _
    · obtain ⟨n, hn⟩ : ∃ n, T.reads o.name s n := Classical.not_forall_not.mp hu
      -- The slot is watched, so the write is told, and that brings the binding up to date.
      obtain ⟨hloud, hname⟩ := hm n hn
      intro w a w' hx hw
      obtain ⟨u, w₁, hset, hnotify⟩ := bind_eq_ok.mp hx
      cases modify_eq_ok.mp hset
      rw [if_pos hloud] at hnotify
      have hw₁ := watched_setSlot hw o.name s v
      obtain ⟨hw', hdone⟩ := notify_step h _ _ _ _ _ hnotify hw₁
      refine ⟨hw', ?_⟩
      by_cases ha : T.armed
      · obtain ⟨u', w₂, htell, hraise⟩ := bind_eq_ok.mp hnotify
        have hw₂ := (within_tell _ _ _ _ htell hw₁).1
        exact .inl (raise_synced h ha hname hw₂ hraise)
      · refine hdone.imp id fun hc => ?_
        exact ⟨fun ha' => absurd ha' ha, hc.given, hc.binding⟩

omit h in
theorem refuse_step (refusal : Option String) : Within T.Step (Member.refuse refusal) := by
  cases refusal with
  | none => exact within_return _
  | some message => exact within_fail _

theorem Member.write_step {m : Member} {r : Value} (hm : ∀ o, r = .object o → m.Tells T.toWatch o.name) (v : Value) :
    Within T.Step (m.write host r v) := by
  unfold Member.write
  unfold Member.Tells at hm
  split
  · exact within_fail _
  · rename_i name refusal loud hw
    rw [hw] at hm
    intro w a w' hx
    obtain ⟨o, w₁, ho, hx⟩ := bind_eq_ok.mp hx
    obtain ⟨hd, rfl⟩ := Effect.ofExcept_eq_ok.mp ho
    refine within_seq (refuse_step _) (fun _ => within_seq (within_except _) fun v => ?_) w a w' hx
    exact within_seq (Member.store_step h (hm o (downcast_eq_ok hd)) v) fun _ => within_return _
  · refine within_seq (refuse_step _) fun _ => within_seq (within_except _) fun v => ?_
    exact within_seq (within_modify fun _ => .of_same rfl (Nat.le_refl _)) fun _ => within_return _
  · split
    · exact within_return _
    · exact within_fail _

theorem Accessor.get_step {a : Accessor} (ha : a.member.Tame T.toWatch) (r : Value) : Within T.Step (a.get host r) :=
  Member.read_step h ha _

theorem Accessor.set_step {a : Accessor} {r : Value} (ha : ∀ o, r = .object o → a.member.Tells T.toWatch o.name)
    (v : Value) : Within T.Step (a.set host r v) := by
  unfold Accessor.set
  split
  · exact within_fail _
  · split
    · exact within_seq (Member.write_step h (fun _ hn => by cases hn) v) fun _ => within_return _
    · exact Member.write_step h ha v

theorem Receiver.read_step {a : Accessor} (ha : a.member.Tame T.toWatch) (r : Receiver) :
    Within T.Step (r.read host a) := within_world fun _ => Accessor.get_step h ha _

theorem Setter.write_step {a : Accessor} {r : Receiver} (ha : (Setter.write r a).Tame T.toWatch) (v : Value) :
    Within T.Step (r.write host a v) := by
  have hset : ∀ w, Within T.Step (a.set host (r.value w) v) := by
    intro w
    refine Accessor.set_step h (fun o ho => ?_) v
    cases r with
    | shared u => exact ha o ho
    | boxed b => exact ha o.name
    | type t => cases ho
  unfold Receiver.write
  refine within_world fun w => within_seq (hset w) fun after => ?_
  split
  · exact within_modify fun _ => .of_same rfl (Nat.le_refl _)
  · exact within_return _

end

end Tracking

end DataBinding
