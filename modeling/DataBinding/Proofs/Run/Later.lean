import DataBinding.Proofs.Run.Construct

/-!
# Later worlds

Whatever host code does, what is disposed stays disposed, and a handler that is nowhere any more stays away. This is the
regime `later`: it asks nothing of the bindings that are made, and making them may fail.
-/

namespace DataBinding

open Effect Compile

/-- What can become of a binding: its kind and its flags stay. -/
def Binding.Continues : Binding → Binding → Prop
  | equality b, equality b' => b'.flags = b.flags ∧ (b.disposed = true → b'.disposed = true)
  | action b, action b' => b'.flags = b.flags ∧ (b.disposed = true → b'.disposed = true)
  | event b, event b' => b.disposed = true → b'.disposed = true
  | custom _, custom _ => True
  | _, _ => False

namespace Binding

theorem continues_refl (s : Binding) : s.Continues s := by
  cases s <;> simp [Continues]

theorem Continues.trans {s s' s'' : Binding} (h : s.Continues s') (h' : s'.Continues s'') : s.Continues s'' := by
  cases s <;> cases s' <;> cases s'' <;> simp_all [Continues]

theorem continues_disposal (s : Binding) : s.Continues s.disposal := by
  cases s <;> simp [Continues, disposal]

end Binding

/-- No event, no tag and no name has a handler of this number. -/
structure World.Absent (w : World) (n : Nat) : Prop where
  handlers : ∀ k, ∀ h ∈ w.handlersOf k, h.id ≠ n
  direct : ∀ d ∈ w.direct, d.2.id ≠ n
  named : ∀ name h, w.namedHandlers.find? name = some h → h.id ≠ n

/-- What was there before number `m` was handed out has not come alive again. -/
structure World.Succeeds (m : Nat) (w w' : World) : Prop where
  bindings : ∀ id s, id.index < m → w.bindings.find? id = some s →
    ∃ s', w'.bindings.find? id = some s' ∧ s.Continues s'
  absent : ∀ n < m, w.Absent n → w'.Absent n

theorem succeeds_chains (m : Nat) : Chains (World.Succeeds m) where
  refl w := ⟨fun id s _ hs => ⟨s, hs, s.continues_refl⟩, fun n _ h => h⟩
  trans h h' := by
    refine ⟨fun id s hid hs => ?_, fun n hn ha => h'.absent n hn (h.absent n hn ha)⟩
    obtain ⟨s₁, hs₁, hc₁⟩ := h.bindings id s hid hs
    obtain ⟨s₂, hs₂, hc₂⟩ := h'.bindings id s₁ hid hs₁
    exact ⟨s₂, hs₂, hc₁.trans hc₂⟩

/-- A later world, where number `m` is not handed out yet. -/
def World.Later (m : Nat) : World → World → Prop := Guarded (fun w => m ≤ w.next) (World.Succeeds m)

variable {m : Nat}

theorem later_chains (m : Nat) : Chains (World.Later m) := (succeeds_chains m).guarded

theorem later_setBinding {w : World} {id : BindingId} {s' : Binding}
    (h : ∀ s, id.index < m → w.bindings.find? id = some s → s.Continues s') : World.Later m w (w.setBinding id s') := by
  intro hm
  refine ⟨hm, fun id' s hid hs => ?_, fun n _ ha => ⟨ha.handlers, ha.direct, ha.named⟩⟩
  rw [World.find?_setBinding]
  by_cases he : id = id'
  · subst he
    exact ⟨s', if_pos rfl, h s hid hs⟩
  · exact ⟨s, by rw [if_neg he, hs], s.continues_refl⟩

theorem later_same {w w' : World} (hbindings : w'.bindings = w.bindings) (hhandlers : w'.handlers = w.handlers)
    (hdirect : w'.direct = w.direct) (hnamed : w'.namedHandlers = w.namedHandlers) (hnext : w.next ≤ w'.next) :
    World.Later m w w' := by
  intro hm
  refine ⟨Nat.le_trans hm hnext, fun id s _ hs => ⟨s, by rw [hbindings, hs], s.continues_refl⟩, fun n _ ha => ?_⟩
  constructor
  · unfold World.handlersOf
    rw [hhandlers]
    exact ha.handlers
  · rw [hdirect]
    exact ha.direct
  · rw [hnamed]
    exact ha.named

theorem later_stores {w w' : World} (h : w.Stores w') : World.Later m w w' :=
  later_same h.bindings h.handlers h.direct h.namedHandlers h.next

theorem later_loses {S : Nat → Prop} {w w' : World} (h : w.Loses S w') : World.Later m w w' := by
  intro hm
  refine ⟨Nat.le_trans hm (Nat.le_of_eq h.next.symm),
    fun id s _ hs => ⟨s, by rw [h.bindings, hs], s.continues_refl⟩, fun n _ ha => ?_⟩
  constructor
  · exact fun k g hg => ha.handlers k g (h.removed k hg)
  · exact fun d hd => ha.direct d (h.direct hd)
  · rw [h.named]
    exact ha.named

theorem later_setHandlers {w : World} {k : EventKey} {hs : List Handler}
    (h : ∀ g ∈ hs, g ∈ w.handlersOf k ∨ m ≤ g.id ∨ ∃ name, w.namedHandlers.find? name = some g) :
    World.Later m w (w.setHandlers k hs) := by
  intro hm
  refine ⟨hm, fun id s _ hs => ⟨s, hs, s.continues_refl⟩, fun n hn ha => ⟨fun k' g hg => ?_, ha.direct, ha.named⟩⟩
  rw [World.handlersOf_setHandlers] at hg
  by_cases hk : k = k'
  · rw [if_pos hk] at hg
    rcases h g hg with hg | hg | ⟨name, hg⟩
    · exact ha.handlers k g hg
    · omega
    · exact ha.named name g hg
  · rw [if_neg hk] at hg
    exact ha.handlers k' g hg

theorem later_updateEquality (w : World) (id : BindingId) {f : EqualityBinding → EqualityBinding}
    (hf : ∀ b, (f b).flags = b.flags ∧ (f b).disposed = b.disposed) : World.Later m w (w.updateEquality id f) := by
  unfold World.updateEquality
  cases hb : w.equality? id with
  | none => exact (later_chains m).refl w
  | some b =>
    apply later_setBinding
    intro s _ hs
    cases hs.symm.trans (World.equality?_eq_some.mp hb)
    exact ⟨(hf b).1, fun hd => (hf b).2.trans hd⟩

theorem later_updateAction (w : World) (id : BindingId) {f : ActionBinding → ActionBinding}
    (hf : ∀ b, (f b).flags = b.flags ∧ (b.disposed = true → (f b).disposed = true)) :
    World.Later m w (w.updateAction id f) := by
  unfold World.updateAction World.action?
  cases hb : w.bindings.find? id with
  | none => exact (later_chains m).refl w
  | some s =>
    cases s with
    | action b =>
      apply later_setBinding
      intro s _ hs
      cases hs.symm.trans hb
      exact hf b
    | _ => exact (later_chains m).refl w

/-! ## Attaching and letting go -/

section
variable {host : Host} {α : Type}

theorem lasts_of_loses {E : Stop → Prop} {S : Nat → Prop} {x : Effect α} (h : Always (World.Loses S) E x) :
    Lasts (World.Later m) x :=
  h.lasts.mono later_loses

theorem dispose_later (id : BindingId) : Lasts (World.Later m) (host.dispose id) := by
  apply lasts_dispose (later_chains m)
  intro w s hs hd
  obtain ⟨w', h, hl⟩ := dispose_live host hs hd
  refine ⟨w', h, (later_chains m).trans (later_setBinding fun s' _ hs' => ?_) (later_loses hl)⟩
  cases hs.symm.trans hs'
  exact s.continues_disposal

theorem tell_later (line : String) : Lasts (World.Later m) (tell line) := always_modify fun _ => later_stores {}

theorem fresh_bind_later {f : Nat → Effect α} (hf : ∀ n, m ≤ n → Lasts (World.Later m) (f n)) :
    Lasts (World.Later m) (fresh >>= f) := by
  have hnext (w : World) : World.Later m w { w with next := w.next + 1 } := later_stores { next := Nat.le_succ _ }
  constructor
  · intro w a w' h hm
    exact (later_chains m).trans (hnext w) ((hf w.next hm).ok _ a w' h) hm
  · intro w e w' h
    exact ⟨trivial, fun hm => (later_chains m).trans (hnext w) ((hf w.next hm).error _ e w' h).2 hm⟩

theorem addHandler_later (k : EventKey) {h : Handler} (hid : m ≤ h.id) : Lasts (World.Later m) (addHandler k h) := by
  apply always_modify
  intro w
  apply later_setHandlers
  intro g hg
  rcases List.mem_append.mp hg with hg | hg
  · exact .inl hg
  · cases List.mem_singleton.mp hg
    exact .inr (.inl hid)

theorem attach_later (s : ChangeSource) (target : Target) {h : Handler} (hid : m ≤ h.id) :
    Lasts (World.Later m) (s.attach host target h) := by
  have hc := later_chains m
  have htell (line : String) : Always (World.Later m) IsFailure (tell line) := always_modify fun _ => later_stores {}
  refine always_bind hc (key?_always hc s target h).lasts fun key => ?_
  split
  · exact always_bind hc (checkTraced_always hc htell _ _ _).lasts fun _ => addHandler_later _ hid
  · refine always_bind hc (tell_later _) fun _ => always_modify fun w hm => ?_
    refine ⟨hm, fun id s _ hs => ⟨s, hs, s.continues_refl⟩, fun n hn ha => ⟨ha.handlers, fun d hd => ?_, ha.named⟩⟩
    rcases List.mem_append.mp hd with hd | hd
    · exact ha.direct d hd
    · cases List.mem_singleton.mp hd
      exact Nat.ne_of_gt (Nat.lt_of_lt_of_le hn hid)
  · exact always_pure hc _

theorem createHandler_later (s : ChangeSource) (a : Action) {f : Handler → Effect α}
    (hf : ∀ h : Handler, m ≤ h.id → Lasts (World.Later m) (f h)) :
    Lasts (World.Later m) (s.createHandler a >>= f) := by
  unfold ChangeSource.createHandler
  cases s with
  | traced e tag fault =>
    simp only [bind_assoc, pure_bind]
    exact always_bind (later_chains m) (tell_later _) fun _ => fresh_bind_later fun n hn => hf _ hn
  | _ =>
    simp only [bind_assoc, pure_bind]
    exact fresh_bind_later fun n hn => hf _ hn

theorem unsubscribe_later (t : Trigger) : Lasts (World.Later m) (t.unsubscribe host) := by
  have hc := later_chains m
  unfold Trigger.unsubscribe
  split
  · exact always_pure hc _
  · rename_i h _
    have hdetach : Lasts (World.Later m) (t.source.detach host t.target h) :=
      lasts_of_loses (detach_loses (S := fun _ => True) t.source t.target trivial)
    exact always_bind hc (lasts_attempt (always_bind hc hdetach fun _ => tell_later _)) fun _ => always_pure hc _

theorem subscribe_later (t : Trigger) (a : Action) : Lasts (World.Later m) (t.subscribe host a) := by
  have hc := later_chains m
  refine always_bind hc (unsubscribe_later t) fun r => ?_
  obtain ⟨outcome, t⟩ := r
  cases outcome with
  | error e => exact always_pure hc _
  | ok u =>
    have hnew : Lasts (World.Later m) (do
        let h ← t.source.createHandler a
        t.source.attach host t.target h
        t.tellState host "subscribed"
        return h) := by
      apply createHandler_later
      intro h hid
      exact always_bind hc (attach_later t.source t.target hid) fun _ =>
        always_bind hc (tell_later _) fun _ => always_pure hc _
    refine always_bind hc (lasts_attempt hnew) fun outcome => ?_
    cases outcome with
    | error e => exact always_pure hc _
    | ok h => exact always_pure hc _

theorem subscribeAll_later (a : Action) (ts : List Trigger) : Lasts (World.Later m) (Trigger.subscribeAll host a ts) := by
  have hc := later_chains m
  induction ts with
  | nil => exact always_pure hc _
  | cons t ts ih =>
    refine always_bind hc (subscribe_later t a) fun r => ?_
    exact always_bind hc (lasts_ok hc _) fun _ => always_bind hc ih fun _ => always_pure hc _

end

/-! ## Making bindings -/

section
variable {host : Host} (h : host.Lasting (World.Later m)) {config : Configuration} {id : BindingId} {flags : Flags}
include h

theorem eventAttach_later (source : Option ChangeSource) (target : Value) (type : TypeId) (event : String) (a : Action) :
    Lasts (World.Later m) (EventBinding.attach host source target type event a) := by
  unfold EventBinding.attach
  cases source with
  | some s =>
    apply createHandler_later
    intro g hg
    exact h.seq (attach_later s _ hg) fun _ => h.pure _
  | none =>
    apply h.world
    intro w
    split
    · exact h.fail _
    · refine h.seq ?_ fun g => h.seq (h.tell _) fun _ => h.pure _
      apply fresh_bind_later
      intro n hn
      exact h.seq (addHandler_later _ hn) fun _ => h.pure _

theorem eventCreate_later (target : Value) (event : String) (a : Action) :
    Lasts (World.Later m) (EventBinding.create host config flags target event a) := by
  unfold EventBinding.create
  split
  · exact h.fail _
  · apply h.check
    apply fresh_bind_later
    intro n hn
    refine h.seq (eventAttach_later h _ _ _ _ _) fun g => ?_
    refine h.seq (always_modify fun w => later_setBinding fun s hid => ?_) fun _ => h.seq (h.tell _) fun _ => h.pure _
    exact absurd hid (Nat.not_lt.mpr hn)

theorem later_constructs (id : BindingId) : host.Constructs (World.Later m) id where
  toLasting := h
  value w v := later_updateEquality w id fun _ => ⟨rfl, rfl⟩
  finish w := later_updateAction w id fun _ => ⟨rfl, fun _ => rfl⟩
  dispose := dispose_later id
  takeSide us source target g hg _ := by
    refine h.seq (subscribeAll_later _ us) fun ts => always_modify fun w => ?_
    exact later_updateEquality w id fun b => ⟨hg.flags ts b, hg.disposed ts b⟩
  takeCall us call _ := by
    refine h.seq (subscribeAll_later _ us) fun ts => always_modify fun w => ?_
    exact later_updateAction w id fun _ => ⟨rfl, fun hd => hd⟩

theorem later_makes : host.Makes (World.Later m) where
  toLasting := h
  dispose := dispose_later
  name w name id := later_same rfl rfl rfl rfl (Nat.le_refl _)
  construct w s _ := by
    have hbirth : World.Later m w (w.birth s) := by
      intro hm
      have hnext : World.Later m w { w with next := w.next + 1 } := later_stores { next := Nat.le_succ _ }
      exact h.chains.trans hnext (later_setBinding fun s' hid _ => absurd hid (Nat.not_lt.mpr hm)) hm
    exact ⟨_, later_constructs h ⟨w.next⟩, fun w' hl => h.chains.trans hbirth hl⟩
  event _ _ target name a _ := eventCreate_later h target name a

end

theorem makeNamedHandler_later (name : String) (acts : List Act) :
    Lasts (World.Later m) (makeNamedHandler name acts) := by
  apply fresh_bind_later
  intro n hn
  apply always_modify
  intro w hm
  refine ⟨hm, fun id s _ hs => ⟨s, hs, s.continues_refl⟩, fun k hk ha => ⟨ha.handlers, ha.direct, fun name' g hg => ?_⟩⟩
  rw [Table.find?_insert] at hg
  split at hg
  · cases hg
    exact Nat.ne_of_gt (Nat.lt_of_lt_of_le hk hn)
  · exact ha.named name' g hg

theorem listenNamed_later (k : EventKey) (name : String) : Lasts (World.Later m) (listenNamed k name) := by
  apply lasts_listenNamed (later_chains m)
  intro w g hg
  have hnote : World.Later m w { w with listenings := ⟨k, g, true⟩ :: w.listenings } :=
    later_same rfl rfl rfl rfl (Nat.le_refl _)
  refine (later_chains m).trans hnote (later_setHandlers fun g' hg' => ?_)
  rcases List.mem_append.mp hg' with hg' | hg'
  · exact .inl hg'
  · cases List.mem_singleton.mp hg'
    exact .inr (.inr ⟨name, hg⟩)

theorem unlistenNamed_later (k : EventKey) (name : String) : Lasts (World.Later m) (unlistenNamed k name) := by
  have hc := later_chains m
  apply always_get hc
  intro w
  split
  · rename_i g _
    refine always_bind hc (always_modify fun w => later_same rfl rfl rfl rfl (Nat.le_refl _)) fun _ => ?_
    exact lasts_of_loses (removeHandler_loses (S := fun _ => True) (E := IsFailure) k trivial)
  · exact always_pure hc _

/-- Every world that host code leads to is a later one. -/
def later (p : Platform) (scripts : List Act → HostCode) (m : Nat) : Regime p scripts where
  rel _ := World.Later m
  chains _ := later_chains m
  mono _ h := h
  reached _ h := h
  stores := later_stores
  value w id _ := later_updateEquality w id fun _ => ⟨rfl, rfl⟩
  dispose _ id := dispose_later id
  unname _ _ := later_same rfl rfl rfl rfl (Nat.le_refl _)
  makeHandler := makeNamedHandler_later
  listen := listenNamed_later
  unlisten := unlistenNamed_later
  sure _ := True
  tried _ := True
  bind _ name b h _ := (later_makes h).bind name b
  tryBind _ name b h _ := (later_makes h).tryBind name b

end DataBinding
