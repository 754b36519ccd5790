import DataBinding.Proofs.Subscription.Attach

/-!
# The account of an event

The list of an event is an account that host code and bindings share: host code has the handlers that it added and did
not remove (`World.heard`), live bindings have those of their subscribed triggers (`World.subscribed`). A world in which
every list is such an account stays one when a binding takes handlers (`Accounted.attach`), lets go of them
(`Accounted.release`), or changes otherwise (`Accounted.update`), and when host code does something of its own
(`Accounted.change`).
-/

namespace DataBinding

/-! ## Who has which handlers -/

/-- What is left of the handlers that host code added to an event. -/
def Listening.replay (k : EventKey) : List Listening → List Handler
  | [] => []
  | l :: ls =>
    if l.key = k then
      if l.added then replay k ls ++ [l.handler] else HandlerList.remove (replay k ls) l.handler
    else replay k ls

/-- The handlers that host code has in the list of an event, in the order in which it added them. -/
def World.heard (w : World) (k : EventKey) : List Handler := Listening.replay k w.listenings

/-- The subscription of an event binding. Without a registered source it is one to the event itself. -/
def EventBinding.trigger? (b : EventBinding) : Option Trigger :=
  match b.target, b.source.or ((EventName.ofText? b.event).map .event) with
  | some v, some s => some ⟨.value v, s, b.event, b.handler⟩
  | _, _ => none

namespace Binding

def triggers : Binding → List Trigger
  | equality b => b.left ++ b.right
  | action b => b.triggers
  | event b => b.trigger?.toList
  | custom _ => []

/-- The handlers that a binding has in the list of an event while it is live. -/
def attachedAt (k : EventKey) (s : Binding) : List Handler := if s.isDisposed then [] else heldAt k s.triggers

end Binding

def World.subscribed (w : World) (k : EventKey) : List Handler :=
  w.bindings.entries.flatMap fun e => e.2.attachedAt k

def World.held (w : World) (id : BindingId) (k : EventKey) : List Handler :=
  ((w.bindings.find? id).map (Binding.attachedAt k)).getD []

theorem subscribed_setBinding (w : World) (id : BindingId) (s : Binding) (k : EventKey) :
    ((w.setBinding id s).subscribed k ++ w.held id k).Perm (w.subscribed k ++ s.attachedAt k) :=
  Table.insert_flatMap w.bindings id s (Binding.attachedAt k)

theorem mem_subscribed {w : World} {k : EventKey} {g : Handler} :
    g ∈ w.subscribed k ↔ ∃ id s, (id, s) ∈ w.bindings.entries ∧ g ∈ s.attachedAt k := by
  unfold World.subscribed
  rw [List.mem_flatMap]
  constructor
  · rintro ⟨⟨id, s⟩, he, hg⟩
    exact ⟨id, s, he, hg⟩
  · rintro ⟨id, s, he, hg⟩
    exact ⟨(id, s), he, hg⟩

theorem mem_attachedAt {k : EventKey} {s : Binding} {g : Handler} (h : g ∈ s.attachedAt k) :
    s.isDisposed = false ∧ ∃ t ∈ s.triggers, t.place? = some k ∧ t.handler = some g := by
  unfold Binding.attachedAt at h
  cases hd : s.isDisposed with
  | true =>
    rw [hd] at h
    cases h
  | false =>
    rw [hd] at h
    exact ⟨rfl, mem_heldAt.mp h⟩

theorem heldAt_sublist (k : EventKey) (ts : List Trigger) : (heldAt k ts).Sublist (ts.filterMap Trigger.handler) := by
  unfold heldAt
  induction ts with
  | nil => exact .slnil
  | cons t ts ih =>
    unfold Trigger.handlerAt at ih ⊢
    by_cases hp : t.place? = some k
    · cases hh : t.handler with
      | none => simpa [hp, hh] using ih
      | some g => simpa [hp, hh] using ih
    · cases hh : t.handler with
      | none => simpa [hp, hh] using ih
      | some g => simpa [hp, hh] using ih.cons g

/-! ## Bindings that can let go -/

def World.OffersSame (w w' : World) : Prop :=
  ∀ o, (w'.object o).offersChanges = (w.object o).offersChanges ∧ (w'.object o).exposed = (w.object o).exposed

theorem offersSame_of_objects {w w' : World} (h : w'.objects = w.objects) : w.OffersSame w' := by
  intro o
  unfold World.object
  rw [h]
  exact ⟨rfl, rfl⟩

theorem World.OffersSame.exposedEvent? {w w' : World} (h : w.OffersSame w') (v : Value) (event : String) :
    w'.exposedEvent? v event = w.exposedEvent? v event := by
  unfold World.exposedEvent?
  split
  · rw [(h _).2]
  · rfl

/-- The handler of a trigger acts for one binding alone, and the trigger can let go of it. -/
structure Trigger.Sound (p : Platform) (w : World) (id : BindingId) (t : Trigger) : Prop where
  ready : t.Ready p w
  number : ∀ g, t.handler = some g → g.id < w.next
  touches : ∀ g, t.handler = some g → ∀ x, g.Touches x → x = id
  placed : ∀ g, t.handler = some g → t.place?.isSome

/-- So do the handlers of a binding, until it is disposed. -/
structure Binding.Sound (p : Platform) (w : World) (id : BindingId) (s : Binding) : Prop where
  issued : id.index < w.next
  live : s.isDisposed = false → ∀ t ∈ s.triggers, t.Sound p w id
  listed : s.isDisposed = false → s.handlers = s.triggers.filterMap Trigger.handler
  idle : s.isDisposed = true → s.handlers = []
  exposed : ∀ b v g, s = .event b → b.source = none → b.target = some v → b.handler = some g →
    ∃ k, w.exposedEvent? v b.event = some k ∧ g.payload = k.payload

theorem Trigger.Sound.mono {p : Platform} {w w' : World} {id : BindingId} {t : Trigger} (h : t.Sound p w id)
    (ha : w.OffersSame w') (hn : w.next ≤ w'.next) : t.Sound p w' id where
  ready := h.ready.mono fun o => (ha o).1
  number g hg := Nat.lt_of_lt_of_le (h.number g hg) hn
  touches := h.touches
  placed := h.placed

theorem Binding.Sound.mono {p : Platform} {w w' : World} {id : BindingId} {s : Binding} (h : s.Sound p w id)
    (ha : w.OffersSame w') (hn : w.next ≤ w'.next) : s.Sound p w' id where
  issued := Nat.lt_of_lt_of_le h.issued hn
  live hd t ht := (h.live hd t ht).mono ha hn
  listed := h.listed
  idle := h.idle
  exposed b v g hs hb hv hg := by
    rw [ha.exposedEvent?]
    exact h.exposed b v g hs hb hv hg

theorem Binding.Sound.attached {p : Platform} {w : World} {id : BindingId} {s : Binding} {k : EventKey} {g : Handler}
    (h : s.Sound p w id) (hg : g ∈ s.attachedAt k) : g.id < w.next ∧ ∀ x, g.Touches x → x = id := by
  obtain ⟨hd, t, ht, -, hh⟩ := mem_attachedAt hg
  exact ⟨(h.live hd t ht).number g hh, (h.live hd t ht).touches g hh⟩

/-! ## Accounts -/

/-- Host code has the handler in a list or under a name. -/
inductive World.Outside (w : World) (h : Handler) : Prop where
  | heard {k : EventKey} (hk : h ∈ w.heard k)
  | named {name : String} (hn : w.namedHandlers.find? name = some h)

/-- Every list is the account of host code and of the live bindings, and none has a handler that is someone else's. -/
structure World.Accounted (p : Platform) (w : World) : Prop where
  shared : ∀ k, Shared (w.heard k) (w.subscribed k) (w.handlersOf k)
  nodup : ∀ k, ((w.subscribed k).map Handler.id).Nodup
  sound : ∀ id s, (id, s) ∈ w.bindings.entries → s.Sound p w id
  outside : ∀ h, w.Outside h → h.id < w.next ∧ ∀ id, ¬ h.Touches id
  apart : ∀ k h, w.Outside h → ∀ g ∈ w.subscribed k, h.id ≠ g.id
  named : ∀ name id, w.namedBindings.find? name = some id → id.index < w.next
  direct : w.direct = []

/-- Nothing leads to the binding of this number. -/
def World.Hidden (w : World) (id : BindingId) : Prop := id.index < w.next ∧ ¬ w.Reaches id

/-- Apart from these bindings, what is hidden stays hidden and does not change. -/
structure World.Respects (M : BindingId → Prop) (w w' : World) : Prop where
  next : w.next ≤ w'.next
  hidden : ∀ id, w.Hidden id → ¬ M id → w'.Hidden id ∧ w'.bindings.find? id = w.bindings.find? id

theorem respects_chains (M : BindingId → Prop) : Chains (World.Respects M) where
  refl w := ⟨Nat.le_refl _, fun _ h _ => ⟨h, rfl⟩⟩
  trans h h' := by
    refine ⟨Nat.le_trans h.next h'.next, fun id hid hm => ?_⟩
    obtain ⟨hid₁, hf₁⟩ := h.hidden id hid hm
    obtain ⟨hid₂, hf₂⟩ := h'.hidden id hid₁ hm
    exact ⟨hid₂, hf₂.trans hf₁⟩

theorem World.Respects.mono {M M' : BindingId → Prop} {w w' : World}
    (hM : ∀ id, w.Hidden id → M id → M' id) (h : w.Respects M w') : w.Respects M' w' :=
  ⟨h.next, fun id hid hm => h.hidden id hid fun hm' => hm (hM id hid hm')⟩

namespace World.Accounted

variable {p : Platform} {w w' : World}

/-- In an account only handlers of bindings and names lead to bindings. -/
theorem reaches (h : w.Accounted p) {id : BindingId} (hr : w.Reaches id) :
    (∃ k s, (id, s) ∈ w.bindings.entries ∧ ∃ g ∈ s.attachedAt k, g.Touches id) ∨
      ∃ name, w.namedBindings.find? name = some id := by
  cases hr with
  | @handler k g hk ht =>
    rcases List.mem_append.mp ((h.shared k).perm.mem_iff.mp hk) with hg | hg
    · exact absurd ht ((h.outside g (.heard hg)).2 id)
    · obtain ⟨x, s, he, hg⟩ := mem_subscribed.mp hg
      cases ((h.sound x s he).attached hg).2 id ht
      exact .inl ⟨k, s, he, g, hg, ht⟩
  | direct hd ht =>
    rw [h.direct] at hd
    cases hd
  | name hn => exact .inr ⟨_, hn⟩

theorem reaches_issued (h : w.Accounted p) {id : BindingId} (hr : w.Reaches id) : id.index < w.next := by
  rcases h.reaches hr with ⟨k, s, he, -⟩ | ⟨name, hn⟩
  · exact (h.sound id s he).issued
  · exact h.named name id hn

theorem subscribed_issued (h : w.Accounted p) {k : EventKey} {g : Handler} (hg : g ∈ w.subscribed k) : g.id < w.next := by
  obtain ⟨id, s, he, hg⟩ := mem_subscribed.mp hg
  exact ((h.sound id s he).attached hg).1

/-- Apart from some bindings, nothing new leads to a binding. -/
theorem respects {M : BindingId → Prop} (h : w.Accounted p) (h' : w'.Accounted p) (hnext : w.next ≤ w'.next)
    (hentries : ∀ id s, ¬ M id → (id, s) ∈ w'.bindings.entries → (id, s) ∈ w.bindings.entries)
    (hfind : ∀ id, ¬ M id → w'.bindings.find? id = w.bindings.find? id)
    (hnames : ∀ name id, ¬ M id → w'.namedBindings.find? name = some id → w.namedBindings.find? name = some id) :
    w.Respects M w' := by
  refine ⟨hnext, fun id hid hm => ⟨⟨Nat.lt_of_lt_of_le hid.1 hnext, fun hr => hid.2 ?_⟩, hfind id hm⟩⟩
  rcases h'.reaches hr with ⟨k, s, he, g, hg, ht⟩ | ⟨name, hn⟩
  · have hmem : g ∈ w.subscribed k := mem_subscribed.mpr ⟨id, s, hentries id s hm he, hg⟩
    exact .handler ((h.shared k).perm.mem_iff.mpr (List.mem_append_right _ hmem)) ht
  · exact .name (hnames name id hm hn)

theorem change {M : BindingId → Prop} (h : w.Accounted p) (hbindings : w'.bindings = w.bindings) (hoffers : w.OffersSame w')
    (hnext : w.next ≤ w'.next) (hdirect : w'.direct = w.direct)
    (hnames : ∀ name id, w'.namedBindings.find? name = some id →
      w.namedBindings.find? name = some id ∨ (M id ∧ id.index < w.next))
    (hshared : ∀ k, Shared (w'.heard k) (w.subscribed k) (w'.handlersOf k))
    (houtside : ∀ g, w'.Outside g → w.Outside g ∨ (w.next ≤ g.id ∧ g.id < w'.next ∧ ∀ id, ¬ g.Touches id)) :
    w'.Accounted p ∧ w.Respects M w' := by
  have hsub (k : EventKey) : w'.subscribed k = w.subscribed k := by
    unfold World.subscribed
    rw [hbindings]
  have h' : w'.Accounted p := by
    refine ⟨fun k => ?_, fun k => ?_, fun id s he => ?_, fun g hg => ?_, fun k g hg g' hg' => ?_, fun name id hn => ?_, ?_⟩
    · rw [hsub]
      exact hshared k
    · rw [hsub]
      exact h.nodup k
    · rw [hbindings] at he
      exact (h.sound id s he).mono hoffers hnext
    · rcases houtside g hg with hg | ⟨-, hlt, ht⟩
      · exact ⟨Nat.lt_of_lt_of_le (h.outside g hg).1 hnext, (h.outside g hg).2⟩
      · exact ⟨hlt, ht⟩
    · rw [hsub] at hg'
      rcases houtside g hg with hg | ⟨hle, -, -⟩
      · exact h.apart k g hg g' hg'
      · exact Nat.ne_of_gt (Nat.lt_of_lt_of_le (h.subscribed_issued hg') hle)
    · rcases hnames name id hn with hn | ⟨-, hid⟩
      · exact Nat.lt_of_lt_of_le (h.named name id hn) hnext
      · exact Nat.lt_of_lt_of_le hid hnext
    · rw [hdirect]
      exact h.direct
  refine ⟨h', h.respects h' hnext ?_ ?_ ?_⟩
  · intro id s _ he
    rw [hbindings] at he
    exact he
  · intro id _
    rw [hbindings]
  · intro name id hm hn
    exact (hnames name id hn).resolve_right fun hid => hm hid.1

theorem rewire {id : BindingId} {s : Binding} (h : w.Accounted p) (hr : (w.setBinding id s).Relists w')
    (hdirect : w'.direct ⊆ w.direct) (hs : s.Sound p w' id)
    (hshared : ∀ k, Shared (w.heard k) (w'.subscribed k) (w'.handlersOf k))
    (hnodup : ∀ k, ((w'.subscribed k).map Handler.id).Nodup)
    (hids : ∀ k, ∀ g ∈ w'.subscribed k, g ∈ w.subscribed k ∨ w.next ≤ g.id) :
    w'.Accounted p ∧ w.Respects (· = id) w' := by
  have hentries (x : BindingId) (s' : Binding) (he : (x, s') ∈ w'.bindings.entries) :
      (x, s') = (id, s) ∨ (x, s') ∈ w.bindings.entries := by
    rw [hr.bindings] at he
    exact Table.mem_insert he
  have hheard (k : EventKey) : w'.heard k = w.heard k := by
    unfold World.heard
    rw [hr.listenings]
    rfl
  have houtside {g : Handler} (hg : w'.Outside g) : w.Outside g := by
    cases hg with
    | heard hk => exact .heard (hheard _ ▸ hk)
    | named hn =>
      rw [hr.namedHandlers] at hn
      exact .named hn
  have h' : w'.Accounted p := by
    refine ⟨fun k => ?_, hnodup, fun x s' he => ?_, fun g hg => ?_, fun k g hg g' hg' => ?_, fun name x hn => ?_, ?_⟩
    · rw [hheard]
      exact hshared k
    · rcases hentries x s' he with he | he
      · cases he
        exact hs
      · exact (h.sound x s' he).mono (offersSame_of_objects hr.objects) hr.next
    · obtain ⟨hlt, ht⟩ := h.outside g (houtside hg)
      exact ⟨Nat.lt_of_lt_of_le hlt hr.next, ht⟩
    -- A handler that is new here has a number that host code cannot have yet.
    · rcases hids k g' hg' with hg' | hle
      · exact h.apart k g (houtside hg) g' hg'
      · exact Nat.ne_of_lt (Nat.lt_of_lt_of_le (h.outside g (houtside hg)).1 hle)
    · rw [hr.namedBindings] at hn
      exact Nat.lt_of_lt_of_le (h.named name x hn) hr.next
    · rw [← List.subset_nil, ← h.direct]
      exact hdirect
  refine ⟨h', h.respects h' hr.next ?_ ?_ ?_⟩
  · intro x s' hx he
    rcases hentries x s' he with he | he
    · cases he
      exact absurd rfl hx
    · exact he
  · intro x hx
    rw [hr.bindings, World.find?_setBinding, if_neg (Ne.symm hx)]
  · intro name x _ hn
    rw [hr.namedBindings] at hn
    exact hn

variable {id : BindingId} {s : Binding} {ts : List Trigger} {a : Action}

theorem update (h : w.Accounted p) (hs : s.Sound p w id) (hheld : ∀ k, s.attachedAt k = w.held id k) :
    (w.setBinding id s).Accounted p ∧ w.Respects (· = id) (w.setBinding id s) := by
  have hperm (k : EventKey) : ((w.setBinding id s).subscribed k).Perm (w.subscribed k) := by
    have hp := subscribed_setBinding w id s k
    rw [hheld] at hp
    exact (List.perm_append_right_iff _).mp hp
  apply h.rewire (relists_chains.refl _) (List.Subset.refl _) (hs.mono (offersSame_of_objects rfl) (Nat.le_refl _))
  · exact fun k => (h.shared k).congr (hperm k).symm
  · exact fun k => ((hperm k).map _).nodup_iff.mpr (h.nodup k)
  · exact fun k g hg => .inl ((hperm k).mem_iff.mp hg)

theorem attach (h : w.Accounted p) (ha : World.Attaches p a ts w w') (hdirect : ∀ t ∈ ts, t.source.isDirect = false)
    (hs : s.Sound p (w'.setBinding id s) id) (hheld : ∀ k, (s.attachedAt k).Perm (w.held id k ++ heldAt k ts)) :
    (w'.setBinding id s).Accounted p ∧ w.Respects (· = id) (w'.setBinding id s) := by
  have hsame (k : EventKey) : (w'.setBinding id s).subscribed k = (w.setBinding id s).subscribed k := by
    unfold World.subscribed World.setBinding
    rw [ha.bindings]
  have hperm (k : EventKey) : ((w'.setBinding id s).subscribed k).Perm (w.subscribed k ++ heldAt k ts) := by
    rw [hsame]
    apply (List.perm_append_right_iff (w.held id k)).mp
    apply (subscribed_setBinding w id s k).trans
    rw [List.append_assoc]
    exact ((hheld k).trans List.perm_append_comm).append_left _
  apply h.rewire
  · exact {
      objects := ha.objects
      bindings := congrArg (·.insert id s) ha.bindings
      namedBindings := ha.namedBindings
      namedHandlers := ha.namedHandlers
      listenings := ha.listenings
      next := ha.next }
  · rw [← ha.direct hdirect]
    exact List.Subset.refl _
  · exact hs
  · intro k
    refine Shared.congr ?_ (hperm k).symm
    rw [show (w'.setBinding id s).handlersOf k = w'.handlersOf k from rfl, ha.lists k]
    exact (h.shared k).append_right _
  · intro k
    rw [((hperm k).map _).nodup_iff, List.map_append, List.nodup_append]
    refine ⟨h.nodup k, ha.nodup.sublist ((heldAt_sublist k ts).map _), fun i hi j hj hij => ?_⟩
    obtain ⟨g, hg, rfl⟩ := List.mem_map.mp hi
    obtain ⟨g', hg', rfl⟩ := List.mem_map.mp hj
    have hlt := h.subscribed_issued hg
    have hle := (ha.fresh g' ((heldAt_sublist k ts).subset hg')).1
    omega
  · intro k g hg
    rcases List.mem_append.mp ((hperm k).mem_iff.mp hg) with hg | hg
    · exact .inl hg
    · exact .inr (ha.fresh g ((heldAt_sublist k ts).subset hg)).1

theorem release (h : w.Accounted p) (hr : World.Releases ts (w.setBinding id s) w') (hs : s.Sound p w' id)
    (hheld : ∀ k, w.held id k = heldAt k ts) (hnone : ∀ k, s.attachedAt k = []) :
    w'.Accounted p ∧ w.Respects (· = id) w' := by
  have hsame (k : EventKey) : w'.subscribed k = (w.setBinding id s).subscribed k := by
    unfold World.subscribed
    rw [hr.bindings]
  have hperm (k : EventKey) : (w.subscribed k).Perm (heldAt k ts ++ w'.subscribed k) := by
    have hp := subscribed_setBinding w id s k
    rw [hnone, List.append_nil, hheld, ← hsame] at hp
    exact hp.symm.trans List.perm_append_comm
  apply h.rewire hr.toRelists hr.direct hs
  · intro k
    rw [hr.lists k]
    apply Shared.removeAll_right ((h.shared k).congr (hperm k))
    · intro x hx g hg
      exact h.apart k x (.heard hx) g ((hperm k).mem_iff.mpr (List.mem_append_left _ hg))
    · exact ((hperm k).map _).nodup_iff.mp (h.nodup k)
  · intro k
    have hn := ((hperm k).map _).nodup_iff.mp (h.nodup k)
    rw [List.map_append] at hn
    exact hn.sublist (List.sublist_append_right _ _)
  · exact fun k g hg => .inl ((hperm k).mem_iff.mpr (List.mem_append_right _ hg))

end World.Accounted

end DataBinding
