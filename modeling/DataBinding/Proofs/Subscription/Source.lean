import DataBinding.Proofs.Subscription.Settle
import DataBinding.Trigger.Collect

/-!
# Sources of triggers

The triggers of an expression are those that the configuration has a source for (`triggers_configured`). Subscribed to
reliable sources, they act for their binding alone and can let go (`World.Attaches.sound`).
-/

namespace DataBinding

open Effect Compile

/-! ## Where triggers come from -/

def Yields (Q : Trigger → Prop) (x : Compile (List Trigger)) : Prop :=
  ∀ s ts s', x s = .ok ts s' → ∀ t ∈ ts, Q t

theorem yields_pure {Q : Trigger → Prop} {ts : List Trigger} (h : ∀ t ∈ ts, Q t) : Yields Q (pure ts) := by
  intro s ts' s' hx
  cases hx
  exact h

theorem yields_append {Q : Trigger → Prop} {x y : Compile (List Trigger)} (hx : Yields Q x) (hy : Yields Q y) :
    Yields Q (do
      let ts ← x
      let us ← y
      return ts ++ us) := by
  intro s ts s' h t ht
  obtain ⟨us, s₁, hu, h⟩ := bind_eq_ok.mp h
  obtain ⟨vs, s₂, hv, h⟩ := bind_eq_ok.mp h
  cases h
  rcases List.mem_append.mp ht with ht | ht
  · exact hx _ _ _ hu t ht
  · exact hy _ _ _ hv t ht

/-- A trigger that the configuration has a source for, not subscribed yet. -/
def Trigger.Configured (types : TypeTable) (config : Configuration) (t : Trigger) : Prop :=
  t.handler = none ∧ ∃ m type, config.memberSource? types m type = some t.source

namespace Expr

variable {host : Host} {config : Configuration}

theorem staticTrigger_configured (m : Member) :
    ∀ t ∈ staticTrigger host config m, t.Configured host.types config := by
  intro t ht
  unfold staticTrigger at ht
  split at ht
  · cases List.mem_singleton.mp ht
    exact ⟨rfl, m, _, ‹_›⟩
  · cases ht

theorem instanceTrigger_configured (m : Member) (receiver : Compile Receiver) :
    Yields (Trigger.Configured host.types config) (instanceTrigger host config m receiver) := by
  intro s ts s' h t ht
  obtain ⟨r, s₁, -, h⟩ := bind_eq_ok.mp h
  obtain ⟨s₂, s₃, -, h⟩ := bind_eq_ok.mp h
  obtain ⟨hts, -⟩ := pure_eq_ok.mp h
  rw [← hts] at ht
  generalize hsource : config.memberSource? host.types m _ = source at ht
  cases source with
  | none => cases ht
  | some src =>
    cases List.mem_singleton.mp ht
    exact ⟨rfl, m, _, hsource⟩

mutual
theorem triggers_configured (e : Expr) : Yields (Trigger.Configured host.types config) (e.triggers host config) := by
  unfold triggers
  cases e with
  | constant v t n => exact yields_pure (List.forall_mem_nil _)
  | member node target m =>
    have hi := triggers_configured target
    simp only
    split
    · exact yields_append (yields_pure (staticTrigger_configured m)) hi
    · exact yields_append (instanceTrigger_configured m _) hi
  | typeMember node m =>
    simp only
    split
    · exact yields_pure (staticTrigger_configured m)
    · exact instanceTrigger_configured m _
  | binary op left right t => exact yields_append (triggers_configured left) (triggers_configured right)
  | unary op operand t c => exact triggers_configured operand
  | call target m args => exact yields_append (triggers_configured target) (triggersAll_configured args)
  | typeCall m args => exact triggersAll_configured args
  | conditional test yes no t =>
    intro s ts s' h x hx
    obtain ⟨a, s₁, ha, h⟩ := bind_eq_ok.mp h
    obtain ⟨b, s₂, hb, h⟩ := bind_eq_ok.mp h
    obtain ⟨c, s₃, hc, h⟩ := bind_eq_ok.mp h
    cases h
    rcases List.mem_append.mp hx with hx | hx
    · rcases List.mem_append.mp hx with hx | hx
      · exact triggers_configured test _ _ _ ha x hx
      · exact triggers_configured yes _ _ _ hb x hx
    · exact triggers_configured no _ _ _ hc x hx
termination_by structural e
theorem triggersAll_configured (es : List Expr) :
    Yields (Trigger.Configured host.types config) (triggersAll host config es) := by
  unfold triggersAll
  cases es with
  | nil => exact yields_pure (List.forall_mem_nil _)
  | cons e es => exact yields_append (triggers_configured e) (triggersAll_configured es)
termination_by structural es
end

end Expr

/-- A source that has an event and never refuses. -/
def ChangeSource.isReliable : ChangeSource → Bool
  | traced _ _ fault => fault.isNone
  | direct _ => false
  | _ => true

structure Configuration.Reliable (types : TypeTable) (c : Configuration) : Prop where
  members : ∀ m type s, c.memberSource? types m type = some s → s.isReliable = true
  events : ∀ name type s, c.eventSources.find? types name type = some s → s.isReliable = true

theorem memberSource?_cases {types : TypeTable} {c : Configuration} {m : Member} {type : Option TypeId} {s : ChangeSource}
    (h : c.memberSource? types m type = some s) : (∃ e ∈ c.memberSources.entries, e.2 = s) ∨ ∃ name, s = .property name := by
  unfold Configuration.memberSource? at h
  cases hm : c.memberSources.find? m.id with
  | some s' =>
    rw [hm] at h
    cases h
    exact .inl ⟨_, Table.mem_entries hm, rfl⟩
  | none =>
    rw [hm] at h
    simp only at h
    split at h
    · cases h
    · split at h
      · cases h
        exact .inr ⟨_, rfl⟩
      · cases h

theorem reliable_of_registered {types : TypeTable} {c : Configuration}
    (hmembers : ∀ e ∈ c.memberSources.entries, e.2.isReliable = true)
    (hevents : ∀ e ∈ c.eventSources.byName.entries, ∀ entry ∈ e.2, entry.2.isReliable = true) : c.Reliable types := by
  constructor
  · intro m type s h
    obtain ⟨e, he, rfl⟩ | ⟨name, rfl⟩ := memberSource?_cases h
    · exact hmembers e he
    · rfl
  · intro name type s h
    obtain ⟨entry, hfound, rfl⟩ := Option.map_eq_some_iff.mp h
    have hentry := List.mem_of_find?_eq_some hfound
    unfold EventRegistry.entries at hentry
    cases hn : c.eventSources.byName.find? name with
    | none =>
      rw [hn] at hentry
      cases hentry
    | some entries =>
      rw [hn] at hentry
      exact hevents _ (Table.mem_entries hn) entry hentry

/-- Sources that are registered for members let handlers go. -/
def Configuration.LetsGo (types : TypeTable) (c : Configuration) : Prop :=
  ∀ m type s, c.memberSource? types m type = some s → s.letsGo = true

theorem letsGo_of_registered {types : TypeTable} {c : Configuration}
    (h : ∀ e ∈ c.memberSources.entries, e.2.letsGo = true) : c.LetsGo types := by
  intro m type s hs
  obtain ⟨e, he, rfl⟩ | ⟨name, rfl⟩ := memberSource?_cases hs
  · exact h e he
  · rfl

theorem letsGo_of_reliable {s : ChangeSource} (h : s.isReliable = true) : s.letsGo = true := by
  cases s with
  | traced e tag fault =>
    cases fault with
    | none => rfl
    | some f => cases h
  | _ => rfl

theorem isDirect_of_reliable {s : ChangeSource} (h : s.isReliable = true) : s.isDirect = false := by
  cases s with
  | direct tag => cases h
  | _ => rfl

section
variable {p : Platform} {w w' : World} {id : BindingId} {a : Action} {ts : List Trigger}

theorem place?_isSome {s : ChangeSource} {host : Host} {target : Target} {g : Handler} {key : Option EventKey}
    (hs : s.isDirect = false) (h : s.key? host target g w = .ok key w') : key.isSome := by
  obtain ⟨key', w₁, hevent, h⟩ := bind_eq_ok.mp h
  have hkey' : key'.isSome := by
    cases s with
    | direct tag => cases hs
    | property name =>
      obtain ⟨_, _, hg, hevent⟩ := bind_eq_ok.mp hevent
      cases hg
      obtain ⟨r, w₂, -, hevent⟩ := bind_eq_ok.mp hevent
      cases hevent
      rfl
    | _ =>
      obtain ⟨r, w₂, -, hevent⟩ := bind_eq_ok.mp hevent
      cases hevent
      rfl
  cases key' with
  | none => cases hkey'
  | some k =>
    obtain ⟨u, w₂, -, h⟩ := bind_eq_ok.mp h
    cases h
    rfl

/-- Triggers that were subscribed for a binding act for it and can let go. -/
theorem World.Attaches.sound (h : World.Attaches p a ts w w') (ha : ∀ x, a.Touches x → x = id)
    (hts : ∀ t ∈ ts, t.source.isReliable = true) : ∀ t ∈ ts, t.Sound p w' id := by
  intro t ht
  obtain ⟨g, hg, hkey⟩ := h.ready t ht
  have hmem : g ∈ ts.filterMap Trigger.handler := List.mem_filterMap.mpr ⟨t, ht, hg⟩
  refine ⟨⟨letsGo_of_reliable (hts t ht), ?_⟩, ?_, ?_, ?_⟩
  · intro g' hg'
    cases hg.symm.trans hg'
    exact hkey
  · intro g' hg'
    cases hg.symm.trans hg'
    exact (h.fresh g hmem).2
  · intro g' hg' x hx
    cases hg.symm.trans hg'
    rw [h.touches g hmem] at hx
    exact ha x hx
  · intro _ _
    exact place?_isSome (isDirect_of_reliable (hts t ht)) (hkey fun _ => pure ())

end

end DataBinding
