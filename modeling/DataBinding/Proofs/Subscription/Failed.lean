import DataBinding.Proofs.Run.HostCode
import DataBinding.Proofs.Subscription.Create

/-!
# Failed constructions

A binding whose construction fails is disposed, which takes out the handlers of the triggers that it has by then. It gets
the triggers of a side only when all of them are subscribed. So if a trigger refuses, those before it on its side stay
subscribed, and nothing else is left behind (`failed_creation_leaves`).
-/

namespace DataBinding

open Effect Compile

/-! ## Outcomes -/

/-- From states of a kind, what is returned comes with states of another kind, and failures with states of a third. -/
structure Leads {σ α : Type} (I : σ → Prop) (x : EStateM Stop σ α) (J : α → σ → Prop) (F : Error → σ → Prop) : Prop where
  ok : ∀ s a s', I s → x s = .ok a s' → J a s'
  failed : ∀ s e s', I s → x s = .error (.failed e) s' → F e s'

section
variable {σ α β : Type} {I I' : σ → Prop} {J J' : α → σ → Prop} {K : β → σ → Prop} {F : Error → σ → Prop}

theorem leads_bind {x : EStateM Stop σ α} {f : α → EStateM Stop σ β} (hx : Leads I x J F)
    (hf : ∀ a, Leads (J a) (f a) K F) : Leads I (x >>= f) K F := by
  constructor
  · intro s b s' hs h
    obtain ⟨a, s₁, ha, hb⟩ := bind_eq_ok.mp h
    exact (hf a).ok _ _ _ (hx.ok _ _ _ hs ha) hb
  · intro s e s' hs h
    obtain ha | ⟨a, s₁, ha, hb⟩ := bind_eq_error.mp h
    · exact hx.failed _ _ _ hs ha
    · exact (hf a).failed _ _ _ (hx.ok _ _ _ hs ha) hb

theorem leads_pure {a : α} (h : ∀ s, I s → J a s) : Leads I (pure a) J F := by
  constructor
  · intro s b s' hs hp
    cases hp
    exact h s hs
  · nofun

theorem leads_modify {f : σ → σ} {J : PUnit → σ → Prop} (h : ∀ s, I s → J () (f s)) : Leads I (modify f) J F := by
  constructor
  · intro s u s' hs hm
    cases modify_eq_ok.mp hm
    exact h s hs
  · nofun

theorem leads_get {f : σ → EStateM Stop σ α} (h : ∀ s, I s → Leads (· = s) (f s) J F) : Leads I (get >>= f) J F := by
  constructor
  · intro s a s' hs hx
    exact (h s hs).ok _ _ _ rfl hx
  · intro s e s' hs hx
    exact (h s hs).failed _ _ _ rfl hx

theorem Leads.mono {x : EStateM Stop σ α} (h : Leads I x J F) (hI : ∀ s, I' s → I s) (hJ : ∀ a s, J a s → J' a s) :
    Leads I' x J' F where
  ok s a s' hs hx := hJ a s' (h.ok s a s' (hI s hs) hx)
  failed s e s' hs hx := h.failed s e s' (hI s hs) hx

/-- What does not hang on the state can be had first. -/
theorem leads_given {q : Prop} {x : EStateM Stop σ α} (h : q → Leads I x J F) : Leads (fun s => I s ∧ q) x J F where
  ok s a s' hs hx := (h hs.2).ok s a s' hs.1 hx
  failed s e s' hs hx := (h hs.2).failed s e s' hs.1 hx

/-- A computation that stays in a relation leads to where the relation leads. -/
theorem leads_lasts {R : σ → σ → Prop} {x : EStateM Stop σ α} (h : Lasts R x) (hJ : ∀ s a s', I s → R s s' → J a s')
    (hF : ∀ s e s', I s → R s s' → F e s') : Leads I x J F where
  ok s a s' hs hx := hJ s a s' hs (h.ok s a s' hx)
  failed s e s' hs hx := hF s e s' hs (h.error s _ s' hx).2

end

theorem leads_lift {α : Type} {I : World → Prop} {J : α → World → Prop} {F : Error → World → Prop} {x : Effect α}
    (h : Leads I x J F) : Leads (I ·.world) (lift x) (fun a s => J a s.world) (fun e s => F e s.world) := by
  constructor
  · intro s a s' hs hx
    obtain ⟨w, hw, rfl⟩ := lift_eq_ok.mp hx
    exact h.ok _ _ _ hs hw
  · intro s e s' hs hx
    obtain ⟨w, hw, rfl⟩ := lift_eq_error.mp hx
    exact h.failed _ _ _ hs hw

/-! ## Host code that leaves handlers alone -/

open Classical in
/-- The host as long as its code stays in a relation. A run in which it does not is looked at no further. -/
noncomputable def Host.within (host : Host) (R : World → World → Prop) : Host where
  toPlatform := host.toPlatform
  perform a w := if R w (after (host.perform a w)) then host.perform a w else .error .exhausted w

theorem within_lasts {R : World → World → Prop} (hR : Chains R) (host : Host) (a : Action) :
    Lasts R ((host.within R).perform a) := by
  apply lasts_of_after
  intro w
  by_cases hr : R w (after (host.perform a w))
  · have hkeeps : (host.within R).perform a w = host.perform a w := if_pos hr
    rw [hkeeps]
    exact hr
  · have hstops : (host.within R).perform a w = .error .exhausted w := if_neg hr
    rw [hstops]
    exact hR.refl w

namespace Binding

def carrying (v : Value) : Binding → Binding
  | equality b => .equality { b with value := v }
  | s => s

@[simp]
theorem carrying_carrying (v v' : Value) (s : Binding) : (s.carrying v).carrying v' = s.carrying v' := by
  cases s <;> rfl

@[simp]
theorem isDisposed_carrying (v : Value) (s : Binding) : (s.carrying v).isDisposed = s.isDisposed := by
  cases s <;> rfl

theorem exists_carrying (s : Binding) : ∃ v, s.carrying v = s := by
  cases s with
  | equality b => exact ⟨b.value, rfl⟩
  | _ => exact ⟨.null, rfl⟩

end Binding

/-- No handler has been added or removed, and the binding has at most carried another value over. -/
structure World.Spares (id : BindingId) (w w' : World) : Prop where
  lists : ∀ k, w'.handlersOf k = w.handlersOf k
  binding : ∀ s, w.bindings.find? id = some s → ∃ v, w'.bindings.find? id = some (s.carrying v)
  offers : ∀ o, (w'.object o).offersChanges = (w.object o).offersChanges
  next : w.next ≤ w'.next

theorem spares_chains (id : BindingId) : Chains (World.Spares id) where
  refl w := by
    refine ⟨fun _ => rfl, fun s hs => ?_, fun _ => rfl, Nat.le_refl _⟩
    obtain ⟨v, hv⟩ := s.exists_carrying
    exact ⟨v, by rw [hv, hs]⟩
  trans h h' := by
    refine ⟨fun k => (h'.lists k).trans (h.lists k), fun s hs => ?_, fun o => (h'.offers o).trans (h.offers o),
      Nat.le_trans h.next h'.next⟩
    obtain ⟨v, hv⟩ := h.binding s hs
    obtain ⟨v', hv'⟩ := h'.binding _ hv
    exact ⟨v', by rw [hv', Binding.carrying_carrying]⟩

theorem spares_stores {id : BindingId} {w w' : World} (h : w.Stores w') : w.Spares id w' := by
  refine ⟨h.handlersOf, fun s hs => ?_, h.offers, h.next⟩
  obtain ⟨v, hv⟩ := s.exists_carrying
  exact ⟨v, by rw [hv, h.bindings, hs]⟩

theorem within_lasting (host : Host) (id : BindingId) : (host.within (World.Spares id)).Lasting (World.Spares id) :=
  Host.lasting_of_perform (spares_chains id) spares_stores (within_lasts (spares_chains id) host)

/-! ## What is left behind -/

/-- These triggers are found for the expression at some point. -/
def Expr.HasTriggers (host : Host) (config : Configuration) (e : Expr) (ts : List Trigger) : Prop :=
  ∃ s s', e.triggers host config s = .ok ts s'

def Trigger.Refuses (host : Host) (e : Error) (t : Trigger) : Prop :=
  ∃ a w t' w', t.subscribe host a w = .ok (.error e, t') w'

/-- Nothing, or the triggers of a side, which were subscribed, before one that could not be. -/
def Abandons (host : Host) (config : Configuration) (e : Error) (sides : List Expr) (us : List Trigger) : Prop :=
  us = [] ∨ (∀ t ∈ us, t.isSubscribed = true) ∧
    ∃ side ∈ sides, ∃ t rest, side.HasTriggers host config (us.map Trigger.detached ++ t :: rest) ∧ t.Refuses host e

/-- Whether the triggers of the binding are those of the expressions that it observes. -/
def Binding.observes : Binding → Bool
  | equality _ => true
  | action _ => true
  | _ => false

/-- A binding under construction: since `w₀` its own handlers have been added, and no others. -/
structure World.Begun (p : Platform) (w₀ : World) (id : BindingId) (s : Binding) (w : World) : Prop where
  found : ∃ v, w.bindings.find? id = some (s.carrying v)
  live : s.isDisposed = false
  observes : s.observes = true
  lists : ∀ k, w.handlersOf k = w₀.handlersOf k ++ heldAt k s.triggers
  issued : ∀ g ∈ s.triggers.filterMap Trigger.handler, g.id < w.next
  nodup : ((s.triggers.filterMap Trigger.handler).map Handler.id).Nodup
  ready : ∀ t ∈ s.triggers, t.Ready p w

/-- A construction has failed: the binding has some triggers, and others were subscribed after them. -/
def World.Forsaken (host : Host) (config : Configuration) (w₀ : World) (id : BindingId) (sides : List Expr) (e : Error)
    (w : World) : Prop :=
  ∃ s a us w₁, World.Begun host.toPlatform w₀ id s w₁ ∧ World.Attaches host.toPlatform a us w₁ w ∧
    Abandons host config e sides us

/-- A step of a construction, which fails as constructions do. -/
abbrev Proceeds (host : Host) (config : Configuration) (w₀ : World) (id : BindingId) (sides : List Expr) {α : Type}
    (I : World → Prop) (x : Compile α) (J : α → World → Prop) : Prop :=
  Leads (I ·.world) x (fun a s => J a s.world) fun e s => World.Forsaken host config w₀ id sides e s.world

section
variable {p : Platform} {f : Action → Effect Unit} {w₀ w w' : World} {id : BindingId} {s : Binding}

theorem World.Begun.spares (h : World.Begun p w₀ id s w) (hw : w.Spares id w') : World.Begun p w₀ id s w' where
  found := by
    obtain ⟨v, hv⟩ := h.found
    obtain ⟨v', hv'⟩ := hw.binding _ hv
    exact ⟨v', by rw [hv', Binding.carrying_carrying]⟩
  live := h.live
  observes := h.observes
  lists k := (hw.lists k).trans (h.lists k)
  issued g hg := Nat.lt_of_lt_of_le (h.issued g hg) hw.next
  nodup := h.nodup
  ready t ht := (h.ready t ht).mono hw.offers

theorem World.Begun.dispose {a : Action} {us : List Trigger} (h : World.Begun p w₀ id s w) (ha : World.Attaches p a us w w') :
    ∃ w'', Host.dispose ⟨p, f⟩ id w' = .ok () w'' ∧ ∀ k, w''.handlersOf k = w₀.handlersOf k ++ heldAt k us := by
  obtain ⟨v, hv⟩ := h.found
  rw [← ha.bindings] at hv
  have hready : ∀ t ∈ s.triggers, t.Ready p w' := fun t ht =>
    (h.ready t ht).mono fun o => (offersSame_of_objects ha.objects o).1
  have hreleases : ∃ w'', Host.dispose ⟨p, f⟩ id w' = .ok () w'' ∧
      World.Releases s.triggers (w'.setBinding id (s.carrying v).disposal) w'' := by
    unfold Host.dispose
    rw [bind_get]
    simp only [hv]
    cases s with
    | equality b => exact EqualityBinding.dispose_ready h.live hready
    | action b => exact ActionBinding.dispose_ready h.live hready
    | event b => cases h.observes
    | custom name => cases h.observes
  obtain ⟨w'', hdispose, hr⟩ := hreleases
  refine ⟨w'', hdispose, fun k => ?_⟩
  have hlist : (w'.setBinding id (s.carrying v).disposal).handlersOf k =
      w₀.handlersOf k ++ heldAt k s.triggers ++ heldAt k us := by
    show w'.handlersOf k = _
    rw [ha.lists, h.lists]
  rw [hr.lists, hlist]
  apply HandlerList.foldl_remove (h.nodup.sublist ((heldAt_sublist k _).map _))
  -- The binding had all its handlers before the first of `us` got its number.
  intro y hy g hg
  have hlate := (ha.fresh y ((heldAt_sublist k us).subset hy)).1
  have hearly := h.issued g ((heldAt_sublist k _).subset hg)
  omega

end

/-! ## Steps of a construction -/

section
variable {p : Platform} {f : Action → Effect Unit} {config : Configuration} {w₀ w : World} {id : BindingId}
  {sides : List Expr} {s : Binding}

theorem World.Begun.forsaken {e : Error} (h : World.Begun p w₀ id s w) : World.Forsaken ⟨p, f⟩ config w₀ id sides e w :=
  ⟨s, .script [], [], w, h, attaches_nil {} rfl rfl, .inl rfl⟩

theorem sparing_proceeds {α : Type} {x : Compile α} (h : Lasts (OnWorld (World.Spares id)) x) :
    Proceeds ⟨p, f⟩ config w₀ id sides (World.Begun p w₀ id s) x fun _ => World.Begun p w₀ id s :=
  leads_lasts h (fun _ _ _ hs hr => hs.spares hr) fun _ _ _ hs hr => (hs.spares hr).forsaken

/-- The triggers have been subscribed after construction had come so far. -/
def World.Subscribed (p : Platform) (w₀ : World) (id : BindingId) (s : Binding) (ts : List Trigger) (w : World) : Prop :=
  ∃ a w₁, World.Begun p w₀ id s w₁ ∧ World.Attaches p a ts w₁ w ∧ ∀ t ∈ ts, t.source.letsGo = true

theorem subscribeAll_proceeds (hgo : config.LetsGo p.types) {side : Expr} (hside : side ∈ sides) {ts : List Trigger}
    (hts : side.HasTriggers ⟨p, f⟩ config ts) (a : Action) :
    Leads (World.Begun p w₀ id s) (Trigger.subscribeAll ⟨p, f⟩ a ts) (World.Subscribed p w₀ id s)
      (World.Forsaken ⟨p, f⟩ config w₀ id sides) := by
  have hsources : ∀ t ∈ ts, t.Configured p.types config := by
    obtain ⟨s₁, s₂, htriggers⟩ := hts
    exact Expr.triggers_configured side _ _ _ htriggers
  constructor
  · intro w us w' hw h
    obtain ⟨ha, rfl⟩ := Trigger.subscribeAll_ok (fun t ht => (hsources t ht).1) h
    refine ⟨a, w, hw, ha, fun t ht => ?_⟩
    obtain ⟨-, m, type, hsource⟩ := hsources t.detached (List.mem_map_of_mem ht)
    exact hgo m type _ hsource
  · intro w e w' hw h
    obtain ⟨us, t, rest, ha, rfl, t', w₁, hrefused⟩ := Trigger.subscribeAll_error (fun t ht => (hsources t ht).1) h
    refine ⟨s, a, us, w, hw, ha, .inr ⟨fun u hu => ?_, side, hside, t, rest, hts, a, w₁, t', w', hrefused⟩⟩
    obtain ⟨g, hg, -⟩ := ha.ready u hu
    exact Option.isSome_iff_exists.mpr ⟨g, hg⟩

section
variable (hl : Host.Lasting ⟨p, f⟩ (World.Spares id))
include hl

theorem triggers_proceeds (side : Expr) :
    Leads (fun s' => World.Begun p w₀ id s s'.world) (side.triggers ⟨p, f⟩ config)
      (fun ts s' => World.Begun p w₀ id s s'.world ∧ side.HasTriggers ⟨p, f⟩ config ts)
      fun e s' => World.Forsaken ⟨p, f⟩ config w₀ id sides e s'.world := by
  have h : Lasts (OnWorld (World.Spares id)) (side.triggers ⟨p, f⟩ config) :=
    Expr.triggers_lasts hl.chains hl.stores side fun x _ => hl.part x
  constructor
  · intro s₁ ts s₂ hs hx
    exact ⟨hs.spares (h.ok _ _ _ hx), s₁, s₂, hx⟩
  · intro s₁ e s₂ hs hx
    exact (hs.spares (h.error _ _ _ hx).2).forsaken

theorem observe_proceeds (hgo : config.LetsGo p.types) {side : Expr} (hside : side ∈ sides) (source : Getter)
    (target : Setter) :
    Proceeds ⟨p, f⟩ config w₀ id sides (World.Begun p w₀ id s) (EqualityBinding.observe ⟨p, f⟩ config id side source target)
      (World.Subscribed p w₀ id s) := by
  apply leads_bind (triggers_proceeds hl side)
  intro ts
  apply leads_given
  intro hts
  exact leads_lift (subscribeAll_proceeds hgo hside hts _)

theorem assign_proceeds {b : EqualityBinding} (target : Setter) (v : Value) :
    Leads (World.Begun p w₀ id (.equality b)) (EqualityBinding.assign ⟨p, f⟩ id target v)
      (fun _ w => b.flags.isOneTime = false → World.Begun p w₀ id (.equality b) w)
      (World.Forsaken ⟨p, f⟩ config w₀ id sides) := by
  apply leads_get
  intro w hw
  obtain ⟨v', hfound⟩ := hw.found
  rw [World.equality?_eq_some.mpr hfound]
  apply leads_bind (J := fun _ => World.Begun p w₀ id (.equality b))
  · refine leads_lasts (hl.dispatch _ _) ?_ ?_
    · rintro _ _ w' rfl hr
      exact hw.spares hr
    · rintro _ _ w' rfl hr
      exact (hw.spares hr).forsaken
  · intro u
    cases hone : b.flags.isOneTime with
    | false =>
      simp only [Bool.false_eq_true, if_false]
      exact leads_pure fun _ hw _ => hw
    | true =>
      simp only [if_true]
      constructor
      · nofun
      · intro w e w' hw hdispose
        obtain ⟨v'', hfound⟩ := hw.found
        obtain ⟨w'', hok, -⟩ := dispose_live ⟨p, f⟩ hfound ((Binding.isDisposed_carrying _ _).trans hw.live)
        cases hok.symm.trans hdispose

end

theorem World.Begun.value {b : EqualityBinding} (h : World.Begun p w₀ id (.equality b) w) (v : Value) :
    World.Begun p w₀ id (.equality b) (w.updateEquality id fun b => { b with value := v }) := by
  obtain ⟨v', hfound⟩ := h.found
  rw [updateEquality_found hfound]
  refine ⟨⟨v, ?_⟩, h.live, h.observes, h.lists, h.issued, h.nodup, fun t ht => (h.ready t ht).setBinding _ _⟩
  exact (World.find?_setBinding _ _ _ _).trans (if_pos rfl)

theorem World.Subscribed.take {b : EqualityBinding} {ts : List Trigger} (hleft : b.left = []) (hright : b.right = [])
    (h : World.Subscribed p w₀ id (.equality b) ts w) :
    World.Begun p w₀ id (.equality { b with right := ts }) (w.updateEquality id fun b => { b with right := ts }) := by
  obtain ⟨a, w₁, hw, ha, hgo⟩ := h
  obtain ⟨v, hfound⟩ := hw.found
  rw [← ha.bindings] at hfound
  rw [updateEquality_found hfound]
  have hnone : (Binding.equality b).triggers = [] := by simp [Binding.triggers, hleft, hright]
  have hts : (Binding.equality { b with right := ts }).triggers = ts := by simp [Binding.triggers, hleft]
  constructor
  · exact ⟨v, (World.find?_setBinding _ _ _ _).trans (if_pos rfl)⟩
  · exact hw.live
  · rfl
  · intro k
    rw [hts]
    show w.handlersOf k = _
    rw [ha.lists, hw.lists, hnone, heldAt, List.filterMap_nil, List.append_nil]
  · intro g hg
    rw [hts] at hg
    exact (ha.fresh g hg).2
  · rw [hts]
    exact ha.nodup
  · intro t ht
    rw [hts] at ht
    obtain ⟨g, hg, hkey⟩ := ha.ready t ht
    have hready : t.Ready p w := by
      refine ⟨hgo t ht, fun g' hg' => ?_⟩
      cases hg.symm.trans hg'
      exact hkey
    exact hready.setBinding _ _

section
variable (hl : Host.Lasting ⟨p, f⟩ (World.Spares id)) {flags : Flags} {b : EqualityBinding}
include hl

theorem start_proceeds (hflags : b.flags = flags) (source : Getter) (target : Setter) :
    Leads (World.Begun p w₀ id (.equality b)) (EqualityBinding.start ⟨p, f⟩ id flags source target)
      (fun finished w => finished = false → World.Begun p w₀ id (.equality b) w)
      (World.Forsaken ⟨p, f⟩ config w₀ id sides) := by
  apply leads_bind (J := fun _ => World.Begun p w₀ id (.equality b))
  · exact leads_lasts (hl.getter source) (fun _ _ _ hw hr => hw.spares hr) fun _ _ _ hw hr => (hw.spares hr).forsaken
  intro v
  apply leads_bind (J := fun _ => World.Begun p w₀ id (.equality b)) (leads_modify fun w hw => hw.value v)
  intro u
  split
  · exact leads_pure fun _ hw _ => hw
  · apply leads_bind (assign_proceeds hl target v)
    intro u
    apply leads_pure
    intro w hw hone
    exact hw (hflags ▸ hone)

variable {left right : Expr} (hgo : config.LetsGo p.types)
include hgo

theorem bindLeft_proceeds (hflags : b.flags = flags) (hleft : b.left = []) (hright : b.right = []) (hside : right ∈ sides) :
    Proceeds ⟨p, f⟩ config w₀ id sides (World.Begun p w₀ id (.equality b))
      (EqualityBinding.bindLeft ⟨p, f⟩ config id flags left right)
      fun r w => r.1 = false → ∃ ts, World.Begun p w₀ id (.equality { b with right := ts }) w := by
  apply leads_bind (sparing_proceeds (Expr.setter?_lasts hl.chains hl.stores _ left fun x _ => hl.part x))
  intro target?
  cases target? with
  | none =>
    apply leads_bind (sparing_proceeds (lasts_lift (hl.tell _)))
    intro u
    exact leads_pure fun _ hw _ => ⟨b.right, hw⟩
  | some target =>
    apply leads_bind (sparing_proceeds (Expr.getterOrFallback_lasts hl.chains hl.stores right fun x _ => hl.part x))
    intro source
    apply leads_bind (leads_lift (start_proceeds hl hflags source target))
    intro finished
    cases finished with
    | true => exact leads_pure fun _ _ => nofun
    | false =>
      apply leads_bind ((observe_proceeds hl hgo hside source target).mono (fun _ hw => hw rfl) fun _ _ hw => hw)
      intro ts
      apply leads_bind (J := fun _ s => World.Begun p w₀ id (.equality { b with right := ts }) s.world)
      · exact leads_modify fun s hw => hw.take hleft hright
      · intro u
        exact leads_pure fun _ hw _ => ⟨ts, hw⟩

theorem bindRight_proceeds (hflags : b.flags = flags) (hside : left ∈ sides) (leftBound : Bool) :
    Proceeds ⟨p, f⟩ config w₀ id sides (World.Begun p w₀ id (.equality b))
      (EqualityBinding.bindRight ⟨p, f⟩ config id flags left right leftBound) fun _ _ => True := by
  have hobserve (source : Getter) (target : Setter) : Proceeds ⟨p, f⟩ config w₀ id sides (World.Begun p w₀ id (.equality b)) (do
      let ts ← EqualityBinding.observe ⟨p, f⟩ config id left source target
      modify fun s => { s with world := s.world.updateEquality id fun b => { b with left := ts } }
      return false : Compile Bool) fun _ _ => True := by
    apply leads_bind (observe_proceeds hl hgo hside source target)
    intro ts
    apply leads_bind (J := fun _ _ => True) (leads_modify fun _ _ => trivial)
    intro u
    exact leads_pure fun _ _ => trivial
  apply leads_bind (sparing_proceeds (Expr.setter?_lasts hl.chains hl.stores _ right fun x _ => hl.part x))
  intro target?
  cases target? with
  | none =>
    apply leads_bind (sparing_proceeds (lasts_lift (hl.tell _)))
    intro u
    exact leads_pure fun _ _ => trivial
  | some target =>
    apply leads_bind (sparing_proceeds (Expr.getterOrFallback_lasts hl.chains hl.stores left fun x _ => hl.part x))
    intro source
    cases leftBound with
    | true => exact hobserve source target
    | false =>
      apply leads_bind (leads_lift (start_proceeds hl hflags source target))
      intro finished
      cases finished with
      | true => exact leads_pure fun _ _ => trivial
      | false => exact (hobserve source target).mono (fun _ hw => hw rfl) fun _ _ _ => trivial

theorem bindSides_proceeds (hflags : b.flags = flags) (hleft : b.left = []) (hright : b.right = []) (hside : right ∈ sides)
    (htwo : flags.isTwoWay = true → left ∈ sides) :
    Proceeds ⟨p, f⟩ config w₀ id sides (World.Begun p w₀ id (.equality b))
      (EqualityBinding.bindSides ⟨p, f⟩ config id flags left right) fun _ _ => True := by
  -- The warning at the end cannot fail, wherever it is reached from.
  have hend {I : Workbench → Prop} {F : Error → Workbench → Prop} : 
      Leads I (EqualityBinding.warnUntriggered ⟨p, f⟩ id left right) (fun _ _ => True) F := by
    apply leads_get
    intro s _
    split
    · split
      · exact ⟨fun _ _ _ _ _ => trivial, nofun⟩
      · exact leads_pure fun _ _ => trivial
    · exact leads_pure fun _ _ => trivial
  apply leads_bind (bindLeft_proceeds hl hgo hflags hleft hright hside)
  rintro ⟨finished, leftBound⟩
  cases finished with
  | true => exact leads_pure fun _ _ => trivial
  | false =>
    cases htwo' : flags.isTwoWay with
    | false =>
      simp only [Bool.false_eq_true, if_false]
      exact hend
    | true =>
      simp only [Bool.false_eq_true, if_false, if_true]
      apply leads_bind (J := fun _ _ => True)
      · constructor
        · exact fun _ _ _ _ _ => trivial
        · intro s e s' hs h
          obtain ⟨ts, hw⟩ := hs trivial
          exact (bindRight_proceeds (b := { b with right := ts }) hl hgo hflags (htwo htwo') leftBound).failed _ _ _ hw h
      · intro finished
        cases finished with
        | true => exact leads_pure fun _ _ => trivial
        | false => exact hend

theorem observeCall_proceeds {b : ActionBinding} {e : Expr} (hside : e ∈ sides) (g : Getter) :
    Proceeds ⟨p, f⟩ config w₀ id sides (World.Begun p w₀ id (.action b)) (ActionBinding.observe ⟨p, f⟩ config id e g)
      fun _ _ => True := by
  apply leads_bind (triggers_proceeds hl e)
  intro ts
  apply leads_given
  intro hts
  have htake : Proceeds ⟨p, f⟩ config w₀ id sides (World.Begun p w₀ id (.action b)) (ActionBinding.take ⟨p, f⟩ id g ts)
      fun _ _ => True := by
    apply leads_bind (leads_lift (subscribeAll_proceeds hgo hside hts _))
    intro us
    exact leads_modify fun _ _ => trivial
  simp only
  split
  · apply leads_bind (sparing_proceeds (lasts_lift (hl.tell _)))
    intro u
    exact htake
  · exact htake

theorem bindCall_proceeds {b : ActionBinding} {e : Expr} (hside : e ∈ sides) :
    Proceeds ⟨p, f⟩ config w₀ id sides (World.Begun p w₀ id (.action b)) (ActionBinding.bindCall ⟨p, f⟩ config id flags e)
      fun _ _ => True := by
  apply leads_bind (sparing_proceeds (Expr.getterOrFallback_lasts hl.chains hl.stores e fun x _ => hl.part x))
  intro g
  simp only
  split
  · apply leads_bind (sparing_proceeds (lasts_lift (hl.dispatch _ _)))
    intro u
    split
    · apply leads_bind (J := fun _ _ => True) (leads_modify fun _ _ => trivial)
      intro u
      exact leads_pure fun _ _ => trivial
    · exact observeCall_proceeds hl hgo hside g
  · exact observeCall_proceeds hl hgo hside g

end

end

/-! ## Failed creations -/

/-- A binding that cannot be built is disposed, and the reason is handed on. -/
theorem building_failed {host : Host} {id : BindingId} {x : Compile Unit} {e : Error} {w w' : World}
    (h : building host id x w = .error (.failed e) w')
    (hdispose : ∀ e s, x ⟨w, .empty⟩ = .error (.failed e) s → ∃ w'', host.dispose id s.world = .ok () w'') :
    ∃ s, x ⟨w, .empty⟩ = .error (.failed e) s ∧ host.dispose id s.world = .ok () w' := by
  cases hr : x ⟨w, .empty⟩ with
  | ok u s => cases (bind_of_ok (withReceivers_of_ok hr)).symm.trans h
  | error stop s =>
    cases stop with
    | exhausted => cases (bind_of_error (withReceivers_of_exhausted hr)).symm.trans h
    | failed e' =>
      obtain ⟨w'', hd⟩ := hdispose e' s hr
      cases ((bind_of_ok (withReceivers_of_failed hr)).trans (bind_of_ok hd)).symm.trans h
      exact ⟨s, rfl, hd⟩

section
variable {p : Platform} {f : Action → Effect Unit} {config : Configuration} {w w' : World} {sides : List Expr} {e : Error}

theorem new_failed {s : Binding} {x : Compile Unit} (hlive : s.isDisposed = false) (hobserves : s.observes = true)
    (hnone : s.triggers = [])
    (hx : Proceeds ⟨p, f⟩ config w ⟨w.next⟩ sides (World.Begun p w ⟨w.next⟩ s) x fun _ _ => True)
    (h : building ⟨p, f⟩ ⟨w.next⟩ x (w.birth s) = .error (.failed e) w') :
    ∃ us, Abandons ⟨p, f⟩ config e sides us ∧ ∀ k, w'.handlersOf k = w.handlersOf k ++ heldAt k us := by
  have hbegun : World.Begun p w ⟨w.next⟩ s (w.birth s) := by
    obtain ⟨v, hv⟩ := s.exists_carrying
    refine ⟨⟨v, ?_⟩, hlive, hobserves, fun k => ?_, ?_, ?_, ?_⟩
    · rw [hv]
      exact (World.find?_setBinding _ _ _ _).trans (if_pos rfl)
    · rw [hnone]
      exact (List.append_nil _).symm
    · rw [hnone]
      exact List.forall_mem_nil _
    · rw [hnone]
      exact List.nodup_nil
    · rw [hnone]
      exact List.forall_mem_nil _
  have hfail {e : Error} {s' : Workbench}
      (hr : x ⟨w.birth s, .empty⟩ = .error (.failed e) s') :
      ∃ us w'', Abandons ⟨p, f⟩ config e sides us ∧ Host.dispose ⟨p, f⟩ ⟨w.next⟩ s'.world = .ok () w'' ∧
        ∀ k, w''.handlersOf k = w.handlersOf k ++ heldAt k us := by
    obtain ⟨s₁, a, us, w₁, hw₁, ha, hus⟩ := hx.failed _ _ _ hbegun hr
    obtain ⟨w'', hdispose, hlists⟩ := hw₁.dispose ha
    exact ⟨us, w'', hus, hdispose, hlists⟩
  obtain ⟨s', hr, hdispose⟩ := building_failed h fun e s' hr => by
    obtain ⟨us, w'', -, hd, -⟩ := hfail hr
    exact ⟨w'', hd⟩
  obtain ⟨us, w'', hus, hd, hlists⟩ := hfail hr
  cases hd.symm.trans hdispose
  exact ⟨us, hus, hlists⟩

theorem equality_failed {flags : Flags} {left right : Expr} (hl : Host.Lasting ⟨p, f⟩ (World.Spares ⟨w.next⟩))
    (hgo : config.LetsGo p.types) (hside : right ∈ sides) (htwo : flags.isTwoWay = true → left ∈ sides)
    (h : EqualityBinding.create ⟨p, f⟩ config flags left right w = .error (.failed e) w') :
    ∃ us, Abandons ⟨p, f⟩ config e sides us ∧ ∀ k, w'.handlersOf k = w.handlersOf k ++ heldAt k us := by
  unfold EqualityBinding.create at h
  simp only at h
  split at h
  · cases h
    exact ⟨[], .inl rfl, fun k => (List.append_nil _).symm⟩
  · have hsides : Proceeds ⟨p, f⟩ config w ⟨w.next⟩ sides
        (World.Begun p w ⟨w.next⟩ (.equality { dispatcher := config.assignments, flags }))
        (EqualityBinding.bindSides ⟨p, f⟩ config ⟨w.next⟩ flags left right) fun _ _ => True :=
      bindSides_proceeds hl hgo rfl rfl rfl hside htwo
    exact new_failed rfl rfl rfl hsides h

theorem action_failed {flags : Flags} {call : Expr} (hl : Host.Lasting ⟨p, f⟩ (World.Spares ⟨w.next⟩))
    (hgo : config.LetsGo p.types) (hside : call ∈ sides)
    (h : ActionBinding.create ⟨p, f⟩ config flags call w = .error (.failed e) w') :
    ∃ us, Abandons ⟨p, f⟩ config e sides us ∧ ∀ k, w'.handlersOf k = w.handlersOf k ++ heldAt k us := by
  have hcall : Proceeds ⟨p, f⟩ config w ⟨w.next⟩ sides
      (World.Begun p w ⟨w.next⟩ (.action { dispatcher := config.actions, flags }))
      (ActionBinding.bindCall ⟨p, f⟩ config ⟨w.next⟩ flags call) fun _ _ => True := bindCall_proceeds hl hgo hside
  rw [ActionBinding.create_eq_building] at h
  exact new_failed rfl rfl rfl hcall h

end

namespace Blueprint

def config : Blueprint → Configuration
  | equality config .. => config
  | action config .. => config
  | event config .. => config
  | command config .. => config

def sides : Blueprint → List Expr
  | equality _ flags left right => right :: if flags.isTwoWay then [left] else []
  | action _ _ call => [call]
  | event .. => []
  | command .. => []

end Blueprint

/-- While host code leaves handlers alone, all that a failed construction leaves behind are the handlers of the triggers
of one side before one that could not be subscribed. -/
theorem failed_creation_leaves (host : Host) (b : Blueprint) {w w' : World} {e : Error}
    (hgo : b.config.LetsGo host.types) (h : b.create (host.within (World.Spares ⟨w.next⟩)) w = .error (.failed e) w') :
    ∃ us, Abandons (host.within (World.Spares ⟨w.next⟩)) b.config e b.sides us ∧
      ∀ k, w'.handlersOf k = w.handlersOf k ++ heldAt k us := by
  have hl := within_lasting host ⟨w.next⟩
  have hnothing (hlists : ∀ k, w'.handlersOf k = w.handlersOf k) :
      ∃ us, Abandons (host.within (World.Spares ⟨w.next⟩)) b.config e b.sides us ∧
        ∀ k, w'.handlersOf k = w.handlersOf k ++ heldAt k us :=
    ⟨[], .inl rfl, fun k => (hlists k).trans (List.append_nil _).symm⟩
  cases b with
  | equality config flags left right =>
    apply equality_failed hl hgo List.mem_cons_self _ h
    intro htwo
    simp [htwo]
  | action config flags call => exact action_failed hl hgo List.mem_cons_self h
  | event config flags target name acts => exact hnothing (eventCreate_error h).handlersOf
  | command config flags target name c => exact hnothing (eventCreate_error h).handlersOf

/-! ## Sums -/

namespace Sums

def addend (name : String) : MemberSpec := ⟨name, .property, .int, false, some (.slot name), some (.slot name none true)⟩

def platform : Platform :=
  ⟨⟨[{ name := "Model", notifies := true, members := [addend "X", addend "Y"] }]⟩, fun _ => "Model", none⟩

def host : Host := platform.running HostCode.ofActs 6

def model (name : String) : ObjectRef := ⟨name, ⟨5⟩, .model⟩

def access (i : Nat) (o name : String) (index : Nat) : Expr :=
  .member ⟨i⟩ (.constant (.object (model o)) ⟨5⟩ none) { addend name with id := ⟨⟨5⟩, index⟩ }

/-- Changes of `Y` are told by an event that takes no handlers. -/
def config : Configuration where
  memberSources := Table.empty.insert ⟨⟨5⟩, 1⟩ (.traced .ticked "t" (some .attach))

def idle : World where
  objects := (Table.empty.insert "a" { slots := Table.empty.insert "X" (.integer 0), offersChanges := true }).insert "b"
    { slots := (Table.empty.insert "X" (.integer 1)).insert "Y" (.integer 2), offersChanges := true }
  next := 3

/-- `a.X` is to be the sum of `b.X` and `b.Y`. -/
def sum : Blueprint :=
  .equality config .empty (access 0 "a" "X" 0) (.binary .add (access 1 "b" "X" 0) (access 2 "b" "Y" 1) .int)

/-- The sum cannot be bound, and `b` is left with a handler. -/
theorem failed_sum_leaves_handler :
    (failure? (sum.create host idle)).map Error.message = some "cannot subscribe t" ∧
      (idle.handlersOf (.changed "b")).length = 0 ∧
      ((after (sum.create host idle)).handlersOf (.changed "b")).length = 1 := by
  decide +kernel

theorem config_letsGo : sum.config.LetsGo host.types := letsGo_of_registered (by decide)

/-- No host code has added that handler. -/
theorem sum_abandons_first :
    sum.config.LetsGo host.types ∧
      ∃ e w', sum.create (host.within (World.Spares ⟨idle.next⟩)) idle = .error (.failed e) w' ∧
        e.message = "cannot subscribe t" ∧
        (w'.handlersOf (.changed "b")).length = 1 ∧
        ∃ us, Abandons (host.within (World.Spares ⟨idle.next⟩)) sum.config e sum.sides us ∧
          ∀ k, w'.handlersOf k = idle.handlersOf k ++ heldAt k us := by
  have hfails : (failure? (sum.create (host.within (World.Spares ⟨idle.next⟩)) idle)).map Error.message =
      some "cannot subscribe t" := by decide +kernel
  obtain ⟨e, he, hmessage⟩ := Option.map_eq_some_iff.mp hfails
  have h := eq_failed_after he
  have hone : ((after (sum.create (host.within (World.Spares ⟨idle.next⟩)) idle)).handlersOf (.changed "b")).length = 1 := by
    decide +kernel
  exact ⟨config_letsGo, e, _, h, hmessage, hone, failed_creation_leaves host sum config_letsGo h⟩

end Sums

end DataBinding
