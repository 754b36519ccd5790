import DataBinding.Proofs.Subscription.Attach

/-!
# Refused detaching

A source may refuse to let go of a handler, and a target may have no event any more. Whether that is so hangs on the
objects alone (`refusal?_congr`). Triggers that are refused leave their events as they are, the others take their handlers
away, and a run over a list of triggers comes to its end in any case, with one warning for each that was refused
(`unsubscribeAll_frees`).
-/

namespace DataBinding

open Effect

/-! ## Warnings -/

def isWarning (line : String) : Bool := "WARN ".toList.isPrefixOf line.toList

@[simp]
theorem isWarning_append (line : String) : isWarning ("WARN " ++ line) = true := by simp [isWarning]

def World.warnings (w : World) : List String := w.log.filter isWarning

/-- Something was told, but there is no new warning. -/
def World.Notes (w w' : World) : Prop := ∃ log, w' = { w with log := log } ∧ w'.warnings = w.warnings

theorem notes_refl (w : World) : w.Notes w := ⟨w.log, rfl, rfl⟩

theorem notes_tell {line : String} (h : isWarning line = false) (w : World) : w.Notes { w with log := line :: w.log } :=
  ⟨_, rfl, by simp [World.warnings, h]⟩

/-! ## What the answer hangs on -/

theorem require_hangs (g : Handler) (o : Except Error ObjectRef) (key : ObjectRef → EventKey) :
    ∃ r : Except Error (Option EventKey), ∀ w : World, (do
      let k? ← (do return some (key (← ofExcept o)) : Effect (Option EventKey))
      match k? with
      | some k => ofExcept (g.require k)
      | none => pure ()
      return k? : Effect (Option EventKey)) w = ofExcept r w := by
  cases o with
  | error e => exact ⟨.error e, fun w => rfl⟩
  | ok o =>
    cases hr : g.require (key o) with
    | error e =>
      refine ⟨.error e, fun w => (bind_of_ok rfl).trans (bind_of_error ?_)⟩
      simp only [hr]
      rfl
    | ok u =>
      refine ⟨.ok (some (key o)), fun w => (bind_of_ok rfl).trans (bind_of_ok (a := u) ?_)⟩
      simp only [hr]
      rfl

theorem key?_hangs (host : Host) (w : World) (s : ChangeSource) (target : Target) (g : Handler) :
    ∃ r, ∀ w' : World, w'.objects = w.objects → s.key? host target g w' = ofExcept r w' := by
  cases s with
  | event e | traced e _ _ =>
    obtain ⟨r, hr⟩ := require_hangs g (target.object host .model) fun o => .named o.name e
    exact ⟨r, fun w' _ => hr w'⟩
  | hidden =>
    obtain ⟨r, hr⟩ := require_hangs g (target.object host .foreign) fun o => .hidden o.name
    exact ⟨r, fun w' _ => hr w'⟩
  | property name =>
    -- The only source that looks at the world: its target has to offer its changes.
    obtain ⟨r, hr⟩ := require_hangs g (target.notifier host.types w) fun o => .changed o.name
    refine ⟨r, fun w' hw => ?_⟩
    have hnotifier : target.notifier host.types w' = target.notifier host.types w := by
      simp [Target.notifier, World.object, hw]
    rw [← hr w', ← hnotifier]
    rfl
  | direct tag => exact ⟨.ok none, fun _ _ => rfl⟩

theorem checkTraced_hangs (s : ChangeSource) (k : EventKey) : ∃ e? : Option Error, (s.letsGo = true → e? = none) ∧
    ∀ w : World, ∃ w', w.Notes w' ∧ s.checkTraced .detach k w = match e? with
      | some e => .error (.failed e) w'
      | none => .ok () w' := by
  cases s with
  | traced e tag fault =>
    cases k with
    | named o e' =>
      have htell (w : World) : w.Notes { w with log := ("unsub " ++ tag ++ " " ++ o) :: w.log } :=
        notes_tell (by simp [isWarning, List.isPrefixOf]) w
      by_cases hfault : fault = some .detach
      · refine ⟨some (.host ("cannot " ++ "unsubscribe " ++ tag)), ?_, fun w => ⟨_, htell w, ?_⟩⟩
        · simp [ChangeSource.letsGo, hfault]
        · simp only [ChangeSource.checkTraced, hfault, if_true]
          exact bind_of_ok rfl
      · refine ⟨none, fun _ => rfl, fun w => ⟨_, htell w, ?_⟩⟩
        simp only [ChangeSource.checkTraced, if_neg hfault]
        exact bind_of_ok rfl
    | _ => exact ⟨none, fun _ => rfl, fun w => ⟨w, notes_refl w, rfl⟩⟩
  | _ => exact ⟨none, fun _ => rfl, fun w => ⟨w, notes_refl w, rfl⟩⟩

/-! ## Handlers that are taken away -/

namespace Trigger

def holdsDirectly (t : Trigger) (h : Handler) : Bool := t.source.isDirect && t.handler.any (·.id = h.id)

/-- Why the handler of the trigger cannot be detached in this world, if it has one that cannot. -/
def refusal? (host : Host) (w : World) (t : Trigger) : Option Error :=
  t.handler.bind fun g => failure? (t.source.detach host t.target g w)

end Trigger

/-- The handlers of the triggers have been taken away, those that were attached directly among them, and these warnings
were given. -/
structure World.Frees (ts : List Trigger) (told : List String) (w w' : World) : Prop extends World.Releases ts w w' where
  directs : w'.direct = w.direct.filter fun d => ts.all fun t => !t.holdsDirectly d.2
  warnings : w'.warnings = told.reverse ++ w.warnings

section
variable {host : Host} {p : Platform} {f : Action → Effect Unit} {w w' w'' : World} {t : Trigger} {g : Handler}
  {ts us : List Trigger} {told told' : List String}

theorem directs_kept (h : ∀ t ∈ ts, t.source.isDirect = false) :
    w.direct = w.direct.filter fun d => ts.all fun t => !t.holdsDirectly d.2 := by
  refine (List.filter_eq_self.mpr fun d _ => List.all_eq_true.mpr fun t ht => ?_).symm
  simp [Trigger.holdsDirectly, h t ht]

theorem frees_nil (h : w.Notes w') : World.Frees [] [] w w' := by
  obtain ⟨log, rfl, hwarnings⟩ := h
  exact ⟨⟨{}, fun k => rfl, List.Subset.refl _⟩, directs_kept (List.forall_mem_nil _), hwarnings⟩

theorem frees_append (h : World.Frees ts told w w') (h' : World.Frees us told' w' w'') :
    World.Frees (ts ++ us) (told ++ told') w w'' where
  toReleases := releases_append h.toReleases h'.toReleases
  directs := by
    rw [h'.directs, h.directs, List.filter_filter]
    congr 1
    funext d
    rw [List.all_append, Bool.and_comm]
  warnings := by rw [h'.warnings, h.warnings, List.reverse_append, List.append_assoc]

theorem frees_warn (line : String) (w : World) :
    World.Frees [] ["WARN " ++ line] w { w with log := ("WARN " ++ line) :: w.log } :=
  ⟨⟨{}, fun k => rfl, List.Subset.refl _⟩, directs_kept (List.forall_mem_nil _), by simp [World.warnings]⟩

theorem World.Frees.setBinding {id : BindingId} {s : Binding} (s' : Binding) (h : World.Frees ts told (w.setBinding id s) w') :
    World.Frees ts told (w.setBinding id s') (w'.setBinding id s') where
  toReleases := h.toReleases.setBinding s'
  directs := h.directs
  warnings := h.warnings

theorem unplaced_frees (hp : t.handler = none ∨ t.place? = none ∧ t.source.isDirect = false) (w : World) :
    World.Frees [t] [] w w where
  toReleases := releases_nothing fun k => by rcases hp with hp | hp <;> simp [heldAt, Trigger.handlerAt, hp]
  directs := by
    refine (List.filter_eq_self.mpr fun d _ => ?_).symm
    rcases hp with hp | hp <;> simp [Trigger.holdsDirectly, hp]
  warnings := rfl

theorem removeHandler_frees {k : EventKey} (hp : t.place? = some k) (hg : t.handler = some g) (w : World) :
    ∃ found w', removeHandler k g.id w = .ok found w' ∧ World.Frees [t] [] w w' := by
  obtain ⟨found, w', hremove, ⟨hs, rfl⟩, hlists⟩ := removeHandler_ok k g w
  have hindirect : t.source.isDirect = false := by
    obtain ⟨target, source, label, handler⟩ := t
    cases source with
    | direct tag => cases target <;> cases hp
    | _ => rfl
  refine ⟨found, _, hremove, releases_one hg {} (List.Subset.refl _) fun k' => ?_, directs_kept ?_, rfl⟩
  · rw [hp]
    simpa using hlists k'
  · simpa using hindirect

theorem direct_frees {tag line : String} (hs : t.source = .direct tag) (hg : t.handler = some g)
    (hline : isWarning line = false) (w : World) :
    World.Frees [t] [] w { w with direct := w.direct.filter fun (_, h) => h.id ≠ g.id, log := line :: w.log } where
  toReleases := by
    have hp : t.place? = none := by simp [Trigger.place?, hs, ChangeSource.place?]
    refine releases_one hg {} (fun d hd => (List.mem_filter.mp hd).1) fun k => ?_
    simp [hp, World.handlersOf]
  directs := by simp [Trigger.holdsDirectly, hs, hg, ChangeSource.isDirect, eq_comm]
  warnings := by simp [World.warnings, hline]

/-! ## Detaching -/

/-- Either every world with these objects refuses the handler, for one reason, or every one lets go of it. -/
theorem detach_hangs (w : World) (hg : t.handler = some g) :
    ∃ e? : Option Error, (t.Ready p w → e? = none) ∧ ∀ w' : World, w'.objects = w.objects → match e? with
      | some e => ∃ w'', t.source.detach ⟨p, f⟩ t.target g w' = .error (.failed e) w'' ∧ w'.Notes w''
      | none => ∃ w'', t.source.detach ⟨p, f⟩ t.target g w' = .ok () w'' ∧ World.Frees [t] [] w' w'' := by
  -- First the event is found, then the source may refuse, and only after both is the event touched.
  obtain ⟨r, hr⟩ := key?_hangs ⟨p, f⟩ w t.source t.target g
  cases r with
  | error e =>
    refine ⟨some e, fun hready => ?_, fun w' hw => ⟨w', bind_of_error (hr w' hw), notes_refl w'⟩⟩
    cases (hready.2 g hg f).symm.trans (hr w rfl)
  | ok key =>
    obtain ⟨-, hkey⟩ := key?_eq_ok (hr w rfl)
    cases hp : t.place? with
    | some k =>
      have hdetach (w' : World) (hw : w'.objects = w.objects) : t.source.detach ⟨p, f⟩ t.target g w' =
          (t.source.checkTraced .detach k >>= fun _ => removeHandler k g.id >>= fun _ => pure ()) w' := by
        unfold ChangeSource.detach
        rw [bind_of_ok (hr w' hw), hkey, show t.source.place? t.target = some k from hp]
      obtain ⟨e?, hgo, hcheck⟩ := checkTraced_hangs t.source k
      refine ⟨e?, fun hready => hgo hready.1, fun w' hw => ?_⟩
      obtain ⟨w₁, hnotes, hw₁⟩ := hcheck w'
      rw [hdetach w' hw]
      cases e? with
      | some e => exact ⟨w₁, bind_of_error hw₁, hnotes⟩
      | none =>
        obtain ⟨found, w₂, hremove, hfrees⟩ := removeHandler_frees hp hg w₁
        exact ⟨w₂, (bind_of_ok hw₁).trans (bind_of_ok hremove), frees_append (frees_nil hnotes) hfrees⟩
    | none =>
      refine ⟨none, fun _ => rfl, fun w' hw => ?_⟩
      unfold ChangeSource.detach
      rw [bind_of_ok (hr w' hw), hkey, show t.source.place? t.target = none from hp]
      cases hs : t.source with
      | direct tag => exact ⟨_, bind_of_ok rfl, direct_frees hs hg (by simp [isWarning, List.isPrefixOf]) w'⟩
      | _ => exact ⟨w', rfl, unplaced_frees (.inr ⟨hp, by rw [hs]; rfl⟩) w'⟩

namespace Trigger

theorem refusal?_congr (t : Trigger) (hw : w'.objects = w.objects) : t.refusal? host w' = t.refusal? host w := by
  unfold refusal?
  cases hg : t.handler with
  | none => rfl
  | some g =>
    obtain ⟨e?, -, h⟩ := detach_hangs (p := host.toPlatform) (f := host.perform) w hg
    have hw' := h w' hw
    have hw := h w rfl
    cases e? with
    | some e =>
      obtain ⟨w₁, h₁, -⟩ := hw
      obtain ⟨w₂, h₂, -⟩ := hw'
      simp [h₁, h₂, failure?]
    | none =>
      obtain ⟨w₁, h₁, -⟩ := hw
      obtain ⟨w₂, h₂, -⟩ := hw'
      simp [h₁, h₂, failure?]

theorem detach_refused {e : Error} (hg : t.handler = some g) (h : t.refusal? host w = some e) :
    ∃ w', t.source.detach host t.target g w = .error (.failed e) w' ∧ w.Notes w' := by
  obtain ⟨e?, -, hhangs⟩ := detach_hangs (p := host.toPlatform) (f := host.perform) w hg
  have hw := hhangs w rfl
  simp only [refusal?, hg, Option.bind_some] at h
  cases e? with
  | some e' =>
    obtain ⟨w', hdetach, hnotes⟩ := hw
    simp only [hdetach, failure?, Option.some.injEq] at h
    exact ⟨w', h ▸ hdetach, hnotes⟩
  | none =>
    obtain ⟨w', hdetach, -⟩ := hw
    simp [hdetach, failure?] at h

theorem detach_freed (hg : t.handler = some g) (h : t.refusal? host w = none) :
    ∃ w', t.source.detach host t.target g w = .ok () w' ∧ World.Frees [t] [] w w' := by
  obtain ⟨e?, -, hhangs⟩ := detach_hangs (p := host.toPlatform) (f := host.perform) w hg
  have hw := hhangs w rfl
  simp only [refusal?, hg, Option.bind_some] at h
  cases e? with
  | some e =>
    obtain ⟨w', hdetach, -⟩ := hw
    simp [hdetach, failure?] at h
  | none => exact hw

theorem Ready.not_refused (ht : t.Ready p w) : t.refusal? ⟨p, f⟩ w = none := by
  cases hr : t.refusal? ⟨p, f⟩ w with
  | none => rfl
  | some e =>
    obtain ⟨g, hg, -⟩ := Option.bind_eq_some_iff.mp hr
    obtain ⟨e?, hready, hhangs⟩ := detach_hangs (p := p) (f := f) w hg
    cases hready ht
    obtain ⟨w₁, hok, -⟩ := hhangs w rfl
    obtain ⟨w₂, hfails, -⟩ := detach_refused hg hr
    cases hok.symm.trans hfails

theorem unsubscribe_refused {e : Error} (h : t.refusal? host w = some e) :
    ∃ w', t.unsubscribe host w = .ok (.error e, t.detached) w' ∧ w.Notes w' := by
  obtain ⟨g, hg, -⟩ := Option.bind_eq_some_iff.mp h
  obtain ⟨w', hdetach, hnotes⟩ := detach_refused hg h
  refine ⟨w', ?_, hnotes⟩
  unfold unsubscribe
  rw [hg]
  exact bind_of_ok (attempt_eq_failed.mpr (bind_of_error hdetach))

theorem unsubscribe_freed (h : t.refusal? host w = none) :
    ∃ w', t.unsubscribe host w = .ok (.ok (), t.detached) w' ∧ World.Frees [t] [] w w' := by
  obtain ⟨target, source, label, handler⟩ := t
  cases handler with
  | none => exact ⟨w, rfl, unplaced_frees (.inl rfl) w⟩
  | some g =>
    obtain ⟨w', hdetach, hfrees⟩ := detach_freed rfl h
    refine ⟨_, bind_of_ok (attempt_eq_ok.mpr (bind_of_ok hdetach)), ?_⟩
    exact frees_append hfrees (frees_nil (notes_tell (by simp [isWarning, List.isPrefixOf]) w'))

end Trigger

/-! ## Lists of triggers -/

def Trigger.protest? (host : Host) (w : World) (t : Trigger) : Option String :=
  (t.refusal? host w).map fun e => "WARN " ++ ("failed to unsubscribe: " ++ e.message ++ " [trigger=" ++ t.label ++ "]")

/-- Those that can be detached, if they have something to detach. -/
def freed (host : Host) (w : World) (ts : List Trigger) : List Trigger := ts.filter fun t => (t.refusal? host w).isNone

def protests (host : Host) (w : World) (ts : List Trigger) : List String := ts.filterMap fun t => t.protest? host w

theorem freed_congr (hw : w'.objects = w.objects) : freed host w' ts = freed host w ts := by
  unfold freed
  congr 1
  funext t
  rw [t.refusal?_congr hw]

theorem protests_congr (hw : w'.objects = w.objects) : protests host w' ts = protests host w ts := by
  unfold protests Trigger.protest?
  congr 1
  funext t
  rw [t.refusal?_congr hw]

theorem freed_ready (h : ∀ t ∈ ts, t.Ready p w) : freed ⟨p, f⟩ w ts = ts :=
  List.filter_eq_self.mpr fun t ht => by simp [(h t ht).not_refused]

theorem unsubscribeAll_frees (host : Host) (ts : List Trigger) (w : World) :
    ∃ w', Trigger.unsubscribeAll host ts w = .ok (ts.map Trigger.detached) w' ∧
      World.Frees (freed host w ts) (protests host w ts) w w' := by
  -- No step changes the objects, so what is refused at the start is what is refused when its turn comes.
  induction ts generalizing w with
  | nil => exact ⟨w, rfl, frees_nil (notes_refl w)⟩
  | cons t ts ih =>
    cases h : t.refusal? host w with
    | some e =>
      obtain ⟨w₁, h₁, hnotes⟩ := Trigger.unsubscribe_refused h
      let line := "failed to unsubscribe: " ++ e.message ++ " [trigger=" ++ t.label ++ "]"
      have hw₁ := frees_append (frees_nil hnotes) (frees_warn line w₁)
      obtain ⟨w₂, h₂, hw₂⟩ := ih { w₁ with log := ("WARN " ++ line) :: w₁.log }
      rw [freed_congr hw₁.objects, protests_congr hw₁.objects] at hw₂
      refine ⟨w₂, (bind_of_ok h₁).trans ((bind_of_ok rfl).trans (bind_of_ok h₂)), ?_⟩
      have hfreed : freed host w (t :: ts) = freed host w ts := by simp [freed, h]
      have hprotests : protests host w (t :: ts) = ("WARN " ++ line) :: protests host w ts := by
        simp [protests, Trigger.protest?, h, line]
      rw [hfreed, hprotests]
      exact frees_append hw₁ hw₂
    | none =>
      obtain ⟨w₁, h₁, hw₁⟩ := Trigger.unsubscribe_freed h
      obtain ⟨w₂, h₂, hw₂⟩ := ih w₁
      rw [freed_congr hw₁.objects, protests_congr hw₁.objects] at hw₂
      refine ⟨w₂, (bind_of_ok h₁).trans ((bind_of_ok rfl).trans (bind_of_ok h₂)), ?_⟩
      have hfreed : freed host w (t :: ts) = t :: freed host w ts := by simp [freed, h]
      have hprotests : protests host w (t :: ts) = protests host w ts := by simp [protests, Trigger.protest?, h]
      rw [hfreed, hprotests]
      exact frees_append hw₁ hw₂

end

end DataBinding
