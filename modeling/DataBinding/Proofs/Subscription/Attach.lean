import DataBinding.Proofs.Binding.Dispose
import DataBinding.Proofs.Run.Regime
import DataBinding.Proofs.Subscription.Interleave
import DataBinding.Proofs.Trigger.Subscribe

/-!
# Attaching and detaching

What subscribing does to the handler lists, exactly: every trigger that is subscribed puts one new handler at the end of
the list of its event (`subscribeAll_ok`), and one that fails leaves the lists alone (`subscribeAll_error`).
-/

namespace DataBinding

open Effect

def ChangeSource.place? : ChangeSource → Target → Option EventKey
  | event e, .value (.object r) => some (.named r.name e)
  | traced e _ _, .value (.object r) => some (.named r.name e)
  | hidden, .value (.object r) => some (.hidden r.name)
  | property _, .value (.object r) => some (.changed r.name)
  | _, _ => none

def ChangeSource.response : ChangeSource → Action → Response
  | property name, a => .onProperty name a
  | _, a => .always a

/-- Whether handlers can always be detached. -/
def ChangeSource.letsGo : ChangeSource → Bool
  | traced _ _ fault => fault ≠ some .detach
  | _ => true

namespace Trigger

def place? (t : Trigger) : Option EventKey := t.source.place? t.target

def handlerAt (k : EventKey) (t : Trigger) : Option Handler := if t.place? = some k then t.handler else none

end Trigger

def heldAt (k : EventKey) (ts : List Trigger) : List Handler := ts.filterMap (Trigger.handlerAt k)

theorem heldAt_append (k : EventKey) (ts us : List Trigger) : heldAt k (ts ++ us) = heldAt k ts ++ heldAt k us :=
  List.filterMap_append ..

theorem mem_heldAt {k : EventKey} {ts : List Trigger} {h : Handler} :
    h ∈ heldAt k ts ↔ ∃ t ∈ ts, t.place? = some k ∧ t.handler = some h := by
  unfold heldAt Trigger.handlerAt
  simp only [List.mem_filterMap]
  constructor
  · rintro ⟨t, ht, hh⟩
    split at hh
    · exact ⟨t, ht, ‹_›, hh⟩
    · cases hh
  · rintro ⟨t, ht, hp, hh⟩
    exact ⟨t, ht, by rw [if_pos hp, hh]⟩

/-! ## Finding the event -/

section
variable {host : Host} {w w' : World}

theorem event?_eq_ok {s : ChangeSource} {target : Target} {key : Option EventKey}
    (h : s.event? host target w = .ok key w') : w' = w ∧ key = s.place? target := by
  have hobject {wanted : ObjectKind} {r : ObjectRef} (ho : target.object host wanted = .ok r) :
      target = .value (.object r) := by
    cases target with
    | type t => cases ho
    | value v =>
      cases v with
      | object o =>
        unfold Target.object Host.downcast at ho
        simp only at ho
        split at ho
        · cases ho
          rfl
        · cases ho
      | _ => cases ho
  have hnotifier {r : ObjectRef} (ho : target.notifier host.types w = .ok r) : target = .value (.object r) := by
    unfold Target.notifier at ho
    simp only at ho
    split at ho
    · split at ho
      · cases ho
        rfl
      · cases ho
    · cases ho
  cases s with
  | property name =>
    obtain ⟨_, _, hg, h⟩ := bind_eq_ok.mp h
    cases hg
    obtain ⟨r, w₁, hr, hreturn⟩ := bind_eq_ok.mp h
    obtain ⟨hfound, rfl⟩ := ofExcept_eq_ok.mp hr
    cases hreturn
    cases hnotifier hfound
    exact ⟨rfl, rfl⟩
  | direct tag =>
    cases h
    exact ⟨rfl, by cases target <;> rfl⟩
  | _ =>
    obtain ⟨r, w₁, hr, hreturn⟩ := bind_eq_ok.mp h
    obtain ⟨hfound, rfl⟩ := ofExcept_eq_ok.mp hr
    cases hreturn
    cases hobject hfound
    exact ⟨rfl, rfl⟩

theorem key?_eq_ok {s : ChangeSource} {target : Target} {g : Handler} {key : Option EventKey}
    (h : s.key? host target g w = .ok key w') : w' = w ∧ key = s.place? target := by
  obtain ⟨key', w₁, hevent, h⟩ := bind_eq_ok.mp h
  obtain ⟨rfl, rfl⟩ := event?_eq_ok hevent
  cases hp : s.place? target with
  | none =>
    rw [hp] at h
    cases h
    exact ⟨rfl, rfl⟩
  | some k =>
    rw [hp] at h
    obtain ⟨u, w₂, hr, h⟩ := bind_eq_ok.mp h
    obtain ⟨-, rfl⟩ := ofExcept_eq_ok.mp hr
    cases h
    exact ⟨rfl, rfl⟩

/-- Finding the event hangs on the platform, and on which objects tell about changes. -/
theorem key?_congr {p : Platform} {f f' : Action → Effect Unit} {s : ChangeSource} {target : Target} {g : Handler}
    {key : Option EventKey} (hoffers : ∀ o, (w'.object o).offersChanges = (w.object o).offersChanges)
    (h : s.key? ⟨p, f⟩ target g w = .ok key w) : s.key? ⟨p, f'⟩ target g w' = .ok key w' := by
  obtain ⟨key', w₁, hevent, hrequire⟩ := bind_eq_ok.mp h
  obtain ⟨rfl, -⟩ := event?_eq_ok hevent
  have hevent' : s.event? ⟨p, f'⟩ target w' = .ok key' w' := by
    cases s with
    | property name =>
      obtain ⟨_, _, hg, hevent⟩ := bind_eq_ok.mp hevent
      cases hg
      obtain ⟨r, w₂, hr, hevent⟩ := bind_eq_ok.mp hevent
      obtain ⟨hfound, rfl⟩ := ofExcept_eq_ok.mp hr
      cases hevent
      have hfound' : target.notifier p.types w' = .ok r := by
        rw [← hfound]
        unfold Target.notifier
        simp only [hoffers]
      exact (bind_of_ok rfl).trans (bind_of_ok (ofExcept_eq_ok.mpr ⟨hfound', rfl⟩))
    | direct tag =>
      cases hevent
      rfl
    | _ =>
      obtain ⟨r, w₂, hr, hevent⟩ := bind_eq_ok.mp hevent
      obtain ⟨hfound, rfl⟩ := ofExcept_eq_ok.mp hr
      cases hevent
      exact bind_of_ok (ofExcept_eq_ok.mpr ⟨hfound, rfl⟩)
  refine (bind_of_ok hevent').trans ?_
  cases key' with
  | none =>
    cases hrequire
    rfl
  | some k =>
    obtain ⟨u, w₂, hr, hrequire⟩ := bind_eq_ok.mp hrequire
    obtain ⟨hfits, -⟩ := ofExcept_eq_ok.mp hr
    cases hrequire
    exact bind_of_ok (ofExcept_eq_ok.mpr ⟨hfits, rfl⟩)

end

/-! ## Subscribing -/

def ChangeSource.isDirect : ChangeSource → Bool
  | direct _ => true
  | _ => false

/-- Only handlers, numbers and the log have changed. -/
structure World.Relists (w w' : World) : Prop where
  objects : w'.objects = w.objects := by rfl
  bindings : w'.bindings = w.bindings := by rfl
  namedBindings : w'.namedBindings = w.namedBindings := by rfl
  namedHandlers : w'.namedHandlers = w.namedHandlers := by rfl
  listenings : w'.listenings = w.listenings := by rfl
  next : w.next ≤ w'.next := by exact Nat.le_refl _

theorem relists_chains : Chains World.Relists where
  refl _ := {}
  trans h h' := {
    objects := h'.objects.trans h.objects
    bindings := h'.bindings.trans h.bindings
    namedBindings := h'.namedBindings.trans h.namedBindings
    namedHandlers := h'.namedHandlers.trans h.namedHandlers
    listenings := h'.listenings.trans h.listenings
    next := Nat.le_trans h.next h'.next }

/-- The triggers have been subscribed to an action, one after the other, and nothing else has happened. -/
structure World.Attaches (p : Platform) (a : Action) (ts : List Trigger) (w w' : World) : Prop
    extends World.Relists w w' where
  lists : ∀ k, w'.handlersOf k = w.handlersOf k ++ heldAt k ts
  direct : (∀ t ∈ ts, t.source.isDirect = false) → w'.direct = w.direct
  fresh : ∀ g ∈ ts.filterMap Trigger.handler, w.next ≤ g.id ∧ g.id < w'.next
  nodup : ((ts.filterMap Trigger.handler).map Handler.id).Nodup
  touches : ∀ g ∈ ts.filterMap Trigger.handler, g.Touches = a.Touches
  made : ∀ t ∈ ts, ∀ g ∈ t.handler, g.response = t.source.response a
  ready : ∀ t ∈ ts, ∃ g, t.handler = some g ∧ ∀ f, t.source.key? ⟨p, f⟩ t.target g w' = .ok t.place? w'

section
variable {p : Platform} {f : Action → Effect Unit} {a : Action} {w w' w'' : World} {ts us : List Trigger}

theorem attaches_nil (h : w.Relists w') (hlists : w'.handlers = w.handlers) (hdirect : w'.direct = w.direct) :
    World.Attaches p a [] w w' where
  toRelists := h
  lists k := by simp [World.handlersOf, hlists, heldAt]
  direct _ := hdirect
  fresh := List.forall_mem_nil _
  nodup := List.nodup_nil
  touches := List.forall_mem_nil _
  made := List.forall_mem_nil _
  ready := List.forall_mem_nil _

theorem attaches_append (h : World.Attaches p a ts w w') (h' : World.Attaches p a us w' w'') :
    World.Attaches p a (ts ++ us) w w'' where
  toRelists := relists_chains.trans h.toRelists h'.toRelists
  lists k := by rw [h'.lists, h.lists, heldAt_append, List.append_assoc]
  direct hd := by
    rw [h'.direct fun t ht => hd t (List.mem_append_right _ ht), h.direct fun t ht => hd t (List.mem_append_left _ ht)]
  fresh g hg := by
    rw [List.filterMap_append] at hg
    rcases List.mem_append.mp hg with hg | hg
    · exact ⟨(h.fresh g hg).1, Nat.lt_of_lt_of_le (h.fresh g hg).2 h'.next⟩
    · exact ⟨Nat.le_trans h.next (h'.fresh g hg).1, (h'.fresh g hg).2⟩
  nodup := by
    rw [List.filterMap_append, List.map_append, List.nodup_append]
    refine ⟨h.nodup, h'.nodup, fun i hi j hj hij => ?_⟩
    obtain ⟨g, hg, rfl⟩ := List.mem_map.mp hi
    obtain ⟨g', hg', rfl⟩ := List.mem_map.mp hj
    have hlt := (h.fresh g hg).2
    have hle := (h'.fresh g' hg').1
    omega
  touches g hg := by
    rw [List.filterMap_append] at hg
    exact (List.mem_append.mp hg).elim (h.touches g) (h'.touches g)
  made t ht := (List.mem_append.mp ht).elim (h.made t) (h'.made t)
  ready t ht := by
    rcases List.mem_append.mp ht with ht | ht
    · obtain ⟨g, hg, hkey⟩ := h.ready t ht
      refine ⟨g, hg, fun f => key?_congr (fun o => ?_) (hkey f)⟩
      unfold World.object
      rw [h'.objects]
    · exact h'.ready t ht

theorem createHandler_returns (s : ChangeSource) (a : Action) (w : World) : ∃ g w', s.createHandler a w = .ok g w' := by
  cases s <;> exact ⟨_, _, rfl⟩

theorem createHandler_eq_ok {s : ChangeSource} {g : Handler} (h : s.createHandler a w = .ok g w') :
    g.id = w.next ∧ g.Touches = a.Touches ∧ g.response = s.response a ∧
      ∃ log, w' = { w with next := w.next + 1, log := log } := by
  cases s with
  | traced e tag fault =>
    obtain ⟨u, w₁, ht, h⟩ := bind_eq_ok.mp h
    cases ht
    cases h
    exact ⟨rfl, rfl, rfl, _, rfl⟩
  | _ =>
    cases h
    exact ⟨rfl, rfl, rfl, _, rfl⟩

def World.Logs (w w' : World) : Prop := ∃ log, w' = { w with log := log }

theorem logs_chains : Chains World.Logs where
  refl w := ⟨w.log, rfl⟩
  trans := by
    rintro w _ _ ⟨log, rfl⟩ ⟨log', rfl⟩
    exact ⟨log', rfl⟩

theorem tell_logs {E : Stop → Prop} (line : String) : Always World.Logs E (tell line) := always_modify fun _ => ⟨_, rfl⟩

theorem attach_eq_ok {s : ChangeSource} {target : Target} {g : Handler} {u : Unit}
    (h : s.attach ⟨p, f⟩ target g w = .ok u w') :
    (∃ hs ds log, w' = { w with handlers := hs, direct := ds, log := log }) ∧
      (∀ k, w'.handlersOf k = w.handlersOf k ++ if s.place? target = some k then [g] else []) ∧
      (s.isDirect = false → w'.direct = w.direct) ∧ s.key? ⟨p, f⟩ target g w = .ok (s.place? target) w := by
  obtain ⟨key, w₁, hkey, h⟩ := bind_eq_ok.mp h
  obtain ⟨rfl, rfl⟩ := key?_eq_ok hkey
  cases hp : s.place? target with
  | some k =>
    rw [hp] at h
    obtain ⟨u, w₂, hcheck, h⟩ := bind_eq_ok.mp h
    obtain ⟨log, rfl⟩ := (checkTraced_always logs_chains tell_logs s .attach k).ok _ _ _ hcheck
    cases modify_eq_ok.mp h
    refine ⟨⟨_, _, _, rfl⟩, fun k' => ?_, fun _ => rfl, hp ▸ hkey⟩
    rw [World.handlersOf_setHandlers]
    by_cases hk : k = k'
    · subst hk
      simp [World.handlersOf]
    · simp [hk, World.handlersOf]
  | none =>
    rw [hp] at h
    cases s with
    | direct tag =>
      obtain ⟨u, w₂, ht, h⟩ := bind_eq_ok.mp h
      cases ht
      cases modify_eq_ok.mp h
      exact ⟨⟨_, _, _, rfl⟩, fun k' => (List.append_nil _).symm, (fun hd => by cases hd), hp ▸ hkey⟩
    | _ =>
      cases h
      exact ⟨⟨_, _, _, rfl⟩, fun k' => (List.append_nil _).symm, fun _ => rfl, hp ▸ hkey⟩

theorem attach_error {s : ChangeSource} {target : Target} {g : Handler} {e : Stop}
    (h : s.attach ⟨p, f⟩ target g w = .error e w') : IsFailure e ∧ w.Logs w' := by
  -- Only finding the event and the check of a traced source can fail, and both come before the list is touched.
  obtain hkey | ⟨key, w₁, hkey, h⟩ := bind_eq_error.mp h
  · exact (key?_always logs_chains s target g).error _ _ _ hkey
  · obtain ⟨rfl, rfl⟩ := key?_eq_ok hkey
    cases hp : s.place? target with
    | some k =>
      rw [hp] at h
      obtain hcheck | ⟨u, w₂, -, hadd⟩ := bind_eq_error.mp h
      · exact (checkTraced_always logs_chains tell_logs s .attach k).error _ _ _ hcheck
      · cases hadd
    | none =>
      rw [hp] at h
      cases s with
      | direct tag => cases h
      | _ => cases h

theorem attaches_one {s : ChangeSource} {target : Target} {label : String} {g : Handler} {u : Unit}
    (hcreate : s.createHandler a w = .ok g w') (hattach : s.attach ⟨p, f⟩ target g w' = .ok u w'') {w₃ : World}
    (htell : w''.Logs w₃) : World.Attaches p a [⟨target, s, label, some g⟩] w w₃ := by
  obtain ⟨hid, htouches, hresponse, log, rfl⟩ := createHandler_eq_ok hcreate
  obtain ⟨⟨hs, ds, log', rfl⟩, hlists, hdirect, hkey⟩ := attach_eq_ok hattach
  obtain ⟨log'', rfl⟩ := htell
  refine ⟨{ next := Nat.le_succ _ }, fun k => ?_, fun hd => ?_, ?_, ?_, ?_, ?_, ?_⟩
  · refine (hlists k).trans ?_
    unfold heldAt Trigger.handlerAt Trigger.place?
    by_cases hk : s.place? target = some k
    · simp [hk, World.handlersOf]
    · simp [hk, World.handlersOf]
  · exact hdirect (hd ⟨target, s, label, some g⟩ List.mem_cons_self)
  · intro g' hg'
    cases List.mem_singleton.mp hg'
    rw [hid]
    exact ⟨Nat.le_refl _, Nat.lt_succ_self _⟩
  · simp
  · intro g' hg'
    cases List.mem_singleton.mp hg'
    exact htouches
  · intro t' ht' g' hg'
    cases List.mem_singleton.mp ht'
    cases hg'
    exact hresponse
  · intro t' ht'
    cases List.mem_singleton.mp ht'
    refine ⟨g, rfl, fun f' => key?_congr ?_ hkey⟩
    exact fun _ => rfl

namespace Trigger

theorem subscribe_ok {t t' : Trigger} (ht : t.handler = none) (h : t.subscribe ⟨p, f⟩ a w = .ok (.ok (), t') w') :
    World.Attaches p a [t'] w w' ∧ t'.detached = t := by
  obtain ⟨g, hnew, rfl⟩ := (subscribe_eq_ok ht).mp h
  obtain ⟨g', w₁, hcreate, hnew⟩ := bind_eq_ok.mp hnew
  obtain ⟨u, w₂, hattach, hnew⟩ := bind_eq_ok.mp hnew
  obtain ⟨u, w₃, htell, hnew⟩ := bind_eq_ok.mp hnew
  cases htell
  cases hnew
  refine ⟨attaches_one hcreate hattach ⟨_, rfl⟩, ?_⟩
  show { t with handler := none } = t
  rw [← ht]

theorem attachNew_error {t : Trigger} {e : Stop} (h : t.attachNew ⟨p, f⟩ a w = .error e w') :
    IsFailure e ∧ World.Attaches p a [] w w' := by
  obtain ⟨g, w₁, hcreate⟩ := createHandler_returns t.source a w
  replace h := (bind_of_ok hcreate).symm.trans h
  obtain ⟨-, -, -, log, rfl⟩ := createHandler_eq_ok hcreate
  obtain hattach | ⟨u, w₂, -, htell⟩ := bind_eq_error.mp h
  · obtain ⟨hfailure, log', rfl⟩ := attach_error hattach
    exact ⟨hfailure, attaches_nil { next := Nat.le_succ _ } rfl rfl⟩
  · cases htell

theorem subscribe_error {t t' : Trigger} {e : Error} (ht : t.handler = none)
    (h : t.subscribe ⟨p, f⟩ a w = .ok (.error e, t') w') : World.Attaches p a [] w w' := by
  obtain ⟨hnew, -⟩ := (subscribe_eq_refused ht).mp h
  exact (attachNew_error hnew).2

/-- Subscribing gives an outcome, also where it goes wrong. -/
theorem subscribe_returns {t : Trigger} (ht : t.handler = none) {e : Stop} : t.subscribe ⟨p, f⟩ a w ≠ .error e w' := by
  intro h
  exact absurd rfl (attachNew_error (subscribe_error_exhausted ht h)).1

theorem subscribeAll_ok {ts ts' : List Trigger} (hts : ∀ t ∈ ts, t.handler = none)
    (h : subscribeAll ⟨p, f⟩ a ts w = .ok ts' w') : World.Attaches p a ts' w w' ∧ ts'.map detached = ts := by
  induction ts generalizing w ts' with
  | nil =>
    cases h
    exact ⟨attaches_nil {} rfl rfl, rfl⟩
  | cons t ts ih =>
    obtain ⟨t₁, w₁, us, hsub, hrest, rfl⟩ := subscribeAll_cons_eq_ok.mp h
    obtain ⟨h₁, ht₁⟩ := subscribe_ok (hts t List.mem_cons_self) hsub
    obtain ⟨h₂, hts₂⟩ := ih (fun t ht => hts t (List.mem_cons_of_mem _ ht)) hrest
    exact ⟨attaches_append h₁ h₂, by rw [List.map_cons, ht₁, hts₂]⟩

theorem subscribeAll_isFailure {ts : List Trigger} {e : Stop} (hts : ∀ t ∈ ts, t.handler = none)
    (h : subscribeAll ⟨p, f⟩ a ts w = .error e w') : IsFailure e := by
  induction ts generalizing w with
  | nil => cases h
  | cons t ts ih =>
    obtain hsub | ⟨e', t', rfl, -⟩ | ⟨t', w₁, -, hrest⟩ := subscribeAll_cons_error h
    · exact absurd hsub (subscribe_returns (hts t List.mem_cons_self))
    · nofun
    · exact ih (fun t ht => hts t (List.mem_cons_of_mem _ ht)) hrest

/-- Where one trigger cannot be subscribed, those before it stay subscribed. -/
theorem subscribeAll_error {ts : List Trigger} {e : Error} (hts : ∀ t ∈ ts, t.handler = none)
    (h : subscribeAll ⟨p, f⟩ a ts w = .error (.failed e) w') :
    ∃ us t rest, World.Attaches p a us w w' ∧ ts = us.map detached ++ t :: rest ∧
      ∃ t' w₁, t.subscribe ⟨p, f⟩ a w₁ = .ok (.error e, t') w' := by
  induction ts generalizing w with
  | nil => cases h
  | cons t ts ih =>
    have ht := hts t List.mem_cons_self
    obtain hsub | ⟨e', t₁, he, hsub⟩ | ⟨t₁, w₁, hsub, hrest⟩ := subscribeAll_cons_error h
    · exact absurd hsub (subscribe_returns ht)
    · cases he
      exact ⟨[], t, ts, subscribe_error ht hsub, rfl, t₁, w, hsub⟩
    · obtain ⟨h₁, ht₁⟩ := subscribe_ok ht hsub
      obtain ⟨us, t', rest, h₂, rfl, hrefused⟩ := ih (fun t ht => hts t (List.mem_cons_of_mem _ ht)) hrest
      exact ⟨t₁ :: us, t', rest, attaches_append h₁ h₂, by rw [List.map_cons, ht₁]; rfl, hrefused⟩

end Trigger

end

/-! ## Unsubscribing -/

/-- Handlers of the trigger find the way to their event and are let go there. -/
def Trigger.Ready (p : Platform) (w : World) (t : Trigger) : Prop :=
  t.source.letsGo = true ∧ ∀ g, t.handler = some g → ∀ f, t.source.key? ⟨p, f⟩ t.target g w = .ok t.place? w

/-- The handlers of the triggers have been taken away, one after the other, and nothing else has happened. -/
structure World.Releases (ts : List Trigger) (w w' : World) : Prop extends World.Relists w w' where
  lists : ∀ k, w'.handlersOf k = (heldAt k ts).foldl HandlerList.remove (w.handlersOf k)
  direct : w'.direct ⊆ w.direct

section
variable {p : Platform} {f : Action → Effect Unit} {w w' w'' : World} {ts us : List Trigger}

theorem Trigger.Ready.mono {t : Trigger} (hoffers : ∀ o, (w'.object o).offersChanges = (w.object o).offersChanges)
    (h : t.Ready p w) : t.Ready p w' :=
  ⟨h.1, fun g hg f => key?_congr hoffers (h.2 g hg f)⟩

theorem Trigger.Ready.setBinding {t : Trigger} (h : t.Ready p w) (id : BindingId) (s : Binding) :
    t.Ready p (w.setBinding id s) := by
  apply h.mono
  exact fun _ => rfl

theorem releases_append (h : World.Releases ts w w') (h' : World.Releases us w' w'') :
    World.Releases (ts ++ us) w w'' where
  toRelists := relists_chains.trans h.toRelists h'.toRelists
  lists k := by rw [h'.lists, h.lists, heldAt_append, List.foldl_append]
  direct := List.Subset.trans h'.direct h.direct

theorem releases_nothing (h : ∀ k, heldAt k ts = []) : World.Releases ts w w where
  lists k := by rw [h, List.foldl_nil]
  direct := List.Subset.refl _

theorem releases_one {t : Trigger} {g : Handler} (hg : t.handler = some g) (h : w.Relists w') (hdirect : w'.direct ⊆ w.direct)
    (hlists : ∀ k, w'.handlersOf k =
      if t.place? = some k then HandlerList.remove (w.handlersOf k) g else w.handlersOf k) :
    World.Releases [t] w w' where
  toRelists := h
  lists k := by
    rw [hlists k]
    unfold heldAt Trigger.handlerAt
    by_cases hk : t.place? = some k
    · simp [hk, hg]
    · simp [hk]
  direct := hdirect

/-- What a binding becomes while it lets go is no matter. -/
theorem World.Releases.setBinding {id : BindingId} {s : Binding} (s' : Binding) (h : World.Releases ts (w.setBinding id s) w') :
    World.Releases ts (w.setBinding id s') (w'.setBinding id s') where
  objects := h.objects
  bindings := by
    show w'.bindings.insert id s' = w.bindings.insert id s'
    rw [h.bindings]
    exact Table.insert_insert _ _ _ _
  namedBindings := h.namedBindings
  namedHandlers := h.namedHandlers
  listenings := h.listenings
  next := h.next
  lists := h.lists
  direct := h.direct

theorem removeHandler_ok (k : EventKey) (g : Handler) (w : World) : ∃ found w', removeHandler k g.id w = .ok found w' ∧
    (∃ hs, w' = { w with handlers := hs }) ∧
      ∀ k', w'.handlersOf k' = if k = k' then HandlerList.remove (w.handlersOf k') g else w.handlersOf k' := by
  rw [removeHandler_run]
  unfold HandlerList.remove
  cases hr : HandlerList.removeLatest? g.id (w.handlersOf k) with
  | some hs =>
    refine ⟨true, _, rfl, ⟨_, rfl⟩, fun k' => ?_⟩
    rw [World.handlersOf_setHandlers]
    by_cases hk : k = k'
    · subst hk
      simp [hr]
    · simp [hk]
  | none =>
    refine ⟨false, w, rfl, ⟨_, rfl⟩, fun k' => ?_⟩
    by_cases hk : k = k'
    · subst hk
      simp [hr]
    · simp [hk]

end

end DataBinding
