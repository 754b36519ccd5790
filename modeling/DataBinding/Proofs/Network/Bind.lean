import DataBinding.Proofs.Network.Endpoint

/-!
# Binding two endpoints

Once the first value has been carried over, a two-way binding subscribes to its right side and then to its left one,
and nothing can go wrong with that (`create_joins`).
-/

namespace DataBinding

open Effect Compile

/-- The binding has been given handlers for both sides, and nothing else has changed but the log. -/
structure Joins (types : TypeTable) (id : BindingId) (b : EqualityBinding) (l r : Endpoint) (w w' : World) : Prop where
  objects : w'.objects = w.objects
  assignments : w'.assignments = w.assignments
  jobs : w'.jobs = w.jobs
  next : w'.next = w.next + 2
  handlersOf : ∀ k g, g ∈ w'.handlersOf k ↔ g ∈ w.handlersOf k ∨
    k = .changed r.object.name ∧
      g = ⟨w.next, .property, .onProperty r.member.name (.follow id (r.source types) (l.target types))⟩ ∨
    k = .changed l.object.name ∧
      g = ⟨w.next + 1, .property, .onProperty l.member.name (.follow id (l.source types) (r.target types))⟩
  others : ∀ id', id' ≠ id → w'.bindings.find? id' = w.bindings.find? id'
  own : ∃ left right, w'.equality? id = some { b with left, right } ∧ ∀ g ∈ (left ++ right).filterMap Trigger.handler,
    g.id = w.next + 1 ∨ g.id = w.next

theorem EqualityBinding.building_of_ok {host : Host} {id : BindingId} {x : Compile Unit} {w : World} {s : Workbench}
    (h : x ⟨w, .empty⟩ = .ok () s) : building host id x w = .ok id s.world :=
  (bind_of_ok (withReceivers_of_ok h)).trans rfl

theorem Compile.lift_of_ok {α : Type} {x : Effect α} {a : α} {s : Workbench} {w : World} (h : x s.world = .ok a w) :
    lift x s = .ok a ⟨w, s.receivers⟩ := by
  unfold lift
  rw [h]

namespace Endpoint

variable {host : Host} {config : Configuration} {t u : TypeId} {l r : Endpoint}

theorem Loud.observe_eq {e : Endpoint} (he : e.Loud host.types config t) {s : Workbench} (hm : e.Meets s)
    (ho : (s.world.object e.object.name).offersChanges = true) (id : BindingId) (source : Getter) (target : Setter) :
    ∃ w', EqualityBinding.observe host config id e.expr source target s =
        .ok [e.listening host.types s.world (.follow id source target)] ⟨w', (e.meet s).receivers⟩ ∧
      e.Subscribed (.follow id source target) s.world w' := by
  obtain ⟨w', hs, hsub⟩ := he.subscribeAll_eq (w := s.world) ho (.follow id source target)
  refine ⟨w', ?_, hsub⟩
  unfold EqualityBinding.observe
  rw [bind_of_ok (he.triggers_eq hm)]
  refine lift_of_ok ?_
  rw [e.meet_world]
  exact hs

/-- Both endpoints meet what has been resolved. -/
structure Fitting (l r : Endpoint) (s : Workbench) : Prop where
  shared : l.node = r.node → l.object = r.object
  left : l.Meets s
  right : r.Meets s

theorem Fitting.meet_left {s : Workbench} (h : Fitting l r s) : Fitting l r (l.meet s) where
  shared := h.shared
  left := meets_meet (fun _ => rfl) h.left
  right := meets_meet (fun hn => (h.shared hn.symm).symm) h.right

theorem Fitting.meet_right {s : Workbench} (h : Fitting l r s) : Fitting l r (r.meet s) where
  shared := h.shared
  left := meets_meet h.shared h.left
  right := meets_meet (fun _ => rfl) h.right

theorem Fitting.at_world {s : Workbench} (h : Fitting l r s) (w : World) : Fitting l r ⟨w, s.receivers⟩ :=
  ⟨h.shared, h.left, h.right⟩

theorem fitting_empty (hnode : l.node = r.node → l.object = r.object) (w : World) : Fitting l r ⟨w, .empty⟩ := by
  refine ⟨hnode, ?_, ?_⟩
  · rintro a ⟨⟩
  · rintro a ⟨⟩

theorem start_lifted {s : Workbench} {id : BindingId} {flags : Flags} {done : Bool} {w : World}
    (hstart : EqualityBinding.start host id flags (r.source host.types) (l.target host.types) s.world = .ok done w) :
    lift (EqualityBinding.start host id flags (r.source host.types) (l.target host.types)) (r.meet (l.meet s)) =
      .ok done ⟨w, (r.meet (l.meet s)).receivers⟩ := by
  refine lift_of_ok ?_
  rw [meet_world, meet_world]
  exact hstart

section
variable (hl : l.Loud host.types config t) (hr : r.Loud host.types config u)
include hl hr

theorem bindLeft_of_start {s : Workbench} (hs : Fitting l r s) {id : BindingId} {flags : Flags} {w : World}
    (hstart : EqualityBinding.start host id flags (r.source host.types) (l.target host.types) s.world = .ok false w)
    (ho : (w.object r.object.name).offersChanges = true) {a : Action}
    (ha : a = .follow id (r.source host.types) (l.target host.types)) :
    ∃ w' s', r.Subscribed a w w' ∧ EqualityBinding.bindLeft host config id flags l.expr r.expr s = .ok (false, true) s' ∧
      Fitting l r s' ∧
      s'.world = w'.updateEquality id fun b => { b with right := [r.listening host.types w a] } := by
  subst ha
  have hs₁ := hs.meet_left
  have hs₂ : Fitting l r ⟨w, (r.meet (l.meet s)).receivers⟩ := hs₁.meet_right.at_world w
  obtain ⟨w', hobserve, hsub⟩ := hr.observe_eq hs₂.right ho id (r.source host.types) (l.target host.types)
  refine ⟨w', ⟨w'.updateEquality id _, (r.meet ⟨w, (r.meet (l.meet s)).receivers⟩).receivers⟩, hsub, ?_, ?_, rfl⟩
  · unfold EqualityBinding.bindLeft
    rw [bind_of_ok (hl.setter?_eq hs.left)]
    simp only
    rw [bind_of_ok (hr.getterOrFallback_eq hs₁.right)]
    refine (bind_of_ok (start_lifted hstart)).trans ?_
    simp only [Bool.false_eq_true, if_false]
    rw [bind_of_ok hobserve]
    rfl
  · exact hs₂.meet_right.at_world _

theorem bindRight_of_bound {s : Workbench} (hs : Fitting l r s) (id : BindingId) (flags : Flags)
    (ho : (s.world.object l.object.name).offersChanges = true) {a : Action}
    (ha : a = .follow id (l.source host.types) (r.target host.types)) :
    ∃ w' s', l.Subscribed a s.world w' ∧
      EqualityBinding.bindRight host config id flags l.expr r.expr true s = .ok false s' ∧
      s'.world = w'.updateEquality id fun b => { b with left := [l.listening host.types s.world a] } := by
  subst ha
  have hs₁ := hs.meet_right
  have hs₂ := hs₁.meet_left
  have hworld : (l.meet (r.meet s)).world = s.world := (meet_world _ _).trans (meet_world _ _)
  obtain ⟨w', hobserve, hsub⟩ := hl.observe_eq hs₂.left (hworld.symm ▸ ho) id (l.source host.types) (r.target host.types)
  rw [hworld] at hsub hobserve
  refine ⟨w', ⟨w'.updateEquality id _, (l.meet (l.meet (r.meet s))).receivers⟩, hsub, ?_, rfl⟩
  unfold EqualityBinding.bindRight
  rw [bind_of_ok (hr.setter?_eq hs.right)]
  simp only
  rw [bind_of_ok (hl.getterOrFallback_eq hs₁.left)]
  simp only [Bool.not_true, Bool.false_eq_true, if_false]
  rw [bind_of_ok hobserve]
  rfl

theorem bindLeft_finished {s : Workbench} (hs : Fitting l r s) {id : BindingId} {flags : Flags} {w : World}
    (hstart : EqualityBinding.start host id flags (r.source host.types) (l.target host.types) s.world = .ok true w) :
    EqualityBinding.bindLeft host config id flags l.expr r.expr s =
      .ok (true, true) ⟨w, (r.meet (l.meet s)).receivers⟩ := by
  unfold EqualityBinding.bindLeft
  rw [bind_of_ok (hl.setter?_eq hs.left)]
  simp only
  rw [bind_of_ok (hr.getterOrFallback_eq hs.meet_left.right)]
  exact (bind_of_ok (start_lifted hstart)).trans rfl

/-- A binding that is done with the first value observes nothing. -/
theorem create_finished {flags : Flags} (hnode : l.node = r.node → l.object = r.object) {w w₁ : World}
    (hstart : EqualityBinding.start host ⟨w.next⟩ flags (r.source host.types) (l.target host.types)
      (w.registering { dispatcher := config.assignments, flags }) = .ok true w₁) :
    EqualityBinding.create host config flags l.expr r.expr w = .ok ⟨w.next⟩ w₁ := by
  have hs := fitting_empty hnode (w.registering { dispatcher := config.assignments, flags })
  obtain ⟨s, hsides, hw⟩ : ∃ s, EqualityBinding.bindSides host config ⟨w.next⟩ flags l.expr r.expr
      ⟨w.registering { dispatcher := config.assignments, flags }, .empty⟩ = .ok () s ∧ s.world = w₁ := by
    unfold EqualityBinding.bindSides
    rw [bind_of_ok (bindLeft_finished hl hr hs hstart)]
    exact ⟨_, rfl, rfl⟩
  have hconstant : EqualityBinding.isConstantPair l.expr r.expr = false := rfl
  unfold EqualityBinding.create
  simp only [hconstant, Bool.false_eq_true, if_false]
  rw [← hw]
  exact EqualityBinding.building_of_ok hsides

theorem create_joins {flags : Flags} (htwo : flags.isTwoWay = true) (hnode : l.node = r.node → l.object = r.object)
    {w w₁ : World} {b : EqualityBinding}
    (hstart : EqualityBinding.start host ⟨w.next⟩ flags (r.source host.types) (l.target host.types)
      (w.registering { dispatcher := config.assignments, flags }) = .ok false w₁)
    (hb : w₁.equality? ⟨w.next⟩ = some b) (hol : (w₁.object l.object.name).offersChanges = true)
    (hor : (w₁.object r.object.name).offersChanges = true) :
    ∃ w', EqualityBinding.create host config flags l.expr r.expr w = .ok ⟨w.next⟩ w' ∧
      Joins host.types ⟨w.next⟩ b l r w₁ w' := by
  have hs := fitting_empty hnode (w.registering { dispatcher := config.assignments, flags })
  -- The left side is bound first, so the handler on the right side has the lower number.
  obtain ⟨w₂, s₂, hsub₂, hleft, hs₂, hw₂⟩ := bindLeft_of_start hl hr hs hstart hor rfl
  obtain ⟨hobjects₂, hassignments₂, hjobs₂, hnext₂, hhandlers₂⟩ := World.updateEquality_frame w₂ ⟨w.next⟩ fun b =>
    { b with right := [r.listening host.types w₁ (.follow ⟨w.next⟩ (r.source host.types) (l.target host.types))] }
  rw [← hw₂] at hobjects₂ hassignments₂ hjobs₂ hnext₂ hhandlers₂
  have hol₂ : (s₂.world.object l.object.name).offersChanges = true := by
    unfold World.object at hol ⊢
    rw [hobjects₂, hsub₂.objects]
    exact hol
  obtain ⟨w₃, s₃, hsub₃, hright, hw₃⟩ := bindRight_of_bound hl hr hs₂ ⟨w.next⟩ flags hol₂ rfl
  obtain ⟨hobjects₃, hassignments₃, hjobs₃, hnext₃, hhandlers₃⟩ := World.updateEquality_frame w₃ ⟨w.next⟩ fun b =>
    { b with left := [l.listening host.types s₂.world (.follow ⟨w.next⟩ (l.source host.types) (r.target host.types))] }
  rw [← hw₃] at hobjects₃ hassignments₃ hjobs₃ hnext₃ hhandlers₃
  have hnext : s₂.world.next = w₁.next + 1 := hnext₂.trans hsub₂.next
  have hown : s₃.world.equality? ⟨w.next⟩ = some { b with
      left := [l.listening host.types s₂.world (.follow ⟨w.next⟩ (l.source host.types) (r.target host.types))]
      right := [r.listening host.types w₁ (.follow ⟨w.next⟩ (r.source host.types) (l.target host.types))] } := by
    have hb₂ : w₂.equality? ⟨w.next⟩ = some b := by
      unfold World.equality?
      rw [hsub₂.bindings]
      exact hb
    have hb₃ : w₃.equality? ⟨w.next⟩ = s₂.world.equality? ⟨w.next⟩ := by
      unfold World.equality?
      rw [hsub₃.bindings]
    rw [hw₃, World.equality?_updateEquality, hb₃, hw₂, World.equality?_updateEquality, hb₂]
    rfl
  have hsides : EqualityBinding.bindSides host config ⟨w.next⟩ flags l.expr r.expr
      ⟨w.registering { dispatcher := config.assignments, flags }, .empty⟩ = .ok () s₃ := by
    unfold EqualityBinding.bindSides
    rw [bind_of_ok hleft]
    simp only [Bool.false_eq_true, if_false, htwo, if_true]
    rw [bind_of_ok hright]
    simp only [Bool.false_eq_true, if_false]
    rw [bind_of_ok (show (get : Compile Workbench) s₃ = .ok s₃ s₃ from rfl), hown]
    rfl
  refine ⟨s₃.world, ?_, ?_⟩
  · have hconstant : EqualityBinding.isConstantPair l.expr r.expr = false := rfl
    unfold EqualityBinding.create
    simp only [hconstant, Bool.false_eq_true, if_false]
    exact EqualityBinding.building_of_ok hsides
  · refine ⟨?_, ?_, ?_, ?_, ?_, ?_, ?_⟩
    · rw [hobjects₃, hsub₃.objects, hobjects₂, hsub₂.objects]
    · rw [hassignments₃, hsub₃.assignments, hassignments₂, hsub₂.assignments]
    · rw [hjobs₃, hsub₃.jobs, hjobs₂, hsub₂.jobs]
    · rw [hnext₃, hsub₃.next, hnext]
    · intro k g
      have h₃ : g ∈ s₃.world.handlersOf k ↔ g ∈ w₃.handlersOf k := by
        unfold World.handlersOf
        rw [hhandlers₃]
      have h₂ : g ∈ s₂.world.handlersOf k ↔ g ∈ w₂.handlersOf k := by
        unfold World.handlersOf
        rw [hhandlers₂]
      rw [h₃, hsub₃.handlersOf, h₂, hsub₂.handlersOf, or_assoc]
      unfold Endpoint.handler
      rw [hnext]
    · intro id' hne
      rw [hw₃, World.find?_updateEquality _ _ hne, hsub₃.bindings, hw₂, World.find?_updateEquality _ _ hne, hsub₂.bindings]
    · refine ⟨_, _, hown, fun g hg => ?_⟩
      simp only [listening, List.cons_append, List.nil_append, List.filterMap_cons, List.filterMap_nil, List.mem_cons,
        List.not_mem_nil, or_false] at hg
      rcases hg with rfl | rfl
      · exact .inl hnext
      · exact .inr rfl

end

end Endpoint

end DataBinding
