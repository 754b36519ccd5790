import DataBinding.Proofs.Binding.Follow
import DataBinding.Proofs.Run.Lasting
import DataBinding.Proofs.Table
import DataBinding.Proofs.Tracking.Release

/-!
# Disposing

Disposing a binding always returns. A live binding lets go of its handlers and of nothing else (`dispose_live`), and
a disposed one is left alone (`dispose_disposed`).
-/

namespace DataBinding

open Effect

theorem World.setBinding_find? {w : World} {id : BindingId} {s : Binding} (h : w.bindings.find? id = some s) :
    w.setBinding id s = w := by
  simp [setBinding, Table.insert_find? h]

section
variable {w : World} {id : BindingId}

theorem updateEquality_found {b : EqualityBinding} (h : w.bindings.find? id = some (.equality b))
    (change : EqualityBinding → EqualityBinding) :
    w.updateEquality id change = w.setBinding id (.equality (change b)) := by
  unfold World.updateEquality
  rw [World.equality?_eq_some.mpr h]

theorem updateAction_found {b : ActionBinding} (h : w.bindings.find? id = some (.action b))
    (change : ActionBinding → ActionBinding) : w.updateAction id change = w.setBinding id (.action (change b)) := by
  unfold World.updateAction World.action?
  rw [h]

end

def Binding.disposal : Binding → Binding
  | equality b =>
    .equality { b with disposed := true, left := b.left.map Trigger.detached, right := b.right.map Trigger.detached }
  | action b => .action { b with disposed := true, triggers := b.triggers.map Trigger.detached }
  | event b => .event { b with disposed := true, target := none, handler := none }
  | custom name => .custom name

theorem Binding.handlers_disposal (s : Binding) : s.disposal.handlers = [] := by
  cases s <;> simp [disposal, handlers, Trigger.detached, List.filterMap_map]

variable {host : Host} {w : World} {id : BindingId} {s : Binding}

theorem dispose_disposed (hs : w.bindings.find? id = some s) (hd : s.isDisposed = true) :
    host.dispose id w = .ok () w := by
  unfold Host.dispose
  rw [bind_get]
  simp only [hs]
  cases s with
  | equality b =>
    have hb : b.disposed = true := hd
    simp only [EqualityBinding.dispose, hb, if_true]
    rfl
  | action b =>
    have hb : b.disposed = true := hd
    simp only [ActionBinding.dispose, hb, if_true]
    rfl
  | event b =>
    have hb : b.disposed = true := hd
    simp only [EventBinding.dispose, hb, if_true]
    rfl
  | custom name => cases hd

theorem World.Loses.setBinding {S : Nat → Prop} {s' : Binding} {w' : World} (h : (w.setBinding id s).Loses S w') :
    (w.setBinding id s').Loses S (w'.setBinding id s') where
  objects := h.objects
  removed := h.removed
  kept := h.kept
  spared := h.spared
  direct := h.direct
  named := h.named
  jobs := h.jobs
  bindings := by
    show w'.bindings.insert id s' = w.bindings.insert id s'
    rw [h.bindings]
    exact Table.insert_insert _ _ _ _
  assignments := h.assignments
  next := h.next

theorem EqualityBinding.dispose_ok (host : Host) (id : BindingId) {b : EqualityBinding} (hd : b.disposed = false) (w : World) :
    ∃ w', b.dispose host id w = .ok () w' ∧
      (w.setBinding id (Binding.equality b).disposal).Loses (Binding.equality b).Owns w' := by
  have hleft : ∀ g ∈ b.left.filterMap Trigger.handler, (Binding.equality b).Owns g.id := fun g hg =>
    ⟨g, by simp only [Binding.handlers, List.filterMap_append, List.mem_append]; exact .inl hg, rfl⟩
  have hright : ∀ g ∈ b.right.filterMap Trigger.handler, (Binding.equality b).Owns g.id := fun g hg =>
    ⟨g, by simp only [Binding.handlers, List.filterMap_append, List.mem_append]; exact .inr hg, rfl⟩
  obtain ⟨w₁, h₁, hl₁⟩ :=
    Trigger.unsubscribeAll_ok host b.left (w.setBinding id (.equality { b with disposed := true })) hleft
  obtain ⟨w₂, h₂, hl₂⟩ := Trigger.unsubscribeAll_ok host b.right w₁ hright
  refine ⟨_, ?_, ((loses_chains _).trans hl₁ hl₂).setBinding⟩
  simp only [EqualityBinding.dispose, hd, Bool.false_eq_true, if_false]
  exact (bind_of_ok rfl).trans ((bind_of_ok h₁).trans (bind_of_ok h₂))

theorem ActionBinding.dispose_ok (host : Host) (id : BindingId) {b : ActionBinding} (hd : b.disposed = false) (w : World) :
    ∃ w', b.dispose host id w = .ok () w' ∧
      (w.setBinding id (Binding.action b).disposal).Loses (Binding.action b).Owns w' := by
  have hown : ∀ g ∈ b.triggers.filterMap Trigger.handler, (Binding.action b).Owns g.id := fun g hg => ⟨g, hg, rfl⟩
  obtain ⟨w₁, h₁, hl₁⟩ :=
    Trigger.unsubscribeAll_ok host b.triggers (w.setBinding id (.action { b with disposed := true })) hown
  refine ⟨_, ?_, hl₁.setBinding⟩
  simp only [ActionBinding.dispose, hd, Bool.false_eq_true, if_false]
  exact (bind_of_ok rfl).trans (bind_of_ok h₁)

/-- What disposing an event binding comes to once it is marked. -/
def EventBinding.letGo (host : Host) (b : EventBinding) : Effect Unit :=
  match b.target, b.handler with
  | some target, some h => b.release host target h
  | _, _ => pure ()

theorem EventBinding.dispose_ok (host : Host) (id : BindingId) {b : EventBinding} (hd : b.disposed = false) (w : World) :
    ∃ w', b.dispose host id w = .ok () w' ∧
      (w.setBinding id (Binding.event b).disposal).Loses (Binding.event b).Owns w' := by
  have hrelease : Always (World.Loses (Binding.event b).Owns) (fun _ => False) (b.letGo host) := by
    unfold letGo
    split
    · rename_i hh
      exact release_loses ⟨_, by simp [Binding.handlers, hh], rfl⟩
    · exact always_pure (loses_chains _) _
  obtain ⟨u, w₁, h₁, hl₁⟩ := always_returns hrelease (w.setBinding id (Binding.event b).disposal)
  refine ⟨w₁, ?_, hl₁⟩
  simp only [EventBinding.dispose, hd, Bool.false_eq_true, if_false]
  exact (bind_of_ok rfl).trans h₁

theorem dispose_live (host : Host) (hs : w.bindings.find? id = some s) (hd : s.isDisposed = false) :
    ∃ w', host.dispose id w = .ok () w' ∧ (w.setBinding id s.disposal).Loses s.Owns w' := by
  unfold Host.dispose
  rw [bind_get]
  simp only [hs]
  cases s with
  | equality b => exact EqualityBinding.dispose_ok host id hd w
  | action b => exact ActionBinding.dispose_ok host id hd w
  | event b => exact EventBinding.dispose_ok host id hd w
  | custom name =>
    refine ⟨_, rfl, ?_⟩
    rw [Binding.disposal, World.setBinding_find? hs]
    exact {}

theorem dispose_absent (hs : w.bindings.find? id = none) : host.dispose id w = .ok () w := by
  unfold Host.dispose
  rw [bind_get]
  simp only [hs]
  rfl

theorem dispose_returns (host : Host) (id : BindingId) (w : World) : ∃ w', host.dispose id w = .ok () w' := by
  cases hs : w.bindings.find? id with
  | none => exact ⟨w, dispose_absent hs⟩
  | some s =>
    cases hd : s.isDisposed with
    | true => exact ⟨w, dispose_disposed hs hd⟩
    | false =>
      obtain ⟨w', h, -⟩ := dispose_live host hs hd
      exact ⟨w', h⟩

theorem lasts_dispose {R : World → World → Prop} (hR : Chains R)
    (h : ∀ (w : World) s, w.bindings.find? id = some s → s.isDisposed = false →
      ∃ w', host.dispose id w = .ok () w' ∧ R w w') : Lasts R (host.dispose id) := by
  apply lasts_of_returns
  intro w
  cases hs : w.bindings.find? id with
  | none => exact ⟨(), w, dispose_absent hs, hR.refl w⟩
  | some s =>
    cases hd : s.isDisposed with
    | true => exact ⟨(), w, dispose_disposed hs hd, hR.refl w⟩
    | false => exact ⟨(), h w s hs hd⟩

end DataBinding
