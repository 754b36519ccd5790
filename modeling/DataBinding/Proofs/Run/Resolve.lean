import DataBinding.Proofs.Compiled.Resolve
import DataBinding.Proofs.Run.Lasting

/-!
# Resolving expressions

What compiling an expression and collecting its triggers do to the world comes from evaluating the targets of its
member accesses, and from nothing else (`getterOrFallback_lasts`, `setter?_lasts`, `triggers_lasts`).
-/

namespace DataBinding

open Effect Compile

def OnWorld (R : World → World → Prop) (s s' : Workbench) : Prop := R s.world s'.world

section
variable {R : World → World → Prop} {α : Type}

theorem onWorld_chains (hR : Chains R) : Chains (OnWorld R) where
  refl s := hR.refl s.world
  trans h h' := hR.trans h h'

theorem lasts_lift {x : Effect α} (h : Lasts R x) : Lasts (OnWorld R) (lift x) where
  ok s a s' hx := by
    obtain ⟨w, hw, rfl⟩ := lift_eq_ok.mp hx
    exact h.ok s.world a w hw
  error s e s' hx := by
    obtain ⟨w, hw, rfl⟩ := lift_eq_error.mp hx
    exact h.error s.world e w hw

theorem lasts_withReceivers {rs : Receivers} {x : Compile α} (h : Lasts (OnWorld R) x) : Lasts R (withReceivers rs x) := by
  apply lasts_of_after
  intro w
  cases hx : x ⟨w, rs⟩ with
  | ok a s =>
    rw [withReceivers_of_ok hx]
    exact h.ok _ a s hx
  | error e s =>
    have hr := (h.error _ e s hx).2
    cases e with
    | failed e =>
      rw [withReceivers_of_failed hx]
      exact hr
    | exhausted =>
      rw [withReceivers_of_exhausted hx]
      exact hr

theorem lasts_kept (hR : Chains R) (node : NodeId) {make : Compile Receiver} (h : Lasts (OnWorld R) make) :
    Lasts (OnWorld R) (kept node make) := by
  have hc := onWorld_chains hR
  refine always_get hc fun s => ?_
  cases s.receivers.find? node with
  | some r => exact always_pure hc r
  | none => exact always_bind hc h fun r => always_bind hc (always_modify fun s => hR.refl s.world) fun _ => always_pure hc r

theorem accessor_lasts (hR : Chains R) (host : Host) (r : Receiver) (m : Member) (whole : Expr) :
    Lasts R (r.accessor host m whole) := by
  refine always_get hR fun w => ?_
  cases r.type? w with
  | some t => exact always_pure hR _
  | none => exact always_throw hR trivial

theorem lasts_closed (hR : Chains R) (host : Host) : Compile.Closed host (fun {_} x => Lasts (OnWorld R) x) where
  pure := always_pure (onWorld_chains hR)
  bind := always_bind (onWorld_chains hR)
  look := ⟨fun s a s' h => by cases h; exact hR.refl s.world, fun s e s' h => by cases h⟩
  except r := lasts_lift (lasts_ok hR r)
  accessor r m whole := lasts_lift (accessor_lasts hR host r m whole)

end

namespace Expr

variable {host : Host} {config : Configuration}

section
variable {C : ∀ {α : Type}, Compile α → Prop} (hC : Compile.Closed host C)
include hC

theorem instanceTrigger_closed {m : Member} {receiver : Compile Receiver} (h : C receiver) :
    C (instanceTrigger host config m receiver) :=
  hC.bind h fun _ => hC.bind hC.look fun _ => hC.pure _

mutual
theorem triggers_closed (e : Expr) (h : ∀ x ∈ e.parts, x.NodeIn host C) : C (e.triggers host config) := by
  cases e with
  | constant v t n => exact hC.pure _
  | member node target m =>
    have hn : C (memberReceiver host node target m) := h _ (mem_parts_self _)
    have hi := triggers_closed target fun x hx => h x (by simp [parts, hx])
    unfold triggers
    split
    · exact hC.bind (hC.pure _) fun _ => hC.bind hi fun _ => hC.pure _
    · exact hC.bind (instanceTrigger_closed hC hn) fun _ => hC.bind hi fun _ => hC.pure _
  | typeMember node m =>
    have hn : C (typeReceiver node m) := h _ (mem_parts_self _)
    unfold triggers
    split
    · exact hC.pure _
    · exact instanceTrigger_closed hC hn
  | binary op left right t =>
    have hl := triggers_closed left fun x hx => h x (by simp [parts, hx])
    have hr := triggers_closed right fun x hx => h x (by simp [parts, hx])
    exact hC.bind hl fun _ => hC.bind hr fun _ => hC.pure _
  | unary op operand t c => exact triggers_closed operand fun x hx => h x (by simp [parts, hx])
  | call target m args =>
    have hi := triggers_closed target fun x hx => h x (by simp [parts, hx])
    have ha := triggersAll_closed args fun x hx => h x (by simp [parts, hx])
    exact hC.bind hi fun _ => hC.bind ha fun _ => hC.pure _
  | typeCall m args => exact triggersAll_closed args fun x hx => h x (by simp [parts, hx])
  | conditional test yes no t =>
    have hc := triggers_closed test fun x hx => h x (by simp [parts, hx])
    have hy := triggers_closed yes fun x hx => h x (by simp [parts, hx])
    have hz := triggers_closed no fun x hx => h x (by simp [parts, hx])
    exact hC.bind hc fun _ => hC.bind hy fun _ => hC.bind hz fun _ => hC.pure _
termination_by structural e
theorem triggersAll_closed (es : List Expr) (h : ∀ x ∈ partsAll es, x.NodeIn host C) : C (triggersAll host config es) := by
  cases es with
  | nil => exact hC.pure _
  | cons e es =>
    have hx := triggers_closed e fun x hx => h x (by simp [partsAll, hx])
    have hs := triggersAll_closed es fun x hx => h x (by simp [partsAll, hx])
    exact hC.bind hx fun _ => hC.bind hs fun _ => hC.pure _
termination_by structural es
end

end

/-- Whatever a part runs, by itself or through a receiver, stays in the relation. -/
structure PartLasts (host : Host) (R : World → World → Prop) (x : Expr) : Prop where
  runs : x.NodeRuns host (fun {_} y => Lasts R y)
  reads : ∀ m ∈ x.member?, ∀ r, Lasts R (readThrough host r m x)

section
variable {R : World → World → Prop} (hR : Chains R) (hs : ∀ {w w' : World}, w.Stores w' → R w w')
include hR

theorem eval_lasts (e : Expr) (h : ∀ x ∈ e.parts, x.PartLasts host R) : Lasts R (e.eval host) := by
  apply eval_closed ⟨always_pure hR, always_bind hR, lasts_ok hR⟩ e
  intro x hx
  exact (h x hx).runs

theorem typeReceiver_lasts (node : NodeId) (m : Member) : Lasts (OnWorld R) (typeReceiver node m) :=
  lasts_kept hR node (always_pure (onWorld_chains hR) _)

include hs

theorem ofValue_lasts (v : Value) : Lasts R (Receiver.ofValue v) := by
  cases v with
  | record t fields =>
    have hfresh : Lasts R fresh :=
      ⟨fun w n w' h => by cases h; exact hs { next := Nat.le_succ _ }, fun w e w' h => by cases h⟩
    refine always_bind hR hfresh fun n => ?_
    exact always_bind hR (always_modify fun w => hs {}) fun _ => always_pure hR _
  | _ => exact always_pure hR _

theorem receiverOn_lasts (node : NodeId) (target : Expr) (m : Member) {value : Compile Value}
    (h : Lasts (OnWorld R) value) : Lasts (OnWorld R) (receiverOn host node target m value) := by
  have hc := onWorld_chains hR
  apply lasts_kept hR
  apply always_bind hc h
  intro v
  have hvalue : Lasts (OnWorld R) (lift (Receiver.ofValue v)) := lasts_lift (ofValue_lasts hR hs v)
  simp only
  split
  · exact always_bind hc (always_throw hc trivial) fun _ => hvalue
  · exact hvalue

theorem targetValue_lasts (e : Expr) (h : ∀ x ∈ e.parts, x.PartLasts host R) :
    Lasts (OnWorld R) (targetValue host e) := by
  have hc := onWorld_chains hR
  have other := lasts_lift (eval_lasts hR e h)
  have hp := h e (mem_parts_self e)
  cases e with
  | constant v t n => exact always_pure hc _
  | member node target m =>
    have hi := targetValue_lasts target fun x hx => h x (by simp [parts, hx])
    exact always_bind hc (receiverOn_lasts hR hs node target m hi) fun r => lasts_lift (hp.reads m rfl r)
  | typeMember node m =>
    exact always_bind hc (typeReceiver_lasts hR node m) fun r => lasts_lift (hp.reads m rfl r)
  | _ => exact other
termination_by structural e

theorem node_lasts (e : Expr) (h : ∀ x ∈ e.parts, x.PartLasts host R) :
    ∀ x ∈ e.parts, x.NodeIn host (fun {_} y => Lasts (OnWorld R) y) := by
  intro x hx
  cases x with
  | member node target m =>
    apply receiverOn_lasts hR hs
    apply targetValue_lasts hR hs
    intro y hy
    exact h y (parts_subset e hx (by simp [parts, hy]))
  | typeMember node m => exact typeReceiver_lasts hR node m
  | _ => trivial

theorem setter?_lasts (custom : Option (Table DeclId CustomSetter)) (e : Expr)
    (h : ∀ x ∈ e.parts, x.PartLasts host R) : Lasts (OnWorld R) (e.setter? host custom) :=
  setter?_closed (lasts_closed hR host) custom e (node_lasts hR hs e h)

theorem getterOrFallback_lasts (e : Expr) (h : ∀ x ∈ e.parts, x.PartLasts host R) :
    Lasts (OnWorld R) (e.getterOrFallback host) := by
  have hc := onWorld_chains hR
  apply always_bind hc (getter?_closed (lasts_closed hR host) e (node_lasts hR hs e h))
  intro g
  cases g with
  | some g => exact always_pure hc _
  | none => exact always_bind hc (lasts_lift (always_modify fun w => hs {})) fun _ => always_pure hc _

theorem triggers_lasts (e : Expr) (h : ∀ x ∈ e.parts, x.PartLasts host R) :
    Lasts (OnWorld R) (e.triggers host config) :=
  triggers_closed (lasts_closed hR host) e (node_lasts hR hs e h)

end

end Expr

/-- What binding the sides ends with: a warning if nothing is observed. -/
def EqualityBinding.warnUntriggered (host : Host) (id : BindingId) (left right : Expr) : Compile Unit := do
  match (← get).world.equality? id with
  | some b => if b.left.isEmpty && b.right.isEmpty then warn (untriggered (text host.types left right))
  | none => pure ()

def ActionBinding.take (host : Host) (id : BindingId) (call : Getter) (ts : List Trigger) : Compile Unit := do
  let ts ← Trigger.subscribeAll host (.rerun id call) ts
  modify fun s => { s with world := s.world.updateAction id fun b => { b with triggers := ts } }

def ActionBinding.observe (host : Host) (config : Configuration) (id : BindingId) (e : Expr) (call : Getter) :
    Compile Unit := do
  let ts ← e.triggers host config
  if ts.isEmpty then warn (EqualityBinding.untriggered (e.render host.types))
  take host id call ts

theorem Host.Lasting.part {host : Host} {R : World → World → Prop} (h : host.Lasting R) (x : Expr) :
    x.PartLasts host R where
  runs := h.nodeRuns x
  reads m _ r := h.seq (accessor_lasts h.chains host r m x) fun a => h.receiverRead r a

end DataBinding
