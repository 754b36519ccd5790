import DataBinding.Proofs.Compiled.Session
import DataBinding.Proofs.Run.Inert
import DataBinding.Proofs.Run.Resolve

/-!
# Every node has a box of its own

A new box takes a number that has not been handed out, so no two nodes ever share one, whatever an interpreter is asked
for (`Request.run_separate`). All this takes of host code is that it does not take numbers back.
-/

namespace DataBinding

open Effect Compile

/-- Numbers that have been handed out stay so. -/
def World.Counts (w w' : World) : Prop := w.next ≤ w'.next

theorem counts_chains : Chains World.Counts := ⟨fun _ => Nat.le_refl _, Nat.le_trans⟩

theorem lasts_counts {α : Type} {x : Effect α} (h : ∀ m, Lasts (World.Later m) x) : Lasts World.Counts x where
  ok w a w' hx := ((h w.next).ok w a w' hx (Nat.le_refl _)).1
  error w e w' hx := ⟨trivial, (((h w.next).error w e w' hx).2 (Nat.le_refl _)).1⟩

theorem running_counts (p : Platform) (scripts : List Act → HostCode) (fuel : Nat) :
    (p.running scripts fuel).Lasting World.Counts :=
  Host.lasting_of_perform counts_chains (fun h => h.next) fun a => lasts_counts fun m =>
    (later p scripts m).perform (fun acts => (scripts acts).makes_any) fuel a

namespace Receiver

theorem ofValue_eq_ok {v : Value} {r : Receiver} {w w' : World} (h : ofValue v w = .ok r w') :
    (r = .shared v ∧ w' = w) ∨
      ∃ t fs, v = .record t fs ∧ r = .boxed ⟨w.next⟩ ∧ w' = { w with next := w.next + 1 }.setBox ⟨w.next⟩ v := by
  cases v with
  | record t fs =>
    obtain ⟨i, w₁, hi, h⟩ := bind_eq_ok.mp h
    cases hi
    cases h
    exact .inr ⟨t, fs, rfl, rfl, rfl⟩
  | _ =>
    cases h
    exact .inl ⟨rfl, rfl⟩

end Receiver

namespace Workbench

/-- The boxes of the receivers have been handed out, each to one node. -/
structure Separate (s : Workbench) : Prop where
  fresh : s.Fresh
  apart : ∀ n n' b, s.receivers.find? n = some (.boxed b) → s.receivers.find? n' = some (.boxed b) → n = n'

theorem separate_empty (w : World) : Workbench.Separate ⟨w, .empty⟩ := ⟨nofun, nofun⟩

theorem Separate.world {s : Workbench} (h : s.Separate) {w : World} (hw : s.world.Counts w) :
    Workbench.Separate ⟨w, s.receivers⟩ :=
  ⟨fun n b hb => Nat.lt_of_lt_of_le (h.fresh n b hb) hw, h.apart⟩

theorem Separate.insert {s : Workbench} (h : s.Separate) {n : NodeId} {r : Receiver} {w : World} (hw : s.world.Counts w)
    (hr : ∀ b, r = .boxed b → s.world.next ≤ b.index ∧ b.index < w.next) :
    Workbench.Separate ⟨w, s.receivers.insert n r⟩ := by
  refine ⟨Expr.fresh_insert h.fresh hw fun b hb => (hr b hb).2, fun n₁ n₂ b hb₁ hb₂ => ?_⟩
  rw [Table.find?_insert] at hb₁ hb₂
  by_cases h₁ : n = n₁ <;> by_cases h₂ : n = n₂
  · exact h₁.symm.trans h₂
  · rw [if_pos h₁, Option.some_inj] at hb₁
    rw [if_neg h₂] at hb₂
    exact absurd (h.fresh n₂ b hb₂) (Nat.not_lt.mpr (hr b hb₁).1)
  · rw [if_pos h₂, Option.some_inj] at hb₂
    rw [if_neg h₁] at hb₁
    exact absurd (h.fresh n₁ b hb₁) (Nat.not_lt.mpr (hr b hb₂).1)
  · rw [if_neg h₁] at hb₁
    rw [if_neg h₂] at hb₂
    exact h.apart n₁ n₂ b hb₁ hb₂

/-- Where every node had a box of its own, it still has. -/
def KeepsApart (s s' : Workbench) : Prop := s.Separate → s'.Separate

theorem keepsApart_chains : Chains KeepsApart := ⟨fun _ h => h, fun h h' hs => h' (h hs)⟩

end Workbench

open Workbench

namespace Expr

variable {host : Host}

theorem lift_separate {α : Type} {x : Effect α} (h : Lasts World.Counts x) : Lasts KeepsApart (lift x) where
  ok s a s' hx := by
    obtain ⟨w, hw, rfl⟩ := lift_eq_ok.mp hx
    exact fun hs => hs.world (h.ok s.world a w hw)
  error s e s' hx := by
    obtain ⟨w, hw, rfl⟩ := lift_eq_error.mp hx
    exact ⟨trivial, fun hs => hs.world (h.error s.world e w hw).2⟩

theorem separate_closed (host : Host) : Compile.Closed host (fun {_} x => Lasts KeepsApart x) where
  pure := always_pure keepsApart_chains
  bind := always_bind keepsApart_chains
  look := ⟨fun s _ s' h => by cases h; exact keepsApart_chains.refl s, fun _ _ _ h => by cases h⟩
  except r := lift_separate (lasts_ok counts_chains r)
  accessor r m whole := lift_separate (accessor_lasts counts_chains host r m whole)

theorem memberReceiver_separate {node : NodeId} {target : Expr} {m : Member}
    (h : Lasts KeepsApart (targetValue host target)) : Lasts KeepsApart (memberReceiver host node target m) where
  ok s r s' hr := by
    rcases memberReceiver_eq_ok.mp hr with ⟨-, rfl⟩ | ⟨-, v, s₁, w, hv, -, hw, rfl⟩
    · exact keepsApart_chains.refl _
    · intro hs
      have hs₁ := h.ok s v s₁ hv hs
      rcases Receiver.ofValue_eq_ok hw with ⟨rfl, rfl⟩ | ⟨t, fs, -, rfl, rfl⟩
      · exact hs₁.insert (Nat.le_refl _) nofun
      · refine hs₁.insert (Nat.le_succ _) fun b hb => ?_
        cases hb
        exact ⟨Nat.le_refl _, Nat.lt_succ_self _⟩
  error s e s' hr := by
    obtain ⟨-, hv | ⟨v, hv, -⟩⟩ := memberReceiver_eq_error.mp hr
    · exact h.error s e s' hv
    · exact ⟨trivial, h.ok s v s' hv⟩

theorem typeReceiver_separate (node : NodeId) (m : Member) : Lasts KeepsApart (typeReceiver node m) where
  ok s r s' hr := by
    rcases kept_eq_ok.mp hr with ⟨-, rfl⟩ | ⟨-, s₁, hm, rfl⟩
    · exact keepsApart_chains.refl _
    · cases hm
      exact fun hs => hs.insert (Nat.le_refl _) nofun
  error s e s' hr := by
    cases (kept_eq_error.mp hr).2

section
variable (hhost : host.Lasting World.Counts)
include hhost

theorem targetValue_separate (e : Expr) : Lasts KeepsApart (targetValue host e) := by
  have hc := keepsApart_chains
  have heval : Lasts KeepsApart (lift (e.eval host)) :=
    lift_separate (eval_lasts counts_chains e fun x _ => hhost.part x)
  have hpart := hhost.part e
  cases e with
  | constant v t n => exact always_pure hc _
  | member node target m =>
    exact always_bind hc (memberReceiver_separate (targetValue_separate target)) fun r => lift_separate (hpart.reads m rfl r)
  | typeMember node m =>
    exact always_bind hc (typeReceiver_separate node m) fun r => lift_separate (hpart.reads m rfl r)
  | _ => exact heval
termination_by structural e

theorem node_separate (x : Expr) : x.NodeIn host (fun {_} y => Lasts KeepsApart y) := by
  cases x with
  | member node target m => exact memberReceiver_separate (targetValue_separate hhost target)
  | typeMember node m => exact typeReceiver_separate node m
  | _ => trivial

theorem findTarget?_separate (e : Expr) : Lasts KeepsApart (e.findTarget? host) := by
  have hC := separate_closed host
  have hnode := node_separate hhost e
  cases e with
  | member node target m => exact hC.bind hnode fun r => hC.bind hC.look fun s => hC.pure _
  | typeMember node m => exact hC.bind hnode fun r => hC.bind hC.look fun s => hC.pure _
  | _ => exact hC.pure _

end

end Expr

/-- Whatever is asked for and however that ends, every node has a box of its own afterwards. -/
theorem Request.run_separate {host : Host} (hhost : host.Lasting World.Counts) (q : Request) :
    Lasts KeepsApart (q.run host) := by
  have hC := Expr.separate_closed host
  have hnode := fun x (_ : x ∈ q.expr.parts) => Expr.node_separate hhost x
  cases q with
  | getter e => exact hC.bind (Expr.getter?_closed hC e hnode) fun _ => hC.pure _
  | setter custom e => exact hC.bind (Expr.setter?_closed hC custom e hnode) fun _ => hC.pure _
  | target e => exact hC.bind (Expr.findTarget?_separate hhost e) fun _ => hC.pure _
  | triggers config e => exact hC.bind (Expr.triggers_closed hC e hnode) fun _ => hC.pure _

end DataBinding
