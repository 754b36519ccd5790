import DataBinding.Proofs.Expr.Quiet

/-!
# Evaluation by parts

A kind of computation that sequencing does not lead out of contains the evaluation of an expression if it contains
what each part runs by itself: the read of its member, the call of its method, its conversion (`eval_closed`).
-/

namespace DataBinding

open Effect

/-- A kind of computation that sequencing does not lead out of. -/
structure Effect.Closed (C : ∀ {α : Type}, Effect α → Prop) : Prop where
  pure : ∀ {α : Type} (a : α), C (Pure.pure a : Effect α)
  bind : ∀ {α β : Type} {x : Effect α} {f : α → Effect β}, C x → (∀ a, C (f a)) → C (x >>= f)
  except : ∀ {α : Type} (r : Except Error α), C (ofExcept r)

theorem Effect.within_closed {R : World → World → Prop} (hR : Chains R) :
    Effect.Closed (fun {_} x => Within R x) where
  pure := within_pure hR
  bind := within_bind hR
  except r w a w' h := by
    obtain ⟨-, rfl⟩ := ofExcept_eq_ok.mp h
    exact hR.refl w

namespace Expr

variable {host : Host} {C : ∀ {α : Type}, Effect α → Prop}

/-- What the part runs by itself is of this kind. -/
def NodeRuns (host : Host) (C : ∀ {α : Type}, Effect α → Prop) : Expr → Prop
  | member _ _ m => ∀ r, C ((m.visibleFrom host.types r).read host r)
  | typeMember _ m => C ((m.visibleFrom host.types .null).read host .null)
  | unary .convert _ _ (some m) => ∀ v, C (m.invoke host none [v])
  | call _ m _ => ∀ r args, C ((m.visibleFrom host.types r).invoke host (some r) args)
  | typeCall m _ => ∀ args, C (m.invoke host none args)
  | _ => True

section
variable (hC : Effect.Closed C)
include hC

theorem check_closed {α : Type} {c : Prop} [Decidable c] {e : Error} {f : PUnit → Effect α} (h : C (f ())) :
    C (if c then Effect.fail e >>= f else f ()) := by
  split
  · exact hC.bind (hC.except (.error e)) fun _ => h
  · exact h

theorem applyUnary_closed {op : UnaryOp} {operand : Expr} {t : TypeId} {c : Option Method}
    (h : (unary op operand t c).NodeRuns host C) (v : Value) : C (applyUnary host op t c v) := by
  cases op with
  | not => exact hC.bind (hC.except _) fun _ => hC.pure _
  | negate => exact hC.except _
  | convert =>
    unfold applyUnary
    simp only
    split
    · exact hC.except _
    · cases c with
      | some m => exact h v
      | none => exact hC.except _

mutual
theorem eval_closed (e : Expr) (h : ∀ x ∈ e.parts, x.NodeRuns host C) : C (e.eval host) := by
  have hn := h e (mem_parts_self e)
  cases e with
  | constant v u n => exact hC.pure _
  | member node target m =>
    have hi := eval_closed target fun x hx => h x (by simp [parts, hx])
    exact hC.bind hi fun v => check_closed hC (hn v)
  | typeMember node m => exact hn
  | binary op left right u =>
    have hl := eval_closed left fun x hx => h x (by simp [parts, hx])
    have hr := eval_closed right fun x hx => h x (by simp [parts, hx])
    cases op with
    | andAlso =>
      refine hC.bind hl fun v => hC.bind (hC.except _) fun b => ?_
      cases b with
      | true => exact hC.bind hr fun w => hC.bind (hC.except _) fun _ => hC.pure _
      | false => exact hC.pure _
    | orElse =>
      refine hC.bind hl fun v => hC.bind (hC.except _) fun b => ?_
      cases b with
      | true => exact hC.pure _
      | false => exact hC.bind hr fun w => hC.bind (hC.except _) fun _ => hC.pure _
    | coalesce =>
      refine hC.bind hl fun v => ?_
      cases v.isNull with
      | true => exact hr
      | false => exact hC.pure _
    | _ => exact hC.bind hl fun a => hC.bind hr fun b => hC.except _
  | unary op operand u c =>
    have hi := eval_closed operand fun x hx => h x (by simp [parts, hx])
    exact hC.bind hi fun v => applyUnary_closed hC hn v
  | call target m args =>
    have hi := eval_closed target fun x hx => h x (by simp [parts, hx])
    have ha := evalAll_closed args fun x hx => h x (by simp [parts, hx])
    exact hC.bind hi fun v => check_closed hC (hC.bind ha fun vs => hn v vs)
  | typeCall m args =>
    have ha := evalAll_closed args fun x hx => h x (by simp [parts, hx])
    exact hC.bind ha fun vs => hn vs
  | conditional test yes no u =>
    have hc := eval_closed test fun x hx => h x (by simp [parts, hx])
    have hy := eval_closed yes fun x hx => h x (by simp [parts, hx])
    have hz := eval_closed no fun x hx => h x (by simp [parts, hx])
    refine hC.bind hc fun v => hC.bind (hC.except _) fun b => ?_
    cases b with
    | true => exact hy
    | false => exact hz
termination_by structural e
theorem evalAll_closed (es : List Expr) (h : ∀ x ∈ partsAll es, x.NodeRuns host C) : C (evalAll host es) := by
  cases es with
  | nil => exact hC.pure _
  | cons e es =>
    have hx := eval_closed e fun x hx => h x (by simp [partsAll, hx])
    have hs := evalAll_closed es fun x hx => h x (by simp [partsAll, hx])
    exact hC.bind hx fun v => hC.bind hs fun vs => hC.pure _
termination_by structural es
end

end

end Expr

end DataBinding
