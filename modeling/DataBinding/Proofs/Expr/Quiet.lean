import DataBinding.Expr.Eval
import DataBinding.Proofs.Effect

/-!
# Quiet expressions

An expression evaluates alike in two worlds if the host code that its parts run agrees there (`eval_agree`), and it
is quiet in a world if that code is. What a part runs hangs on the value of its target, so the condition on a part
speaks of that value only.
-/

namespace DataBinding.Expr

open Effect

mutual
/-- The expression and all expressions inside it. -/
def parts (e : Expr) : List Expr :=
  match e with
  | constant v t n => [constant v t n]
  | member node target m => member node target m :: parts target
  | typeMember node m => [typeMember node m]
  | binary op left right t => binary op left right t :: (parts left ++ parts right)
  | unary op operand t c => unary op operand t c :: parts operand
  | call target m args => call target m args :: (parts target ++ partsAll args)
  | typeCall m args => typeCall m args :: partsAll args
  | conditional test yes no t => conditional test yes no t :: (parts test ++ parts yes ++ parts no)
termination_by structural e
def partsAll (es : List Expr) : List Expr :=
  match es with
  | [] => []
  | e :: es => parts e ++ partsAll es
termination_by structural es
end

theorem mem_parts_self (e : Expr) : e ∈ e.parts := by
  cases e <;> simp [parts]

mutual
theorem parts_subset {x : Expr} (e : Expr) (h : x ∈ e.parts) : x.parts ⊆ e.parts := by
  intro y hy
  cases e with
  | constant v t n =>
    simp only [parts, List.mem_singleton] at h
    rw [← h]
    exact hy
  | typeMember node m =>
    simp only [parts, List.mem_singleton] at h
    rw [← h]
    exact hy
  | member node target m =>
    rcases List.mem_cons.mp h with rfl | h
    · exact hy
    · simp [parts, parts_subset target h hy]
  | binary op left right t =>
    simp only [parts, List.mem_cons, List.mem_append] at h
    rcases h with rfl | h | h
    · exact hy
    · simp [parts, parts_subset left h hy]
    · simp [parts, parts_subset right h hy]
  | unary op operand t c =>
    rcases List.mem_cons.mp h with rfl | h
    · exact hy
    · simp [parts, parts_subset operand h hy]
  | call target m args =>
    simp only [parts, List.mem_cons, List.mem_append] at h
    rcases h with rfl | h | h
    · exact hy
    · simp [parts, parts_subset target h hy]
    · simp [parts, partsAll_subset args h hy]
  | typeCall m args =>
    rcases List.mem_cons.mp h with rfl | h
    · exact hy
    · simp [parts, partsAll_subset args h hy]
  | conditional test yes no t =>
    simp only [parts, List.mem_cons, List.mem_append] at h
    rcases h with rfl | (h | h) | h
    · exact hy
    · simp [parts, parts_subset test h hy]
    · simp [parts, parts_subset yes h hy]
    · simp [parts, parts_subset no h hy]
termination_by structural e
theorem partsAll_subset {x : Expr} (es : List Expr) (h : x ∈ partsAll es) : x.parts ⊆ partsAll es := by
  intro y hy
  cases es with
  | nil => cases h
  | cons e es =>
    rcases List.mem_append.mp h with h | h
    · simp [partsAll, parts_subset e h hy]
    · simp [partsAll, partsAll_subset es h hy]
termination_by structural es
end

mutual
theorem sizeOf_le_of_mem_parts {x : Expr} (e : Expr) (h : x ∈ e.parts) : sizeOf x ≤ sizeOf e := by
  cases e with
  | constant v t n => simp_all [parts]
  | typeMember node m => simp_all [parts]
  | member node target m =>
    rcases List.mem_cons.mp h with rfl | h
    · exact Nat.le_refl _
    · have := sizeOf_le_of_mem_parts target h
      simp only [member.sizeOf_spec]
      omega
  | binary op left right t =>
    simp only [parts, List.mem_cons, List.mem_append] at h
    rcases h with rfl | h | h
    · exact Nat.le_refl _
    · have := sizeOf_le_of_mem_parts left h
      simp only [binary.sizeOf_spec]
      omega
    · have := sizeOf_le_of_mem_parts right h
      simp only [binary.sizeOf_spec]
      omega
  | unary op operand t c =>
    rcases List.mem_cons.mp h with rfl | h
    · exact Nat.le_refl _
    · have := sizeOf_le_of_mem_parts operand h
      simp only [unary.sizeOf_spec]
      omega
  | call target m args =>
    simp only [parts, List.mem_cons, List.mem_append] at h
    rcases h with rfl | h | h
    · exact Nat.le_refl _
    · have := sizeOf_le_of_mem_parts target h
      simp only [call.sizeOf_spec]
      omega
    · have := sizeOf_le_of_mem_partsAll args h
      simp only [call.sizeOf_spec]
      omega
  | typeCall m args =>
    rcases List.mem_cons.mp h with rfl | h
    · exact Nat.le_refl _
    · have := sizeOf_le_of_mem_partsAll args h
      simp only [typeCall.sizeOf_spec]
      omega
  | conditional test yes no t =>
    simp only [parts, List.mem_cons, List.mem_append] at h
    rcases h with rfl | (h | h) | h
    · exact Nat.le_refl _
    · have := sizeOf_le_of_mem_parts test h
      simp only [conditional.sizeOf_spec]
      omega
    · have := sizeOf_le_of_mem_parts yes h
      simp only [conditional.sizeOf_spec]
      omega
    · have := sizeOf_le_of_mem_parts no h
      simp only [conditional.sizeOf_spec]
      omega
termination_by structural e
theorem sizeOf_le_of_mem_partsAll {x : Expr} (es : List Expr) (h : x ∈ partsAll es) : sizeOf x ≤ sizeOf es := by
  cases es with
  | nil => cases h
  | cons e es =>
    rcases List.mem_append.mp h with h | h
    · have := sizeOf_le_of_mem_parts e h
      simp only [List.cons.sizeOf_spec]
      omega
    · have := sizeOf_le_of_mem_partsAll es h
      simp only [List.cons.sizeOf_spec]
      omega
termination_by structural es
end

section
variable {types : TypeTable} {t t' : World} {x x' y y' : Effect Value}

theorem andAlso_agree (hx : Agree t t' x x') (hy : Agree t t' y y') :
    Agree t t'
      (do
        let l ← ofExcept ((← x).expectBool types "&&")
        if !l then return Value.boolean false
        let r ← ofExcept ((← y).expectBool types "&&")
        return Value.boolean r)
      (do
        let l ← ofExcept ((← x').expectBool types "&&")
        if !l then return Value.boolean false
        let r ← ofExcept ((← y').expectBool types "&&")
        return Value.boolean r) := by
  refine hx.bind fun v _ _ => (agree_ofExcept _).bind fun l _ _ => ?_
  cases l with
  | false => exact agree_pure _
  | true => exact hy.bind fun w _ _ => (agree_ofExcept _).bind fun r _ _ => agree_pure _

theorem orElse_agree (hx : Agree t t' x x') (hy : Agree t t' y y') :
    Agree t t'
      (do
        let l ← ofExcept ((← x).expectBool types "||")
        if l then return Value.boolean true
        let r ← ofExcept ((← y).expectBool types "||")
        return Value.boolean r)
      (do
        let l ← ofExcept ((← x').expectBool types "||")
        if l then return Value.boolean true
        let r ← ofExcept ((← y').expectBool types "||")
        return Value.boolean r) := by
  refine hx.bind fun v _ _ => (agree_ofExcept _).bind fun l _ _ => ?_
  cases l with
  | true => exact agree_pure _
  | false => exact hy.bind fun w _ _ => (agree_ofExcept _).bind fun r _ _ => agree_pure _

theorem coalesce_agree (hx : Agree t t' x x') (hy : Agree t t' y y') :
    Agree t t' (do let l ← x; if l.isNull then y else return l)
      (do let l ← x'; if l.isNull then y' else return l) := by
  refine hx.bind fun l _ _ => ?_
  cases l.isNull with
  | true => exact hy
  | false => exact agree_pure l

theorem strict_agree {f g : Value → Value → Effect Value} (hx : Agree t t' x x') (hy : Agree t t' y y')
    (h : ∀ a b, Agree t t' (f a b) (g a b)) :
    Agree t t' (do let a ← x; let b ← y; f a b) (do let a ← x'; let b ← y'; g a b) :=
  hx.bind fun a _ _ => hy.bind fun b _ _ => h a b

end

/-- The host code that an expression itself runs agrees, from two worlds and through two hosts. -/
def AgreeNode (host host' : Host) (t t' : World) : Expr → Prop
  | member _ target m => ∀ v, target.eval host t = .ok v t →
    Agree t t' ((m.visibleFrom host.types v).read host v) ((m.visibleFrom host'.types v).read host' v)
  | typeMember _ m => Agree t t' ((m.visibleFrom host.types .null).read host .null)
      ((m.visibleFrom host'.types .null).read host' .null)
  | unary .convert _ _ (some m) => ∀ v, Agree t t' (m.invoke host none [v]) (m.invoke host' none [v])
  | call target m _ => ∀ v vs, target.eval host t = .ok v t →
    Agree t t' ((m.visibleFrom host.types v).invoke host (some v) vs)
      ((m.visibleFrom host'.types v).invoke host' (some v) vs)
  | typeCall m _ => ∀ vs, Agree t t' (m.invoke host none vs) (m.invoke host' none vs)
  | _ => True

def QuietNode (host : Host) (t : World) (x : Expr) : Prop := x.AgreeNode host host t t

section
variable {p : Platform} {f f' : Action → Effect Unit} {t t' : World}

theorem applyUnary_agree {op : UnaryOp} {operand : Expr} {u : TypeId} {c : Option Method}
    (h : (unary op operand u c).AgreeNode ⟨p, f⟩ ⟨p, f'⟩ t t') (v : Value) :
    Agree t t' (applyUnary ⟨p, f⟩ op u c v) (applyUnary ⟨p, f'⟩ op u c v) := by
  cases op with
  | not => exact (agree_ofExcept _).bind fun b _ _ => agree_pure _
  | negate => exact agree_ofExcept _
  | convert =>
    unfold applyUnary
    simp only
    split
    · exact agree_ofExcept _
    · cases c with
      | some m => exact h v
      | none => exact agree_ofExcept _

mutual
theorem eval_agree (e : Expr) (h : ∀ x ∈ e.parts, x.AgreeNode ⟨p, f⟩ ⟨p, f'⟩ t t') :
    Agree t t' (e.eval ⟨p, f⟩) (e.eval ⟨p, f'⟩) := by
  cases e with
  | constant v u n => exact agree_pure v
  | member node target m =>
    have hi := eval_agree target fun x hx => h x (by simp [parts, hx])
    have hn := h _ (mem_parts_self _)
    refine hi.bind fun v hv _ => ?_
    simp only
    split
    · exact agree_fail _ _
    · exact hn v hv
  | typeMember node m => exact h _ (mem_parts_self _)
  | binary op left right u =>
    have hl := eval_agree left fun x hx => h x (by simp [parts, hx])
    have hr := eval_agree right fun x hx => h x (by simp [parts, hx])
    cases op with
    | andAlso => exact andAlso_agree hl hr
    | orElse => exact orElse_agree hl hr
    | coalesce => exact coalesce_agree hl hr
    | _ => exact strict_agree hl hr fun a b => agree_ofExcept _
  | unary op operand u c =>
    have hi := eval_agree operand fun x hx => h x (by simp [parts, hx])
    exact hi.bind fun v _ _ => applyUnary_agree (h _ (mem_parts_self _)) v
  | call target m args =>
    have hi := eval_agree target fun x hx => h x (by simp [parts, hx])
    have ha := evalAll_agree args fun x hx => h x (by simp [parts, hx])
    have hn := h _ (mem_parts_self _)
    refine hi.bind fun v hv _ => ?_
    simp only
    split
    · exact agree_fail _ _
    · exact ha.bind fun vs _ _ => hn v vs hv
  | typeCall m args =>
    have ha := evalAll_agree args fun x hx => h x (by simp [parts, hx])
    exact ha.bind fun vs _ _ => h _ (mem_parts_self _) vs
  | conditional test yes no u =>
    have ht := eval_agree test fun x hx => h x (by simp [parts, hx])
    have hy := eval_agree yes fun x hx => h x (by simp [parts, hx])
    have hn := eval_agree no fun x hx => h x (by simp [parts, hx])
    refine ht.bind fun v _ _ => (agree_ofExcept _).bind fun b _ _ => ?_
    cases b with
    | true => exact hy
    | false => exact hn
termination_by structural e
theorem evalAll_agree (es : List Expr) (h : ∀ x ∈ partsAll es, x.AgreeNode ⟨p, f⟩ ⟨p, f'⟩ t t') :
    Agree t t' (evalAll ⟨p, f⟩ es) (evalAll ⟨p, f'⟩ es) := by
  cases es with
  | nil => exact agree_pure []
  | cons e es =>
    have he := eval_agree e fun x hx => h x (by simp [partsAll, hx])
    have hs := evalAll_agree es fun x hx => h x (by simp [partsAll, hx])
    exact he.bind fun v _ _ => hs.bind fun vs _ _ => agree_pure _
termination_by structural es
end

end

theorem eval_quiet (host : Host) (t : World) (e : Expr) (h : ∀ x ∈ e.parts, x.QuietNode host t) :
    QuietAt t (e.eval host) :=
  eval_agree e h

end DataBinding.Expr
