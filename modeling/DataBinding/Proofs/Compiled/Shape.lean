import DataBinding.Proofs.Compiled.Resolve

/-!
# Compiled forms

`Compiled s e g` says by the shape of `e` what a getter over the receivers of `s` looks like. Compiling gives
nothing else (`getter?_compiled`), so what holds of compiled forms can be proved without following the compiler.
-/

namespace DataBinding

open Effect Compile Workbench

mutual
/-- The getter is the compiled form of the expression over the receivers of a workbench. -/
inductive Compiled (host : Host) (s : Workbench) : Expr → Getter → Prop
  | constant (v : Value) (u : TypeId) (n : Option String) : Compiled host s (.constant v u n) (.constant v)
  | member {node : NodeId} {target : Expr} {m : Member} {r : Receiver} {t : TypeId} :
    s.receivers.find? node = some r → r.type? s.world = some t →
    Compiled host s (.member node target m) (.read r (.on host.types m t))
  | typeMember {node : NodeId} {m : Member} {r : Receiver} {t : TypeId} :
    s.receivers.find? node = some r → r.type? s.world = some t →
    Compiled host s (.typeMember node m) (.read r (.on host.types m t))
  | binary {op : BinaryOp} {u : TypeId} {combine : Getter → Getter → Getter} {left right : Expr} {l r : Getter} :
    Expr.binaryGetter op u = some combine → Compiled host s left l → Compiled host s right r →
    Compiled host s (.binary op left right u) (combine l r)
  | not {operand : Expr} {u : TypeId} {c : Option Method} {g : Getter} :
    Compiled host s operand g → Compiled host s (.unary .not operand u c) (.not g)
  | convert {operand : Expr} {u : TypeId} {c : Option Method} {g g' : Getter} :
    Compiled host s operand g → Expr.conversionGetter host u c g = .ok (some g') →
    Compiled host s (.unary .convert operand u c) g'
  | call {target : Expr} {m : Method} {args : List Expr} {d : Dispatch} {r : Getter} {gs : List Getter} :
    m.isSupported = true → m.isStatic = false → Compiled host s target r → CompiledAll host s args gs →
    Expr.dispatchOf host m = .ok d → Compiled host s (.call target m args) (.call d (r :: gs))
  | staticCall {target : Expr} {m : Method} {args : List Expr} {d : Dispatch} {gs : List Getter} :
    m.isSupported = true → m.isStatic = true → CompiledAll host s args gs → Expr.dispatchOf host m = .ok d →
    Compiled host s (.call target m args) (.call d gs)
  | typeCall {m : Method} {args : List Expr} {d : Dispatch} {gs : List Getter} :
    m.isSupported = true → m.isStatic = true → CompiledAll host s args gs → Expr.dispatchOf host m = .ok d →
    Compiled host s (.typeCall m args) (.call d gs)
inductive CompiledAll (host : Host) (s : Workbench) : List Expr → List Getter → Prop
  | nil : CompiledAll host s [] []
  | cons {e : Expr} {es : List Expr} {g : Getter} {gs : List Getter} :
    Compiled host s e g → CompiledAll host s es gs → CompiledAll host s (e :: es) (g :: gs)
end

variable {host : Host} {s s' : Workbench}

mutual
theorem Compiled.mono (hk : s.Keeps s') (e : Expr) {g : Getter} (h : Compiled host s e g) :
    Compiled host s' e g := by
  cases h with
  | constant v u n => exact .constant v u n
  | member hr ht => exact .member (hk.receivers _ _ hr) (hk.types _ _ _ hr ht)
  | typeMember hr ht => exact .typeMember (hk.receivers _ _ hr) (hk.types _ _ _ hr ht)
  | binary hc hl hr => exact .binary hc (Compiled.mono hk _ hl) (Compiled.mono hk _ hr)
  | not hg => exact .not (Compiled.mono hk _ hg)
  | convert hg hc => exact .convert (Compiled.mono hk _ hg) hc
  | call hm hi hr ha hd => exact .call hm hi (Compiled.mono hk _ hr) (CompiledAll.mono hk _ ha) hd
  | staticCall hm hi ha hd => exact .staticCall hm hi (CompiledAll.mono hk _ ha) hd
  | typeCall hm hi ha hd => exact .typeCall hm hi (CompiledAll.mono hk _ ha) hd
termination_by structural e
theorem CompiledAll.mono (hk : s.Keeps s') (es : List Expr) {gs : List Getter} (h : CompiledAll host s es gs) :
    CompiledAll host s' es gs := by
  cases h with
  | nil => exact .nil
  | cons hg hs => exact .cons (Compiled.mono hk _ hg) (CompiledAll.mono hk _ hs)
termination_by structural es
end

namespace Expr

/-- What is made of the receiver of an access and of its accessor, if the accessor can do it. -/
theorem accessed_eq_some {α : Type} {m : Member} {whole : Expr} {receiver : Compile Receiver} {can : Accessor → Bool}
    {make : Receiver → Accessor → α} {x : α}
    (h : (do
      let r ← receiver
      let a ← r.accessor host m whole
      return if can a then some (make r a) else none : Compile (Option α)) s = .ok (some x) s') :
    ∃ r t, receiver s = .ok r s' ∧ r.type? s'.world = some t ∧ can (.on host.types m t) = true ∧
      x = make r (.on host.types m t) := by
  obtain ⟨r, s₁, hr, h⟩ := bind_eq_ok.mp h
  obtain ⟨a, s₂, ha, h⟩ := bind_eq_ok.mp h
  obtain ⟨w, hw, rfl⟩ := lift_eq_ok.mp ha
  obtain ⟨t, ht, rfl, rfl⟩ := accessor_eq_ok hw
  obtain ⟨hx, rfl⟩ := pure_eq_ok.mp h
  by_cases hcan : can (.on host.types m t) = true
  · rw [if_pos hcan] at hx
    exact ⟨r, t, hr, ht, hcan, (Option.some.inj hx).symm⟩
  · rw [if_neg hcan] at hx
    cases hx

theorem memberGetter_eq_some {m : Member} {whole : Expr} {receiver : Compile Receiver} {g : Getter}
    (h : memberGetter host m whole receiver s = .ok (some g) s') :
    ∃ r t, receiver s = .ok r s' ∧ r.type? s'.world = some t ∧ g = .read r (.on host.types m t) := by
  unfold memberGetter at h
  split at h
  · cases h
  · obtain ⟨r, t, hr, ht, -, hg⟩ := accessed_eq_some h
    exact ⟨r, t, hr, ht, hg⟩

/-- Conversions to reference types are casts; others use the method of the conversion, if there is one. -/
theorem conversionGetter_eq_some {t : TypeId} {c : Option Method} {g g' : Getter}
    (h : conversionGetter host t c g = .ok (some g')) :
    ((!host.types.isValueType t) = true ∧ g' = .cast g t) ∨
      (¬(!host.types.isValueType t) = true ∧
        ((c = none ∧ g' = .change g t) ∨
          ∃ m d, c = some m ∧ m.isSupported = true ∧ Delegate.on host.types m m.id.owner = .ok d ∧ g' = .convert g d)) := by
  unfold conversionGetter at h
  split at h
  next ht =>
    cases h
    exact .inl ⟨ht, rfl⟩
  next ht =>
    refine .inr ⟨ht, ?_⟩
    cases c with
    | none =>
      cases h
      exact .inl ⟨rfl, rfl⟩
    | some m =>
      simp only at h
      split at h
      next hs =>
        cases hd : Delegate.on host.types m m.id.owner with
        | error e =>
          rw [hd] at h
          cases h
        | ok d =>
          rw [hd] at h
          cases h
          exact .inr ⟨m, d, rfl, hs, hd, rfl⟩
      next => cases h

theorem dispatched_eq_some {m : Method} {gs : List Getter} {g : Getter}
    (h : lift (ofExcept ((dispatchOf host m).map fun d => some (Getter.call d gs))) s = .ok (some g) s') :
    ∃ d, dispatchOf host m = .ok d ∧ g = .call d gs ∧ s' = s := by
  obtain ⟨w, hw, rfl⟩ := lift_eq_ok.mp h
  obtain ⟨hd, rfl⟩ := ofExcept_eq_ok.mp hw
  cases hm : dispatchOf host m with
  | error e =>
    rw [hm] at hd
    cases hd
  | ok d =>
    rw [hm] at hd
    cases hd
    exact ⟨d, rfl, rfl, rfl⟩

/-! ### Calls -/

section
variable {target : Expr} {m : Method} {args : List Expr} {g : Getter}

theorem getter?_call_eq_some (hs : m.isStatic = false)
    (h : (call target m args).getter? host s = .ok (some g) s') :
    ∃ r gs d s₁, target.getter? host s = .ok (some r) s₁ ∧ getters? host args s₁ = .ok (some gs) s' ∧
      m.isSupported = true ∧ dispatchOf host m = .ok d ∧ g = .call d (r :: gs) := by
  unfold getter? at h
  split at h
  · cases h
  · rename_i hm
    rw [if_neg (by simp [hs])] at h
    obtain ⟨r, s₁, hr, h⟩ := bind_eq_ok.mp h
    cases r with
    | none => cases h
    | some r =>
      obtain ⟨gs, s₂, ha, h⟩ := bind_eq_ok.mp h
      cases gs with
      | none => cases h
      | some gs =>
        obtain ⟨d, hd, rfl, rfl⟩ := dispatched_eq_some h
        exact ⟨r, gs, d, s₁, hr, ha, by simpa using hm, hd, rfl⟩

theorem getter?_staticCall_eq_some (hs : m.isStatic = true)
    (h : (call target m args).getter? host s = .ok (some g) s') :
    ∃ gs d, getters? host args s = .ok (some gs) s' ∧ m.isSupported = true ∧ dispatchOf host m = .ok d ∧
      g = .call d gs := by
  unfold getter? at h
  split at h
  · cases h
  · rename_i hm
    obtain ⟨gs, s₁, ha, h⟩ := bind_eq_ok.mp h
    cases gs with
    | none => cases h
    | some gs =>
      obtain ⟨d, hd, rfl, rfl⟩ := dispatched_eq_some h
      exact ⟨gs, d, ha, by simpa using hm, hd, rfl⟩

theorem getter?_typeCall_eq_some (h : (typeCall m args).getter? host s = .ok (some g) s') :
    ∃ gs d, getters? host args s = .ok (some gs) s' ∧ m.isSupported = true ∧ m.isStatic = true ∧
      dispatchOf host m = .ok d ∧ g = .call d gs := by
  unfold getter? at h
  split at h
  · cases h
  · rename_i hm
    simp only [Bool.or_eq_true, Bool.not_eq_true', not_or, Bool.not_eq_false] at hm
    obtain ⟨gs, s₁, ha, h⟩ := bind_eq_ok.mp h
    cases gs with
    | none => cases h
    | some gs =>
      obtain ⟨d, hd, rfl, rfl⟩ := dispatched_eq_some h
      exact ⟨gs, d, ha, hm.1, hm.2, hd, rfl⟩

end

/-! ### Operators and lists -/

section
variable {left right operand : Expr} {u : TypeId} {c : Option Method} {g : Getter}

theorem getter?_binary_eq_some {op : BinaryOp} (h : (binary op left right u).getter? host s = .ok (some g) s') :
    ∃ combine l r s₁, binaryGetter op u = some combine ∧ left.getter? host s = .ok (some l) s₁ ∧
      right.getter? host s₁ = .ok (some r) s' ∧ g = combine l r := by
  unfold getter? at h
  cases hb : binaryGetter op u with
  | none =>
    rw [hb] at h
    cases h
  | some combine =>
    rw [hb] at h
    obtain ⟨l, s₁, hl, h⟩ := bind_eq_ok.mp h
    obtain ⟨r, s₂, hr, h⟩ := bind_eq_ok.mp h
    obtain ⟨hg, rfl⟩ := pure_eq_ok.mp h
    cases l with
    | none => cases hg
    | some l =>
      cases r with
      | none => cases hg
      | some r => exact ⟨combine, l, r, s₁, rfl, hl, hr, (Option.some.inj hg).symm⟩

theorem getter?_not_eq_some (h : (unary .not operand u c).getter? host s = .ok (some g) s') :
    ∃ g', operand.getter? host s = .ok (some g') s' ∧ g = .not g' := by
  unfold getter? at h
  split at h
  · obtain ⟨g', s₁, hg, h⟩ := bind_eq_ok.mp h
    obtain ⟨he, rfl⟩ := pure_eq_ok.mp h
    obtain ⟨g', rfl, rfl⟩ := Option.map_eq_some_iff.mp he
    exact ⟨g', hg, rfl⟩
  · cases h

theorem getter?_convert_eq_some (h : (unary .convert operand u c).getter? host s = .ok (some g) s') :
    ∃ g', operand.getter? host s = .ok (some g') s' ∧ conversionGetter host u c g' = .ok (some g) := by
  unfold getter? at h
  obtain ⟨g', s₁, hg, h⟩ := bind_eq_ok.mp h
  cases g' with
  | none => cases h
  | some g' =>
    obtain ⟨w, hw, rfl⟩ := lift_eq_ok.mp h
    obtain ⟨hcv, rfl⟩ := ofExcept_eq_ok.mp hw
    exact ⟨g', hg, hcv⟩

theorem getters?_cons_eq_some {e : Expr} {es : List Expr} {gs : List Getter}
    (h : getters? host (e :: es) s = .ok (some gs) s') :
    ∃ g gs' s₁, e.getter? host s = .ok (some g) s₁ ∧ getters? host es s₁ = .ok (some gs') s' ∧ gs = g :: gs' := by
  unfold getters? at h
  obtain ⟨g, s₁, hg, h⟩ := bind_eq_ok.mp h
  cases g with
  | none => cases h
  | some g =>
    obtain ⟨gs', s₂, ha, h⟩ := bind_eq_ok.mp h
    obtain ⟨he, rfl⟩ := pure_eq_ok.mp h
    obtain ⟨gs', rfl, rfl⟩ := Option.map_eq_some_iff.mp he
    exact ⟨g, gs', s₁, hg, ha, rfl⟩

end

/-! ### Assignments -/

section
variable {custom : Option (Table DeclId CustomSetter)} {k : Setter}

theorem memberSetter_eq_some {m : Member} {whole : Expr} {receiver : Compile Receiver}
    (hcustom : custom.bind (·.find? m.id) = none)
    (h : memberSetter host custom m whole receiver s = .ok (some k) s') :
    ∃ r t, receiver s = .ok r s' ∧ r.type? s'.world = some t ∧ (Accessor.on host.types m t).canWrite = true ∧
      k = .write r (.on host.types m t) := by
  unfold memberSetter at h
  simp only [hcustom] at h
  split at h
  · cases h
  · exact accessed_eq_some h

theorem setter?_convert_eq_some {operand : Expr} {u : TypeId} {c : Option Method}
    (h : (unary .convert operand u c).setter? host custom s = .ok (some k) s') :
    ∃ t k', operand.type? = some t ∧ operand.setter? host custom s = .ok (some k') s' ∧ k = .change t k' := by
  unfold setter? at h
  cases ht : operand.type? with
  | none =>
    simp only [ht] at h
    cases h
  | some t =>
    simp only [ht] at h
    split at h
    · obtain ⟨k', s₁, hk, h⟩ := bind_eq_ok.mp h
      obtain ⟨he, rfl⟩ := pure_eq_ok.mp h
      obtain ⟨k', rfl, rfl⟩ := Option.map_eq_some_iff.mp he
      exact ⟨t, k', rfl, hk, rfl⟩
    · cases h

end

theorem kept_find? {node : NodeId} {make : Compile Receiver} {r : Receiver} (h : kept node make s = .ok r s') :
    s'.receivers.find? node = some r := by
  rcases kept_eq_ok.mp h with ⟨hr, rfl⟩ | ⟨-, s₁, -, rfl⟩
  · exact hr
  · simp

variable {I : Workbench → Prop}

mutual
theorem getter?_compiled {s s' : Workbench} (e : Expr) (hn : ∀ x ∈ e.parts, x.NodeWithin host (Guarded I Keeps))
    (hs : I s) {g : Getter} (h : e.getter? host s = .ok (some g) s') : Compiled host s' e g := by
  have hc : Chains (Guarded I Keeps) := keeps_chains.guarded
  cases e with
  | constant v u n =>
    cases h
    exact .constant v u n
  | member node target m =>
    obtain ⟨r, t, hr, ht, rfl⟩ := memberGetter_eq_some h
    exact .member (kept_find? hr) ht
  | typeMember node m =>
    obtain ⟨r, t, hr, ht, rfl⟩ := memberGetter_eq_some h
    exact .typeMember (kept_find? hr) ht
  | binary op left right u =>
    have hnl : ∀ x ∈ left.parts, x.NodeWithin host (Guarded I Keeps) := fun x hx => hn x (by simp [parts, hx])
    have hnr : ∀ x ∈ right.parts, x.NodeWithin host (Guarded I Keeps) := fun x hx => hn x (by simp [parts, hx])
    obtain ⟨combine, l, r, s₁, hb, hl, hr, rfl⟩ := getter?_binary_eq_some h
    have h₁ := getter?_within hc left hnl s (some l) s₁ hl hs
    have h₂ := getter?_within hc right hnr s₁ (some r) s' hr h₁.1
    have hcl := getter?_compiled left hnl hs hl
    -- Compiling the right operand has kept the receivers of the left one.
    exact .binary hb (hcl.mono h₂.2 left) (getter?_compiled right hnr h₁.1 hr)
  | unary op operand u c =>
    have hno : ∀ x ∈ operand.parts, x.NodeWithin host (Guarded I Keeps) := fun x hx => hn x (by simp [parts, hx])
    cases op with
    | not =>
      obtain ⟨g', hg, rfl⟩ := getter?_not_eq_some h
      exact .not (getter?_compiled operand hno hs hg)
    | negate => cases h
    | convert =>
      obtain ⟨g', hg, hcv⟩ := getter?_convert_eq_some h
      exact .convert (getter?_compiled operand hno hs hg) hcv
  | call target m args =>
    have hnt : ∀ x ∈ target.parts, x.NodeWithin host (Guarded I Keeps) := fun x hx => hn x (by simp [parts, hx])
    have hna : ∀ x ∈ partsAll args, x.NodeWithin host (Guarded I Keeps) := fun x hx => hn x (by simp [parts, hx])
    cases hi : m.isStatic with
    | true =>
      obtain ⟨gs, d, ha, hm, hd, rfl⟩ := getter?_staticCall_eq_some hi h
      exact .staticCall hm hi (getters?_compiled args hna hs ha) hd
    | false =>
      obtain ⟨r, gs, d, s₁, hr, ha, hm, hd, rfl⟩ := getter?_call_eq_some hi h
      have h₁ := getter?_within hc target hnt s (some r) s₁ hr hs
      have h₂ := getters?_within hc args hna s₁ (some gs) s' ha h₁.1
      have hcr := getter?_compiled target hnt hs hr
      exact .call hm hi (hcr.mono h₂.2 target) (getters?_compiled args hna h₁.1 ha) hd
  | typeCall m args =>
    have hna : ∀ x ∈ partsAll args, x.NodeWithin host (Guarded I Keeps) := fun x hx => hn x (by simp [parts, hx])
    obtain ⟨gs, d, ha, hm, hi, hd, rfl⟩ := getter?_typeCall_eq_some h
    exact .typeCall hm hi (getters?_compiled args hna hs ha) hd
  | conditional test yes no u => cases h
termination_by structural e
theorem getters?_compiled {s s' : Workbench} (es : List Expr)
    (hn : ∀ x ∈ partsAll es, x.NodeWithin host (Guarded I Keeps)) (hs : I s) {gs : List Getter}
    (h : getters? host es s = .ok (some gs) s') : CompiledAll host s' es gs := by
  have hc : Chains (Guarded I Keeps) := keeps_chains.guarded
  cases es with
  | nil =>
    cases h
    exact .nil
  | cons e es =>
    have hne : ∀ x ∈ e.parts, x.NodeWithin host (Guarded I Keeps) := fun x hx => hn x (by simp [partsAll, hx])
    have hnes : ∀ x ∈ partsAll es, x.NodeWithin host (Guarded I Keeps) := fun x hx => hn x (by simp [partsAll, hx])
    obtain ⟨g, gs', s₁, hg, ha, rfl⟩ := getters?_cons_eq_some h
    have h₁ := getter?_within hc e hne s (some g) s₁ hg hs
    have h₂ := getters?_within hc es hnes s₁ (some gs') s' ha h₁.1
    exact .cons ((getter?_compiled e hne hs hg).mono h₂.2 e) (getters?_compiled es hnes h₁.1 ha)
termination_by structural es
end

end Expr

end DataBinding
