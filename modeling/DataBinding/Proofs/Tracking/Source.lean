import DataBinding.Proofs.Host.Property
import DataBinding.Proofs.Tracking.Tame

/-!
# Observed expressions

The expressions that a binding can follow: properties of constant objects that tell about their changes, under
operators, and static calls that depend on their arguments only. Their value hangs on the slots of these properties
(`eval_congr`), and their compiled forms give it too (`Source.run_eq`).
-/

namespace DataBinding

open Effect

/-- What the method gives depends on its arguments only. -/
def Method.Pure (p : Platform) (m : Method) : Prop :=
  ∃ f : List Value → Except Error Value, ∀ host : Host, host.toPlatform = p → ∀ args,
    m.invoke host none args = Effect.ofExcept (f args)

namespace Expr

/-- The part is an access to such a property of a constant object, a static call, or no access at all. -/
def Observed (p : Platform) (config : Configuration) : Expr → Prop
  | member _ target m => ∃ o u n s, target = constant (.object o) u n ∧ Property p.types config o m s
  | typeMember .. => False
  | call .. => False
  | typeCall m args => m.isStatic = true ∧ args.length = m.arity ∧ m.Pure p
  | unary .convert _ _ (some m) => m.isStatic = true ∧ m.arity = 1 ∧ m.Pure p
  | _ => True

def Reads (types : TypeTable) (o slot name : String) : Expr → Prop
  | member _ (constant (.object r) _ _) m =>
    r.name = o ∧ (m.visibleFrom types (.object r)).reader = some (.slot slot) ∧ m.name = name
  | _ => False

/-- Watching all slots that an expression reads. -/
def watch (p : Platform) (e : Expr) : Watch := ⟨p, fun o s n => ∃ x ∈ e.parts, x.Reads p.types o s n⟩

end Expr

section
variable {p : Platform} {config : Configuration} {f f' : Action → Effect Unit}

theorem Expr.Observed.agreeNode {x : Expr} (hx : x.Observed p config) {w w' : World}
    (hr : ∀ o s n, x.Reads p.types o s n → w'.slot o s = w.slot o s) : x.AgreeNode ⟨p, f⟩ ⟨p, f'⟩ w w' := by
  cases x with
  | member node target m =>
    obtain ⟨o, u, n, s, rfl, hprop⟩ := hx
    rintro v ⟨⟩
    refine .inl ⟨w.slot o.name s, hprop.read_eq _ w, ?_⟩
    rw [← hr o.name s m.name ⟨rfl, hprop.stored, rfl⟩]
    exact hprop.read_eq _ w'
  | typeMember node m => cases hx
  | call target m args => cases hx
  | typeCall m args =>
    obtain ⟨-, -, g, hg⟩ := hx
    intro vs
    rw [hg ⟨p, f⟩ rfl, hg ⟨p, f'⟩ rfl]
    exact agree_ofExcept _
  | unary op operand u c =>
    cases op with
    | convert =>
      cases c with
      | some m =>
        obtain ⟨-, -, g, hg⟩ := hx
        intro v
        rw [hg ⟨p, f⟩ rfl, hg ⟨p, f'⟩ rfl]
        exact agree_ofExcept _
      | none => trivial
    | _ => trivial
  | _ => trivial

/-- Worlds that agree on the slots that an observed expression reads agree on its value, whatever actions do. -/
theorem Expr.eval_congr {e : Expr} (he : ∀ x ∈ e.parts, x.Observed p config) {w w' : World}
    (hr : ∀ o s n, (e.watch p).reads o s n → w'.slot o s = w.slot o s) :
    Agree w w' (e.eval ⟨p, f⟩) (e.eval ⟨p, f'⟩) :=
  eval_agree e fun x hx => (he x hx).agreeNode fun o s n h => hr o s n ⟨x, hx, h⟩

end

/-! ## Compiled forms -/

section
variable {p : Platform} {f f' : Action → Effect Unit} {s : Workbench}

mutual
theorem Compiled.of_platform (e : Expr) {g : Getter} (h : Compiled ⟨p, f⟩ s e g) : Compiled ⟨p, f'⟩ s e g := by
  cases h with
  | constant v u n => exact .constant v u n
  | member hr ht => exact .member hr ht
  | typeMember hr ht => exact .typeMember hr ht
  | binary hc hl hr => exact .binary hc (Compiled.of_platform _ hl) (Compiled.of_platform _ hr)
  | not hg => exact .not (Compiled.of_platform _ hg)
  | convert hg hc => exact .convert (Compiled.of_platform _ hg) hc
  | call hm hi hr ha hd => exact .call hm hi (Compiled.of_platform _ hr) (CompiledAll.of_platform _ ha) hd
  | staticCall hm hi ha hd => exact .staticCall hm hi (CompiledAll.of_platform _ ha) hd
  | typeCall hm hi ha hd => exact .typeCall hm hi (CompiledAll.of_platform _ ha) hd
termination_by structural e
theorem CompiledAll.of_platform (es : List Expr) {gs : List Getter} (h : CompiledAll ⟨p, f⟩ s es gs) :
    CompiledAll ⟨p, f'⟩ s es gs := by
  cases h with
  | nil => exact .nil
  | cons hg hs => exact .cons (Compiled.of_platform _ hg) (CompiledAll.of_platform _ hs)
termination_by structural es
end

end

open Compile Workbench

namespace Expr

variable {p : Platform} {config : Configuration} {host : Host}

theorem memberReceiver_constant {node : NodeId} {o : ObjectRef} {u : TypeId} {n : Option String} {m : Member}
    {s s' : Workbench} {r : Receiver}
    (h : memberReceiver host node (constant (.object o) u n) m s = .ok r s') :
    (s.receivers.find? node = some r ∧ s' = s) ∨
      (s.receivers.find? node = none ∧ r = .shared (.object o) ∧
        s' = { s with receivers := s.receivers.insert node r }) := by
  rcases kept_eq_ok.mp h with ⟨hr, rfl⟩ | ⟨hr, s₁, hm, rfl⟩
  · exact .inl ⟨hr, rfl⟩
  · cases hm
    exact .inr ⟨hr, rfl, rfl⟩

theorem Observed.observed_within {x : Expr} (hx : x.Observed p config) {R : Workbench → Workbench → Prop} (hR : Chains R)
    (hins : ∀ s n r, s.receivers.find? n = none → R s { s with receivers := s.receivers.insert n r }) :
    x.NodeWithin host R := by
  cases x with
  | member node target m =>
    obtain ⟨o, u, n, slot, rfl, -⟩ := hx
    intro s r s' h
    rcases memberReceiver_constant h with ⟨-, rfl⟩ | ⟨hn, -, rfl⟩
    · exact hR.refl s'
    · exact hins s node r hn
  | typeMember node m => cases hx
  | _ => trivial

/-- Through the receivers that were resolved for it, an observed part reaches what the evaluator reaches. -/
theorem Observed.sameNode {f : Action → Effect Unit} {x : Expr} (hx : x.Observed p config) {xs : List Expr}
    {b : Workbench} (hb : b.Fits xs) (hmem : x ∈ xs) (w : World) : x.SameNode ⟨p, f⟩ w b := by
  cases x with
  | member node target m =>
    obtain ⟨o, u, n, slot, rfl, hprop⟩ := hx
    intro r hr t ht
    have hfit : r = .shared (.object o) := hb _ hmem node r rfl hr
    subst hfit
    cases ht
    refine ⟨rfl, rfl, ?_⟩
    have hinst := hprop.visible_isStatic
    exact get_instance (resolve_eq_visibleFrom hprop.declared rfl hprop.isInstance hinst) hinst
  | typeMember node m => cases hx
  | call target m args => cases hx
  | typeCall m args => exact hx.2.1
  | unary op operand u c =>
    cases op with
    | convert =>
      cases c with
      | some m => exact ⟨hx.1, hx.2.1⟩
      | none => trivial
    | _ => trivial
  | _ => trivial

end Expr

/-! ## Triggers -/

/-- The trigger listens to this property of the object, once it is subscribed. -/
structure Trigger.Observes (t : Trigger) (o : ObjectRef) (name : String) : Prop where
  target : t.target = .value (.object o)
  source : t.source = .property name
  handler : t.handler = none

namespace Expr

variable {p : Platform} {config : Configuration} {host : Host}

/-- The triggers of a list of parts: each listens to a property, and each access has one. -/
structure Collects (xs : List Expr) (ts : List Trigger) : Prop where
  observes : ∀ t ∈ ts, ∃ o n, t.Observes o n
  complete : ∀ node o u n m, member node (constant (.object o) u n) m ∈ xs → ∃ t ∈ ts, t.Observes o m.name

theorem Collects.append {xs ys : List Expr} {ts us : List Trigger} (h : Collects xs ts) (h' : Collects ys us) :
    Collects (xs ++ ys) (ts ++ us) where
  observes t ht := (List.mem_append.mp ht).elim (h.observes t) (h'.observes t)
  complete node o u n m hm := by
    rcases List.mem_append.mp hm with hm | hm
    · obtain ⟨t, ht, ho⟩ := h.complete node o u n m hm
      exact ⟨t, List.mem_append_left _ ht, ho⟩
    · obtain ⟨t, ht, ho⟩ := h'.complete node o u n m hm
      exact ⟨t, List.mem_append_right _ ht, ho⟩

theorem Collects.cons {x : Expr} {xs : List Expr} {ts : List Trigger} (h : Collects xs ts)
    (hx : x.node? = none) : Collects (x :: xs) ts where
  observes := h.observes
  complete node o u n m hm := by
    rcases List.mem_cons.mp hm with he | hm
    · rw [← he] at hx
      cases hx
    · exact h.complete node o u n m hm

theorem Collects.nil : Collects [] [] :=
  ⟨fun _ h => absurd h List.not_mem_nil, fun _ _ _ _ _ h => absurd h List.not_mem_nil⟩

theorem Collects.single {node : NodeId} {o : ObjectRef} {u : TypeId} {n : Option String} {m : Member} {t : Trigger}
    (ht : t.Observes o m.name) : Collects [member node (constant (.object o) u n) m] [t] where
  observes t' ht' := by
    cases List.mem_singleton.mp ht'
    exact ⟨o, m.name, ht⟩
  complete node' o' u' n' m' hm := by
    cases List.mem_singleton.mp hm
    exact ⟨t, List.mem_singleton_self t, ht⟩

theorem instanceTrigger_eq {node : NodeId} {o : ObjectRef} {u : TypeId} {n : Option String} {m : Member}
    {slot : String} (ht : host.types = p.types) (hp : Property p.types config o m slot) {xs : List Expr}
    (hmem : member node (constant (.object o) u n) m ∈ xs) (hn : ∀ x ∈ xs, x.Named xs) {s s' : Workbench}
    {ts : List Trigger} (hs : s.Fits xs)
    (h : instanceTrigger host config m (memberReceiver host node (constant (.object o) u n) m) s = .ok ts s') :
    s'.world = s.world ∧ s'.Fits xs ∧ ∃ t, ts = [t] ∧ t.Observes o m.name := by
  obtain ⟨r, s₁, hr, h⟩ := bind_eq_ok.mp h
  have hs₁ : s₁.world = s.world ∧ s₁.Fits xs ∧ r = .shared (.object o) := by
    rcases memberReceiver_constant hr with ⟨hfind, rfl⟩ | ⟨-, rfl, rfl⟩
    · exact ⟨rfl, hs, hs _ hmem node r rfl hfind⟩
    · exact ⟨rfl, fits_insert (hn _ hmem) rfl rfl s.world hs, rfl⟩
  obtain ⟨hw, hf, rfl⟩ := hs₁
  obtain ⟨_, _, hg, h⟩ := bind_eq_ok.mp h
  cases hg
  obtain ⟨hts, rfl⟩ := pure_eq_ok.mp h
  refine ⟨hw, hf, ⟨.value (.object o), .property m.name, host.types.qualifiedMember m, none⟩, ?_, ⟨rfl, rfl, rfl⟩⟩
  rw [← hts]
  simp only [Receiver.target, Value.type?, ht, hp.source_eq]

mutual
theorem triggers_collect (ht : host.types = p.types) (e : Expr) (he : ∀ x ∈ e.parts, x.Observed p config)
    {xs : List Expr} (hsub : e.parts ⊆ xs) (hn : ∀ x ∈ xs, x.Named xs) {s s' : Workbench} {ts : List Trigger}
    (hs : s.Fits xs) (h : e.triggers host config s = .ok ts s') :
    s'.world = s.world ∧ s'.Fits xs ∧ Collects e.parts ts := by
  unfold triggers at h
  cases e with
  | constant v u n =>
    cases h
    exact ⟨rfl, hs, Collects.nil.cons rfl⟩
  | member node target m =>
    obtain ⟨o, u, n, slot, rfl, hprop⟩ := he _ (mem_parts_self _)
    have hmem : member node (constant (.object o) u n) m ∈ xs := hsub (mem_parts_self _)
    simp only [hprop.isInstance, Bool.false_eq_true, if_false] at h
    obtain ⟨own, s₁, hown, h⟩ := bind_eq_ok.mp h
    obtain ⟨hw, hf, t, rfl, ho⟩ := instanceTrigger_eq ht hprop hmem hn hs hown
    -- The target is a constant and has no triggers.
    obtain ⟨inner, s₂, hinner, h⟩ := bind_eq_ok.mp h
    unfold triggers at hinner
    cases hinner
    cases h
    refine ⟨hw, hf, ?_⟩
    have hc : Collects [constant (.object o) u n] [] := Collects.nil.cons rfl
    exact (Collects.single ho).append hc
  | typeMember node m => cases he _ (mem_parts_self _)
  | binary op left right u =>
    obtain ⟨l, s₁, hl, h⟩ := bind_eq_ok.mp h
    obtain ⟨r, s₂, hr, h⟩ := bind_eq_ok.mp h
    cases h
    have hsl : left.parts ⊆ xs := fun x hx => hsub (by simp [parts, hx])
    have hsr : right.parts ⊆ xs := fun x hx => hsub (by simp [parts, hx])
    obtain ⟨hw₁, hf₁, hc₁⟩ := triggers_collect ht left (fun x hx => he x (by simp [parts, hx])) hsl hn hs hl
    obtain ⟨hw₂, hf₂, hc₂⟩ := triggers_collect ht right (fun x hx => he x (by simp [parts, hx])) hsr hn hf₁ hr
    exact ⟨hw₂.trans hw₁, hf₂, (hc₁.append hc₂).cons rfl⟩
  | unary op operand u c =>
    have hso : operand.parts ⊆ xs := fun x hx => hsub (by simp [parts, hx])
    obtain ⟨hw₁, hf₁, hc₁⟩ := triggers_collect ht operand (fun x hx => he x (by simp [parts, hx])) hso hn hs h
    exact ⟨hw₁, hf₁, hc₁.cons rfl⟩
  | call target m args => cases he _ (mem_parts_self _)
  | typeCall m args =>
    have hsa : partsAll args ⊆ xs := fun x hx => hsub (by simp [parts, hx])
    obtain ⟨hw₁, hf₁, hc₁⟩ := triggersAll_collect ht args (fun x hx => he x (by simp [parts, hx])) hsa hn hs h
    exact ⟨hw₁, hf₁, hc₁.cons rfl⟩
  | conditional test yes no u =>
    obtain ⟨a, s₁, ha, h⟩ := bind_eq_ok.mp h
    obtain ⟨b, s₂, hb, h⟩ := bind_eq_ok.mp h
    obtain ⟨c, s₃, hc, h⟩ := bind_eq_ok.mp h
    cases h
    have hst : test.parts ⊆ xs := fun x hx => hsub (by simp [parts, hx])
    have hsy : yes.parts ⊆ xs := fun x hx => hsub (by simp [parts, hx])
    have hsn : no.parts ⊆ xs := fun x hx => hsub (by simp [parts, hx])
    obtain ⟨hw₁, hf₁, hc₁⟩ := triggers_collect ht test (fun x hx => he x (by simp [parts, hx])) hst hn hs ha
    obtain ⟨hw₂, hf₂, hc₂⟩ := triggers_collect ht yes (fun x hx => he x (by simp [parts, hx])) hsy hn hf₁ hb
    obtain ⟨hw₃, hf₃, hc₃⟩ := triggers_collect ht no (fun x hx => he x (by simp [parts, hx])) hsn hn hf₂ hc
    exact ⟨hw₃.trans (hw₂.trans hw₁), hf₃, ((hc₁.append hc₂).append hc₃).cons rfl⟩
termination_by structural e
theorem triggersAll_collect (ht : host.types = p.types) (es : List Expr)
    (he : ∀ x ∈ partsAll es, x.Observed p config) {xs : List Expr} (hsub : partsAll es ⊆ xs)
    (hn : ∀ x ∈ xs, x.Named xs) {s s' : Workbench} {ts : List Trigger} (hs : s.Fits xs)
    (h : triggersAll host config es s = .ok ts s') : s'.world = s.world ∧ s'.Fits xs ∧ Collects (partsAll es) ts := by
  unfold triggersAll at h
  cases es with
  | nil =>
    cases h
    exact ⟨rfl, hs, Collects.nil⟩
  | cons e es =>
    obtain ⟨t, s₁, ht₁, h⟩ := bind_eq_ok.mp h
    obtain ⟨us, s₂, hu, h⟩ := bind_eq_ok.mp h
    cases h
    have hse : e.parts ⊆ xs := fun x hx => hsub (by simp [partsAll, hx])
    have hss : partsAll es ⊆ xs := fun x hx => hsub (by simp [partsAll, hx])
    obtain ⟨hw₁, hf₁, hc₁⟩ := triggers_collect ht e (fun x hx => he x (by simp [partsAll, hx])) hse hn hs ht₁
    obtain ⟨hw₂, hf₂, hc₂⟩ := triggersAll_collect ht es (fun x hx => he x (by simp [partsAll, hx])) hss hn hf₁ hu
    exact ⟨hw₂.trans hw₁, hf₂, hc₁.append hc₂⟩
termination_by structural es
end

end Expr

end DataBinding
