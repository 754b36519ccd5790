import DataBinding.Proofs.Compiled.Shape
import DataBinding.Proofs.Schema.Lineage
import DataBinding.Proofs.Host.Invoke

/-!
# Compiled forms against the evaluator

In a world where the host code that an expression runs is quiet, its compiled form and the evaluator agree
(`Compiled.agree`), if each member access and each call reaches the same declaration on both ways (`SameNode`).
-/

namespace DataBinding

open Effect Compile

namespace Expr

/-- The compiled form of a part reaches what the evaluator reaches: the value that a receiver holds is what the
target evaluates to, and it is read through the member that is visible from it; a call is given as many
arguments as the method takes, and what overrides the method can be called through a delegate. -/
def SameNode (host : Host) (t : World) (s : Workbench) : Expr → Prop
  | member node target m => ∀ r, s.receivers.find? node = some r → ∀ u, r.type? s.world = some u →
    target.eval host t = .ok (r.value t) t ∧ (r.value t).type? = some u ∧
      (Accessor.on host.types m u).get host (r.value t) = (m.visibleFrom host.types (r.value t)).read host (r.value t)
  | typeMember node m => ∀ r, s.receivers.find? node = some r → r = .type m.id.owner
  | unary .convert _ _ (some m) => m.isStatic = true ∧ m.arity = 1
  | call target m args => m.isStatic = false ∧ args.length = m.arity ∧
    ∀ v u, target.eval host t = .ok v t → v.type? = some u →
      (m.isSupported = true → (host.types.override u m).isSupported = true) ∧
      ((host.types.override u m).returns = none →
        ∀ vs out, (host.types.override u m).run host v vs t = .ok out t → out.1 = .null)
  | typeCall m args => args.length = m.arity
  | _ => True

end Expr

namespace Accessor

theorem on_owner_member (types : TypeTable) (m : Member) : (on types m m.id.owner).member = m := by
  simp [on, resolve]

end Accessor

theorem Value.isNull_of_type? {v : Value} {u : TypeId} (h : v.type? = some u) : v.isNull = false := by
  cases v <;> first | rfl | cases h

theorem Member.visibleFrom_null (types : TypeTable) (m : Member) : m.visibleFrom types .null = m := by
  unfold visibleFrom
  split
  · rfl
  · rfl

theorem Method.visibleFrom_of_type? {types : TypeTable} {m : Method} {v : Value} {u : TypeId} (h : v.type? = some u) :
    m.visibleFrom types v = types.override u m := by
  rw [visibleFrom, h]

/-- What overrides a method takes as many arguments in all, and so has a delegate unless it takes one by reference. -/
theorem Method.override_isSupported_iff {types : TypeTable} {u : TypeId} {m : Method} (hs : m.isStatic = false)
    (hm : m.isSupported = true) :
    (types.override u m).isSupported = true ↔ (types.override u m).hasByRefParams = false := by
  have htotal : (types.override u m).totalArity = m.totalArity := by
    rw [totalArity_instance (TypeTable.override_isStatic types u m hs), totalArity_instance hs, TypeTable.override_arity]
  simp only [isSupported, Bool.and_eq_true, Bool.not_eq_true'] at hm ⊢
  rw [htotal]
  exact and_iff_right hm.1

theorem Expr.applyBinary_equal (types : TypeTable) (u : TypeId) (a b : Value) :
    applyBinary types .equal u a b = .ok (.boolean (a.looselySame b)) := by
  unfold applyBinary
  rw [if_neg (by simp)]
  rfl

section
variable {host : Host} {t : World} {s : Workbench}

theorem read_agree {node : NodeId} {target : Expr} {m : Member} {r : Receiver} {u : TypeId}
    (hq : (Expr.member node target m).QuietNode host t) (hs : (Expr.member node target m).SameNode host t s)
    (hr : s.receivers.find? node = some r) (hu : r.type? s.world = some u) :
    Agree t t ((Getter.read r (.on host.types m u)).run host) ((Expr.member node target m).eval host) := by
  obtain ⟨he, hv, hget⟩ := hs r hr u hu
  have hread : Agree t t ((Accessor.on host.types m u).get host (r.value t))
      ((m.visibleFrom host.types (r.value t)).read host (r.value t)) := by
    rw [hget]
    exact hq _ he
  unfold Agree
  unfold Expr.eval
  rw [bind_of_ok he, if_neg (by simp [Value.isNull_of_type? hv])]
  exact hread

theorem typeRead_agree {node : NodeId} {m : Member} {r : Receiver} {u : TypeId}
    (hq : (Expr.typeMember node m).QuietNode host t) (hs : (Expr.typeMember node m).SameNode host t s)
    (hr : s.receivers.find? node = some r) (hu : r.type? s.world = some u) :
    Agree t t ((Getter.read r (.on host.types m u)).run host) ((Expr.typeMember node m).eval host) := by
  cases hs r hr
  cases hu
  have hget : (Accessor.on host.types m m.id.owner).get host .null =
      (m.visibleFrom host.types .null).read host .null := by
    unfold Accessor.get
    rw [Accessor.on_owner_member, Member.visibleFrom_null, ite_self]
  have hread : Agree t t ((Accessor.on host.types m m.id.owner).get host .null)
      ((m.visibleFrom host.types .null).read host .null) := by
    rw [hget]
    exact hq
  exact hread

theorem convert_agree {u : TypeId} {c : Option Method} {g g' : Getter} {operand : Expr}
    (hq : (Expr.unary .convert operand u c).QuietNode host t)
    (hs : (Expr.unary .convert operand u c).SameNode host t s)
    (hg : Agree t t (g.run host) (operand.eval host)) (hc : Expr.conversionGetter host u c g = .ok (some g')) :
    Agree t t (g'.run host) ((Expr.unary .convert operand u c).eval host) := by
  unfold Expr.eval Expr.applyUnary
  obtain ⟨hu, rfl⟩ | ⟨hu, ⟨rfl, rfl⟩ | ⟨m, d, rfl, hsupported, hd, rfl⟩⟩ := Expr.conversionGetter_eq_some hc
  · simp only [if_pos hu]
    exact hg.bind fun v _ _ => agree_ofExcept _
  · simp only [if_neg hu]
    exact hg.bind fun v _ _ => agree_ofExcept _
  · obtain ⟨hm, ha⟩ := hs
    have hown : Delegate.on host.types m m.id.owner = .ok ⟨m, .of m⟩ := by
      unfold Delegate.on Delegate.resolve
      simp [hm, hsupported]
    cases hd.symm.trans hown
    simp only [if_neg hu]
    refine hg.bind fun v _ _ => ?_
    have hl : [v].length = m.arity := ha.symm
    exact Delegate.result_static hm hl none (hq v)

theorem dispatch_static {m : Method} {d : Dispatch} (hs : m.isStatic = true)
    (hd : Expr.dispatchOf host m = .ok d) : d = .fixed ⟨m, .of m⟩ := by
  unfold Expr.dispatchOf Delegate.on Delegate.resolve at hd
  simp only [hs, Bool.not_true, Bool.and_false, Bool.false_eq_true, if_false, if_true] at hd
  split at hd
  · cases hd
    rfl
  · cases hd

theorem dispatch_on {m : Method} {d : Dispatch} (hs : m.isStatic = false) (hd : Expr.dispatchOf host m = .ok d)
    {v : Value} {u : TypeId} (hv : v.type? = some u) (vs : List Value) :
    d.delegate host (v :: vs) = Delegate.on host.types m u := by
  unfold Expr.dispatchOf at hd
  cases hvirtual : m.isVirtual with
  | true =>
    simp only [hvirtual, hs, Bool.not_false, Bool.and_self, if_true] at hd
    cases hd
    simp only [Dispatch.delegate, List.head?_cons, Option.bind_some, hv]
  | false =>
    have hon : Delegate.on host.types m m.id.owner = Delegate.on host.types m u := by
      simp only [Delegate.on, Delegate.resolve, hs, Bool.false_eq_true, if_false,
        TypeTable.override_not_virtual hvirtual]
    rw [hvirtual, Bool.false_and, if_neg (by simp), hon] at hd
    cases hfound : Delegate.on host.types m u with
    | error e =>
      rw [hfound] at hd
      cases hd
    | ok found =>
      rw [hfound] at hd
      cases hd
      rfl

theorem on_instance {m : Method} (hs : m.isStatic = false) (types : TypeTable) (u : TypeId) :
    Delegate.on types m u =
      if (types.override u m).isSupported then .ok ⟨types.override u m, .of (types.override u m)⟩
      else .error (.unsupportedMethod (types.qualifiedMethod (types.override u m))) := by
  simp only [Delegate.on, Delegate.resolve, hs, Bool.false_eq_true, if_false]

theorem dispatch_null {m : Method} {d : Dispatch} (hs : m.isStatic = false) (hd : Expr.dispatchOf host m = .ok d)
    (vs : List Value) (e : Error) :
    Agree t t (do let d ← ofExcept (d.delegate host (.null :: vs)); d.result host (.null :: vs)) (fail e) := by
  unfold Expr.dispatchOf at hd
  split at hd
  · cases hd
    exact agree_fail _ _
  · cases hm : Delegate.on host.types m m.id.owner with
    | error e =>
      rw [hm] at hd
      cases hd
    | ok found =>
      rw [hm] at hd
      cases hd
      have hfound : found.method.isStatic = false := by
        unfold Delegate.on Delegate.resolve at hm
        simp only [hs, Bool.false_eq_true, if_false] at hm
        split at hm
        · cases hm
          exact TypeTable.override_isStatic host.types _ m hs
        · cases hm
      have hfails : FailsAt t (found.result host (.null :: vs)) := by
        -- With a wrong number of arguments it fails before it comes to the receiver.
        by_cases hl : (Value.null :: vs).length = found.kind.arity
        · unfold Delegate.result Delegate.invoke
          simp only [hl, hfound, ne_eq, not_true_eq_false, if_false, Bool.false_eq_true]
          exact ⟨_, rfl⟩
        · exact Delegate.result_fails_of_length hl
      exact agree_of_fails hfails ⟨e, rfl⟩

theorem binary_agree {op : BinaryOp} {u : TypeId} {combine : Getter → Getter → Getter} {left right : Expr}
    {l r : Getter} (hc : Expr.binaryGetter op u = some combine) (hl : Agree t t (l.run host) (left.eval host))
    (hr : Agree t t (r.run host) (right.eval host)) :
    Agree t t ((combine l r).run host) ((Expr.binary op left right u).eval host) := by
  cases op with
  | andAlso =>
    cases hc
    exact Expr.andAlso_agree hl hr
  | orElse =>
    cases hc
    exact Expr.orElse_agree hl hr
  | coalesce =>
    cases hc
    exact Expr.coalesce_agree hl hr
  | equal =>
    cases hc
    refine Expr.strict_agree hl hr fun a b => ?_
    rw [Expr.applyBinary_equal]
    exact agree_pure _
  | add =>
    simp only [Expr.binaryGetter] at hc
    split at hc
    · rename_i hu
      cases hc
      refine Expr.strict_agree hl hr fun a b => ?_
      unfold Expr.applyBinary
      rw [if_pos ⟨rfl, hu⟩]
      exact agree_pure _
    · cases hc
  | _ => cases hc

theorem evalAll_length (es : List Expr) {vs : List Value} {w w' : World} (h : Expr.evalAll host es w = .ok vs w') :
    vs.length = es.length := by
  induction es generalizing vs w with
  | nil =>
    cases h
    rfl
  | cons e es ih =>
    unfold Expr.evalAll at h
    obtain ⟨v, w₁, -, h⟩ := bind_eq_ok.mp h
    obtain ⟨vs', w₂, hvs, h⟩ := bind_eq_ok.mp h
    cases h
    rw [List.length_cons, List.length_cons, ih hvs]

theorem typeCall_agree {m : Method} {args : List Expr} {d : Dispatch} {gs : List Getter}
    (hq : (Expr.typeCall m args).QuietNode host t) (hs : (Expr.typeCall m args).SameNode host t s)
    (hi : m.isStatic = true) (hd : Expr.dispatchOf host m = .ok d)
    (ha : Agree t t (Getter.runAll host gs) (Expr.evalAll host args)) :
    Agree t t ((Getter.call d gs).run host) ((Expr.typeCall m args).eval host) := by
  rw [dispatch_static hi hd]
  refine ha.bind fun vs _ hvs => ?_
  have hl : vs.length = m.arity := (evalAll_length args hvs).trans hs
  exact Delegate.result_static hi hl none (hq vs)

/-- On a receiver a compiled call gives what its method gives, unless that gives a value where a delegate gives none. -/
theorem received_agree {m : Method} {d : Dispatch} (hi : m.isStatic = false) (hd : Expr.dispatchOf host m = .ok d)
    {v : Value} {u : TypeId} (hu : v.type? = some u) {vs : List Value}
    (hq : QuietAt t ((m.visibleFrom host.types v).invoke host (some v) vs))
    (h : ∀ a, (m.visibleFrom host.types v).invoke host (some v) vs t = .ok a t →
      (m.visibleFrom host.types v).isSupported = true ∧ vs.length = m.arity ∧
        ((m.visibleFrom host.types v).returns = none → a = .null)) :
    Agree t t (do let d ← ofExcept (d.delegate host (v :: vs)); d.result host (v :: vs))
      ((m.visibleFrom host.types v).invoke host (some v) vs) := by
  have hvis : m.visibleFrom host.types v = host.types.override u m := Method.visibleFrom_of_type? hu
  have hfound : (host.types.override u m).isStatic = false := TypeTable.override_isStatic host.types u m hi
  rw [hvis] at hq h ⊢
  rw [dispatch_on hi hd hu, on_instance hi]
  by_cases hsup : (host.types.override u m).isSupported = true
  · have hresult := Delegate.result_agree (fun _ => ⟨v, rfl, Value.isNull_of_type? hu⟩) hq fun a ha =>
      (TypeTable.override_arity host.types u m).symm ▸ (h a ha).2
    rw [Method.arguments_instance hfound] at hresult
    rwa [if_pos hsup]
  · rw [if_neg hsup]
    rcases hq.ok_or_fails with ⟨a, ha⟩ | hf
    · exact absurd (h a ha).1 hsup
    · exact agree_of_fails ⟨_, rfl⟩ hf

theorem call_agree {target : Expr} {m : Method} {args : List Expr} {d : Dispatch} {r : Getter} {gs : List Getter}
    (hq : (Expr.call target m args).QuietNode host t) (hs : (Expr.call target m args).SameNode host t s)
    (hm : m.isSupported = true) (hi : m.isStatic = false) (hd : Expr.dispatchOf host m = .ok d)
    (hr : Agree t t (r.run host) (target.eval host))
    (ha : Agree t t (Getter.runAll host gs) (Expr.evalAll host args)) :
    Agree t t ((Getter.call d (r :: gs)).run host) ((Expr.call target m args).eval host) := by
  obtain ⟨-, hlen, hs⟩ := hs
  unfold Getter.run Getter.runAll Expr.eval
  simp only [bind_assoc, pure_bind]
  refine hr.bind fun v _ hv => ?_
  cases hu : v.type? with
  | none =>
    cases (Value.type?_eq_none_iff v).mp hu
    -- The evaluator fails at once, the compiled call after its arguments, which are quiet.
    exact ha.quiet_left.agree_fail _ fun vs _ => dispatch_null hi hd vs _
  | some u =>
    rw [if_neg (by simp [Value.isNull_of_type? hu])]
    refine ha.bind fun vs _ hvs => ?_
    refine received_agree hi hd hu (hq v vs hv) fun a hcall => ?_
    obtain ⟨hsup, hvoid⟩ := hs v u hv hu
    rw [Method.visibleFrom_of_type? hu] at hcall ⊢
    refine ⟨hsup hm, (evalAll_length args hvs).trans hlen, fun hn => ?_⟩
    rw [Method.invoke_instance (TypeTable.override_isStatic host.types u m hi)] at hcall
    obtain ⟨out, w, hrun, hpure⟩ := bind_eq_ok.mp hcall
    obtain ⟨rfl, rfl⟩ := pure_eq_ok.mp hpure
    exact hvoid hn vs out hrun

mutual
/-- The compiled form and the evaluator agree wherever host code is quiet and both reach the same declarations. -/
theorem Compiled.agree (e : Expr) {g : Getter} (h : Compiled host s e g)
    (hq : ∀ x ∈ e.parts, x.QuietNode host t) (hs : ∀ x ∈ e.parts, x.SameNode host t s) :
    Agree t t (g.run host) (e.eval host) := by
  cases h with
  | constant v u n => exact agree_pure v
  | member hr hu => exact read_agree (hq _ (Expr.mem_parts_self _)) (hs _ (Expr.mem_parts_self _)) hr hu
  | typeMember hr hu => exact typeRead_agree (hq _ (Expr.mem_parts_self _)) (hs _ (Expr.mem_parts_self _)) hr hu
  | @binary op u combine left right l r hc hl hr =>
    have hl := hl.agree left (fun x hx => hq x (by simp [Expr.parts, hx])) fun x hx => hs x (by simp [Expr.parts, hx])
    have hr := hr.agree right (fun x hx => hq x (by simp [Expr.parts, hx])) fun x hx => hs x (by simp [Expr.parts, hx])
    exact binary_agree hc hl hr
  | @not operand u c g hg =>
    have hg := hg.agree operand (fun x hx => hq x (by simp [Expr.parts, hx]))
      fun x hx => hs x (by simp [Expr.parts, hx])
    exact hg.bind fun v _ _ => (agree_ofExcept _).bind fun b _ _ => agree_pure _
  | @convert operand u c g g' hg hc =>
    have hg := hg.agree operand (fun x hx => hq x (by simp [Expr.parts, hx]))
      fun x hx => hs x (by simp [Expr.parts, hx])
    exact convert_agree (hq _ (Expr.mem_parts_self _)) (hs _ (Expr.mem_parts_self _)) hg hc
  | @call target m args d r gs hm hi hr ha hd =>
    have hr := hr.agree target (fun x hx => hq x (by simp [Expr.parts, hx]))
      fun x hx => hs x (by simp [Expr.parts, hx])
    have ha := ha.agree args (fun x hx => hq x (by simp [Expr.parts, hx]))
      fun x hx => hs x (by simp [Expr.parts, hx])
    exact call_agree (hq _ (Expr.mem_parts_self _)) (hs _ (Expr.mem_parts_self _)) hm hi hd hr ha
  | @staticCall target m args d gs hm hi ha hd =>
    have hn := (hs _ (Expr.mem_parts_self _)).1
    rw [hi] at hn
    cases hn
  | @typeCall m args d gs hm hi ha hd =>
    have ha := ha.agree args (fun x hx => hq x (by simp [Expr.parts, hx]))
      fun x hx => hs x (by simp [Expr.parts, hx])
    exact typeCall_agree (hq _ (Expr.mem_parts_self _)) (hs _ (Expr.mem_parts_self _)) hi hd ha
termination_by structural e
theorem CompiledAll.agree (es : List Expr) {gs : List Getter} (h : CompiledAll host s es gs)
    (hq : ∀ x ∈ Expr.partsAll es, x.QuietNode host t) (hs : ∀ x ∈ Expr.partsAll es, x.SameNode host t s) :
    Agree t t (Getter.runAll host gs) (Expr.evalAll host es) := by
  cases h with
  | nil => exact agree_pure []
  | @cons e es g gs hg ha =>
    have hg := hg.agree e (fun x hx => hq x (by simp [Expr.partsAll, hx]))
      fun x hx => hs x (by simp [Expr.partsAll, hx])
    have ha := ha.agree es (fun x hx => hq x (by simp [Expr.partsAll, hx]))
      fun x hx => hs x (by simp [Expr.partsAll, hx])
    exact hg.bind fun v _ _ => ha.bind fun vs _ _ => agree_pure _
termination_by structural es
end

end

end DataBinding
