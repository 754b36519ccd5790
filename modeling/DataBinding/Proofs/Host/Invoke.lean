import DataBinding.Expr.Eval
import DataBinding.Proofs.Effect

/-!
# Calling methods

A delegate that is given as many arguments as its method takes gives what the method itself gives.
-/

namespace DataBinding

open Effect

namespace DelegateKind

theorem of_arity (m : Method) : (of m).arity = m.totalArity := by
  unfold of
  split <;> rfl

theorem of_returnsValue (m : Method) : (of m).returnsValue = m.returns.isSome := by
  unfold of
  split <;> simp_all [returnsValue]

end DelegateKind

namespace Method

theorem totalArity_static {m : Method} (h : m.isStatic = true) : m.totalArity = m.arity := by
  simp [totalArity, h]

theorem totalArity_instance {m : Method} (h : m.isStatic = false) : m.totalArity = m.arity + 1 := by
  simp [totalArity, h]

theorem convention_static {m : Method} (h : m.isStatic = true) : m.convention = .static := by
  simpa [isStatic] using h

/-- What a delegate is called with: the receiver, unless the method is static, and the arguments. -/
def arguments (m : Method) (r : Option Value) (args : List Value) : List Value :=
  if m.isStatic then args else r.toList ++ args

theorem arguments_static {m : Method} (h : m.isStatic = true) (r : Option Value) (args : List Value) :
    m.arguments r args = args := by
  rw [arguments, if_pos h]

theorem arguments_instance {m : Method} (h : m.isStatic = false) (v : Value) (args : List Value) :
    m.arguments (some v) args = v :: args := by
  rw [arguments, if_neg (by simp [h]), Option.toList_some, List.singleton_append]

theorem convention_ne_static {m : Method} (h : m.isStatic = false) : m.convention ≠ .static := by
  simpa [isStatic] using h

section
variable {host : Host} {m : Method}

theorem invoke_static (h : m.isStatic = true) (r : Option Value) (args : List Value) :
    m.invoke host r args = m.run host .null args >>= fun out => pure out.1 := by
  unfold invoke
  rw [convention_static h]

theorem invoke_instance (h : m.isStatic = false) (v : Value) (args : List Value) :
    m.invoke host (some v) args = m.run host v args >>= fun out => pure out.1 := by
  have hc := convention_ne_static h
  unfold invoke
  split
  · contradiction
  · rename_i hv _
    cases hv
    rfl
  · contradiction

theorem invoke_quiet (h : ∀ v args, (m.run host v args).Quiet) (r : Option Value) (args : List Value) :
    (m.invoke host r args).Quiet := by
  intro w
  cases hs : m.isStatic with
  | true =>
    rw [invoke_static hs]
    exact QuietAt.bind (h .null args w) fun _ _ => agree_pure _
  | false =>
    cases r with
    | some v =>
      rw [invoke_instance hs]
      exact QuietAt.bind (h v args w) fun _ _ => agree_pure _
    | none =>
      have hc := convention_ne_static hs
      unfold invoke
      split
      · contradiction
      · rename_i hv _
        cases hv
      · exact agree_fail _ _

theorem run_static_void (h : m.isStatic = true) (hr : m.returns = none) {v : Value} {args : List Value}
    {w w' : World} {out : Value × Value} (ho : m.run host v args w = .ok out w') : out.1 = .null := by
  unfold run at ho
  rw [convention_static h] at ho
  obtain ⟨r, w₁, -, ho⟩ := bind_eq_ok.mp ho
  obtain ⟨he, -⟩ := pure_eq_ok.mp ho
  rw [← he, hr]
  rfl

theorem invoke_static_void (h : m.isStatic = true) (hr : m.returns = none) {r : Option Value} {args : List Value}
    {w w' : World} {v : Value} (ho : m.invoke host r args w = .ok v w') : v = .null := by
  rw [invoke_static h] at ho
  obtain ⟨out, w₁, hrun, ho⟩ := bind_eq_ok.mp ho
  rw [← (pure_eq_ok.mp ho).1]
  exact run_static_void h hr hrun

end

end Method

namespace Delegate

variable {host : Host} {t : World} {m : Method}

/-- What a compiled call makes of the result of a delegate. -/
def result (host : Host) (d : Delegate) (args : List Value) : Effect Value := do
  return (← d.invoke host args).1.getD .null

theorem getD_result (m : Method) (v : Value) :
    (if (DelegateKind.of m).returnsValue then some v else none).getD Value.null =
      if m.returns.isNone then .null else v := by
  rw [DelegateKind.of_returnsValue]
  cases m.returns <;> rfl

theorem invoke_static {d : Delegate} (hs : d.method.isStatic = true) {args : List Value}
    (hl : args.length = d.kind.arity) :
    d.invoke host args =
      d.method.run host .null args >>= fun out => pure (if d.kind.returnsValue then some out.1 else none, args) := by
  unfold invoke
  simp only [hl, hs, ne_eq, not_true_eq_false, if_false, if_true]

theorem invoke_instance {d : Delegate} (hs : d.method.isStatic = false) {v : Value} (hv : v.isNull = false)
    {args : List Value} (hl : args.length + 1 = d.kind.arity) :
    d.invoke host (v :: args) =
      d.method.run host v args >>= fun out =>
        pure (if d.kind.returnsValue then some out.1 else none, out.2 :: args) := by
  unfold invoke
  simp only [List.length_cons, hl, hs, hv, ne_eq, not_true_eq_false, if_false, Bool.false_eq_true]

theorem result_fails_of_length {d : Delegate} {args : List Value} (h : args.length ≠ d.kind.arity) :
    FailsAt t (d.result host args) := by
  unfold result invoke
  rw [if_pos h]
  exact ⟨_, rfl⟩

section
variable {r : Option Value} (hr : m.isStatic = false → ∃ v, r = some v ∧ v.isNull = false) {args : List Value}
include hr

theorem length_arguments : (m.arguments r args).length = (DelegateKind.of m).arity ↔ args.length = m.arity := by
  rw [DelegateKind.of_arity]
  cases hs : m.isStatic with
  | true => rw [Method.arguments_static hs, Method.totalArity_static hs]
  | false =>
    obtain ⟨v, rfl, -⟩ := hr hs
    rw [Method.arguments_instance hs, Method.totalArity_instance hs, List.length_cons]
    omega

/-- With as many arguments as the method takes, a delegate gives what the method gives, or null if the method is
declared without a result. -/
theorem result_eq (hl : args.length = m.arity) :
    result host ⟨m, .of m⟩ (m.arguments r args) =
      m.invoke host r args >>= fun v => pure (if m.returns.isNone then .null else v) := by
  have hlen := (length_arguments hr).mpr hl
  unfold result
  cases hs : m.isStatic with
  | true =>
    rw [Method.arguments_static hs] at hlen ⊢
    rw [invoke_static hs hlen, Method.invoke_static hs, bind_assoc, bind_assoc]
    simp only [pure_bind, getD_result]
  | false =>
    obtain ⟨v, rfl, hv⟩ := hr hs
    rw [Method.arguments_instance hs] at hlen ⊢
    rw [invoke_instance hs hv hlen, Method.invoke_instance hs, bind_assoc, bind_assoc]
    simp only [pure_bind, getD_result]

/-- A delegate gives what its method gives, unless that gives a value to a wrong number of arguments or one that its
declaration does not promise. -/
theorem result_agree (hq : QuietAt t (m.invoke host r args))
    (h : ∀ v, m.invoke host r args t = .ok v t → args.length = m.arity ∧ (m.returns = none → v = .null)) :
    Agree t t (result host ⟨m, .of m⟩ (m.arguments r args)) (m.invoke host r args) := by
  rcases hq.ok_or_fails with ⟨v, hv⟩ | hf
  · obtain ⟨hl, hn⟩ := h v hv
    refine .inl ⟨v, ?_, hv⟩
    rw [result_eq hr hl, bind_of_ok hv]
    cases hret : m.returns with
    | none =>
      rw [hn hret]
      rfl
    | some u => rfl
  · by_cases hl : args.length = m.arity
    · rw [result_eq hr hl]
      exact agree_of_fails hf.bind hf
    · exact agree_of_fails (result_fails_of_length fun hd => hl ((length_arguments hr).mp hd)) hf

end

theorem result_static (hs : m.isStatic = true) {args : List Value} (hl : args.length = m.arity)
    (r : Option Value) (hq : QuietAt t (m.invoke host r args)) :
    Agree t t (result host ⟨m, .of m⟩ args) (m.invoke host r args) := by
  have h := result_agree (fun hi => absurd hs (by simp [hi])) hq fun v hv =>
    ⟨hl, fun hn => Method.invoke_static_void hs hn hv⟩
  rwa [Method.arguments_static hs] at h

end Delegate

end DataBinding
