import DataBinding.Proofs.Compiled.Agree
import DataBinding.Proofs.Host.Quiet

/-!
# Calls on constants

The compiled form of a call and the evaluator look a method up at different times and check different things before
they run it. On a constant target and constant arguments they agree (`compiled_call_agrees`), as long as what the
evaluator calls takes the arguments that there are, by value, and keeps to its declaration.
-/

namespace DataBinding

open Effect

namespace Expr

def constantValue : Expr → Value
  | constant v _ _ => v
  | _ => .null

/-- The method that the evaluator runs for a call on a constant, or on the type of the method. -/
def callee (types : TypeTable) (target : Option Expr) (m : Method) : Method :=
  match target with
  | some e => m.visibleFrom types e.constantValue
  | none => m

variable {host : Host} {e : Expr} {es : List Expr}

theorem eval_constant (h : e.isConstant = true) : e.eval host = pure e.constantValue := by
  cases e with
  | constant v u n => rfl
  | _ => cases h

theorem getter?_constant (h : e.isConstant = true) : e.getter? host = pure (some (.constant e.constantValue)) := by
  cases e with
  | constant v u n => rfl
  | _ => cases h

theorem evalAll_constants (h : ∀ e ∈ es, e.isConstant = true) :
    evalAll host es = pure (es.map constantValue) := by
  induction es with
  | nil => rfl
  | cons e es ih =>
    obtain ⟨he, hes⟩ := List.forall_mem_cons.mp h
    unfold evalAll
    rw [eval_constant he, ih hes]
    rfl

theorem getters?_constants (h : ∀ e ∈ es, e.isConstant = true) :
    getters? host es = pure (some (es.map fun e => .constant e.constantValue)) := by
  induction es with
  | nil => rfl
  | cons e es ih =>
    obtain ⟨he, hes⟩ := List.forall_mem_cons.mp h
    unfold getters?
    rw [getter?_constant he, ih hes]
    rfl

theorem runAll_constants (es : List Expr) :
    Getter.runAll host (es.map fun e => .constant e.constantValue) = pure (es.map constantValue) := by
  induction es with
  | nil => rfl
  | cons e es ih =>
    rw [List.map_cons, Getter.runAll, ih]
    rfl

theorem eval_call_constants (he : e.isConstant = true) (h : ∀ e ∈ es, e.isConstant = true) (m : Method) :
    (call e m es).eval host =
      if e.constantValue.isNull then fail (nullTarget host.types e (call e m es))
      else (m.visibleFrom host.types e.constantValue).invoke host (some e.constantValue) (es.map constantValue) := by
  unfold eval
  rw [eval_constant he, evalAll_constants h]
  simp only [pure_bind]
  split <;> rfl

theorem eval_typeCall_constants (h : ∀ e ∈ es, e.isConstant = true) (m : Method) :
    (typeCall m es).eval host = m.invoke host none (es.map constantValue) := by
  unfold eval
  rw [evalAll_constants h, pure_bind]

end Expr

theorem Method.visibleFrom_of_isStatic {types : TypeTable} {m : Method} {v : Value}
    (h : (m.visibleFrom types v).isStatic = true) : m.visibleFrom types v = m := by
  cases hu : v.type? with
  | none =>
    unfold visibleFrom
    rw [hu]
  | some u =>
    rw [visibleFrom_of_type? hu] at h ⊢
    rcases TypeTable.override_eq types u m with he | ⟨-, -, hi⟩
    · exact he
    · rw [hi] at h
      cases h

section
variable {host : Host} {w : World} {s s' : Workbench} {m : Method} {args : List Expr} {g : Getter}

theorem static_agree {d : Dispatch} (hi : m.isStatic = true) (hd : Expr.dispatchOf host m = .ok d) {r : Option Value}
    {vs : List Value} (hq : ∀ v vs, (m.run host v vs).Quiet)
    (h : ∀ v, m.invoke host r vs w = .ok v w → vs.length = m.arity) :
    Agree w w (do let d ← ofExcept (d.delegate host vs); d.result host vs) (m.invoke host r vs) := by
  rw [dispatch_static hi hd]
  have hresult := Delegate.result_agree (fun hf => absurd (hi.symm.trans hf) nofun) (Method.invoke_quiet hq r vs w)
    fun v hv => ⟨h v hv, fun hn => Method.invoke_static_void hi hn hv⟩
  rwa [Method.arguments_static hi] at hresult

variable (ha : ∀ e ∈ args, e.isConstant = true)
include ha

theorem compiled_typeCall_agrees (hg : (Expr.typeCall m args).getter? host s = .ok (some g) s')
    (hq : ∀ v vs, (m.run host v vs).Quiet)
    (h : ∀ v, (Expr.typeCall m args).eval host w = .ok v w → args.length = m.arity) :
    Agree w w (g.run host) ((Expr.typeCall m args).eval host) := by
  obtain ⟨gs, d, hgs, -, hi, hd, rfl⟩ := Expr.getter?_typeCall_eq_some hg
  rw [Expr.getters?_constants ha] at hgs
  cases hgs
  rw [Expr.eval_typeCall_constants ha] at h ⊢
  unfold Getter.run
  rw [Expr.runAll_constants]
  exact static_agree hi hd hq fun v hv => (List.length_map _).trans (h v hv)

/-- A static method is run as it is if it is not taken for an instance method of its target. -/
theorem compiled_staticCall_agrees {e : Expr} (he : e.isConstant = true) (hi : m.isStatic = true)
    (hg : (Expr.call e m args).getter? host s = .ok (some g) s') (hq : ∀ v vs, (m.run host v vs).Quiet)
    (hv : e.constantValue.isNull = false) (hm : m.visibleFrom host.types e.constantValue = m)
    (h : ∀ v, (Expr.call e m args).eval host w = .ok v w → args.length = m.arity) :
    Agree w w (g.run host) ((Expr.call e m args).eval host) := by
  obtain ⟨gs, d, hgs, -, hd, rfl⟩ := Expr.getter?_staticCall_eq_some hi hg
  rw [Expr.getters?_constants ha] at hgs
  cases hgs
  rw [Expr.eval_call_constants he ha, if_neg (by simp [hv]), hm] at h ⊢
  unfold Getter.run
  rw [Expr.runAll_constants]
  exact static_agree hi hd hq fun v hv => (List.length_map _).trans (h v hv)

theorem compiled_instanceCall_agrees {e : Expr} (he : e.isConstant = true) (hi : m.isStatic = false)
    (hg : (Expr.call e m args).getter? host s = .ok (some g) s')
    (hq : ∀ v vs, ((m.visibleFrom host.types e.constantValue).run host v vs).Quiet)
    (h : ∀ v, (Expr.call e m args).eval host w = .ok v w → args.length = m.arity ∧
      (m.visibleFrom host.types e.constantValue).hasByRefParams = false ∧
      ((m.visibleFrom host.types e.constantValue).returns = none → v = .null)) :
    Agree w w (g.run host) ((Expr.call e m args).eval host) := by
  obtain ⟨r, gs, d, s₁, hr, hgs, hm, hd, rfl⟩ := Expr.getter?_call_eq_some hi hg
  rw [Expr.getter?_constant he] at hr
  cases hr
  rw [Expr.getters?_constants ha] at hgs
  cases hgs
  rw [Expr.eval_call_constants he ha] at h ⊢
  unfold Getter.run Getter.runAll
  rw [Expr.runAll_constants]
  cases hu : e.constantValue.type? with
  | none =>
    -- On null the evaluator fails at once, and the compiled call when it looks for its delegate.
    have hnull := (Value.type?_eq_none_iff _).mp hu
    rw [if_pos (by simp [hnull, Value.isNull])]
    show Agree w w (do let d ← ofExcept (d.delegate host (e.constantValue :: _)); d.result host (e.constantValue :: _)) _
    rw [hnull]
    exact dispatch_null hi hd _ _
  | some u =>
    rw [if_neg (by simp [Value.isNull_of_type? hu])] at h ⊢
    refine received_agree hi hd hu (Method.invoke_quiet hq _ _ w) fun v hv => ?_
    obtain ⟨hl, hr, hn⟩ := h v hv
    refine ⟨?_, (List.length_map _).trans hl, hn⟩
    rw [Method.visibleFrom_of_type? hu] at hr ⊢
    exact (Method.override_isSupported_iff hi hm).mpr hr

/-- A compiled call on constants agrees with the evaluator in every world, if a static method is not called on null and is
not taken for an instance method of its target, and if the evaluator gives a value only where it passes as many
arguments as are declared, none of them by reference, and gives null where no result is declared. -/
theorem compiled_call_agrees {target : Option Expr} (ht : ∀ e ∈ target, e.isConstant = true)
    (hg : (Expr.invoke target m args).getter? host s = .ok (some g) s')
    (hq : ∀ v vs, ((Expr.callee host.types target m).run host v vs).Quiet)
    (hs : m.isStatic = true → (Expr.callee host.types target m).isStatic = true ∧
      ∀ e ∈ target, e.constantValue.isNull = false)
    (h : ∀ v, (Expr.invoke target m args).eval host w = .ok v w → args.length = m.arity ∧
      (Expr.callee host.types target m).hasByRefParams = false ∧
      ((Expr.callee host.types target m).returns = none → v = .null)) :
    Agree w w (g.run host) ((Expr.invoke target m args).eval host) := by
  cases target with
  | none => exact compiled_typeCall_agrees ha hg hq fun v hv => (h v hv).1
  | some e =>
    have he := ht e rfl
    cases hi : m.isStatic with
    | false => exact compiled_instanceCall_agrees ha he hi hg hq h
    | true =>
      obtain ⟨hstatic, hnull⟩ := hs hi
      -- Nothing static overrides a method, so the evaluator runs the one that was called.
      have hm : m.visibleFrom host.types e.constantValue = m := Method.visibleFrom_of_isStatic hstatic
      simp only [Expr.callee, hm] at hq h
      exact compiled_staticCall_agrees ha he hi hg hq (hnull e rfl) hm fun v hv => (h v hv).1

end

/-! ## Printers -/

namespace Printers

def printer : TypeInfo :=
  { name := "Printer"
    methods := [
      ⟨"Print", [⟨"copies", .int, false⟩], some .int, true, .object, { result := .constant (.integer 1) }⟩,
      ⟨"Reset", [], none, false, .object, { result := .constant (.integer 0) }⟩,
      ⟨"Dots", [⟨"inches", .int, false⟩], some .int, true, .static, { result := .constant (.integer 300) }⟩] }

def laser : TypeInfo :=
  { name := "Laser", base := some ⟨5⟩
    methods := [
      ⟨"Print", [⟨"copies", .int, false⟩], some .int, true, .object, { result := .argument 0 }⟩,
      ⟨"Dots", [⟨"inches", .int, false⟩], some .int, false, .object, { result := .constant (.integer 600) }⟩] }

def copier : TypeInfo :=
  { name := "Copier", base := some ⟨5⟩
    methods := [⟨"Print", [⟨"copies", .int, true⟩], some .int, false, .object, { result := .argument 0 }⟩] }

def host : Host := ⟨⟨⟨[copier, laser, printer]⟩, fun _ => "Model", none⟩, fun _ => pure ()⟩

def print : Method := { printer.methods[0] with id := ⟨⟨5⟩, 0⟩ }

def reset : Method := { printer.methods[1] with id := ⟨⟨5⟩, 1⟩ }

def dots : Method := { printer.methods[2] with id := ⟨⟨5⟩, 2⟩ }

def device (i : Nat) : Expr := .constant (.object ⟨"device", ⟨i⟩, .model⟩) ⟨i⟩ none

def number (n : Int64) : Expr := .constant (.integer n) .int none

def printGetter : Getter :=
  .call (.byReceiver print) [.constant (.object ⟨"device", ⟨6⟩, .model⟩), .constant (.integer 4)]

theorem laser_prints :
    (Expr.invoke (some (device 6)) print [number 4]).getter? host ⟨{}, .empty⟩ = .ok (some printGetter) ⟨{}, .empty⟩ ∧
      Agree {} {} (printGetter.run host) ((Expr.invoke (some (device 6)) print [number 4]).eval host) ∧
      (Expr.invoke (some (device 6)) print [number 4]).eval host {} = .ok (.integer 4) {} := by
  have hg : (Expr.invoke (some (device 6)) print [number 4]).getter? host ⟨{}, .empty⟩ =
      .ok (some printGetter) ⟨{}, .empty⟩ := rfl
  refine ⟨hg, compiled_call_agrees ?_ ?_ hg ?_ nofun fun v hv => ⟨rfl, rfl, nofun⟩, rfl⟩
  · simp only [List.mem_singleton, forall_eq]
    rfl
  · rintro e ⟨⟩
    rfl
  · exact Method.run_quiet rfl

/-- A compiled call that does not agree with the evaluator, though no body has side effects. -/
def Differs (target : Option Expr) (m : Method) (args : List Expr) : Prop :=
  m.body.isPlain = true ∧ (Expr.callee host.types target m).body.isPlain = true ∧
    ∃ g s, (Expr.invoke target m args).getter? host ⟨{}, .empty⟩ = .ok (some g) s ∧
      ¬ Agree {} {} (g.run host) ((Expr.invoke target m args).eval host)

/-- A static method has a target that is null, or that has an instance method of this name; there are more arguments than
parameters; what should give nothing gives a number; what overrides a method takes its argument by reference. -/
theorem printers_differ :
    Differs (some (Expr.nullOf ⟨5⟩)) dots [number 2] ∧ Differs (some (device 6)) dots [number 2] ∧
      Differs (some (device 5)) print [number 4, number 2] ∧ Differs (some (device 5)) reset [] ∧
      Differs (some (device 7)) print [number 4] := by
  refine ⟨⟨rfl, rfl, _, _, rfl, ?_⟩, ⟨rfl, rfl, _, _, rfl, ?_⟩, ⟨rfl, rfl, _, _, rfl, ?_⟩, ⟨rfl, rfl, _, _, rfl, ?_⟩,
    ⟨rfl, rfl, _, _, rfl, ?_⟩⟩ <;>
    · rintro (⟨a, hg, he⟩ | ⟨e, e', hg, he⟩)
      · cases hg <;> cases he
      · cases hg <;> cases he

end Printers

end DataBinding
