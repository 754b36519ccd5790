import DataBinding.Expr.Build
import DataBinding.Proofs.Expr.Quiet

/-!
# Integer arithmetic

A tree of integer constants has its exact value over the integers if nothing in it divides by zero and every
intermediate result fits into 64 bits (`Expr.Exact`). Evaluation gives that value and fails where there is none
(`integers_exact`). Two things are apart: a remainder whose quotient does not fit is refused although it is zero, and
the least integer is its own negation.
-/

namespace DataBinding

open Decimal Effect

def least : Int := -0x8000000000000000

namespace BinaryOp

/-- The mathematical result of an operator on integers, with division and remainder toward zero. -/
inductive Gives : BinaryOp → Int → Int → Int → Prop
  | sum (x y : Int) : Gives .add x y (x + y)
  | difference (x y : Int) : Gives .subtract x y (x - y)
  | product (x y : Int) : Gives .multiply x y (x * y)
  | quotient (x : Int) {y : Int} : y ≠ 0 → Gives .divide x y (x.tdiv y)
  | remainder (x : Int) {y : Int} : y ≠ 0 → Gives .modulo x y (x.tmod y)

def isArithmetic : BinaryOp → Bool
  | add | subtract | multiply | divide | modulo => true
  | _ => false

end BinaryOp

namespace Value

theorem exactResult?_eq_some {op : BinaryOp} {x y n : Int} : exactResult? op x y = some n ↔ op.Gives x y n := by
  constructor
  · intro h
    cases op with
    | add =>
      cases h
      exact .sum x y
    | subtract =>
      cases h
      exact .difference x y
    | multiply =>
      cases h
      exact .product x y
    | divide =>
      obtain ⟨hy, rfl⟩ := by simpa [exactResult?] using h
      exact .quotient x hy
    | modulo =>
      obtain ⟨hy, rfl⟩ := by simpa [exactResult?] using h
      exact .remainder x hy
    | _ => cases h
  · intro h
    cases h with
    | sum => rfl
    | difference => rfl
    | product => rfl
    | quotient _ hy => exact if_neg hy
    | remainder _ hy => exact if_neg hy

theorem inInt64_tdiv {x y : Int} (hx : inInt64 x = true) : inInt64 (x.tdiv y) = true ↔ ¬ (x = least ∧ y = -1) := by
  rw [inInt64_iff] at *
  constructor
  · rintro ⟨-, hlt⟩ ⟨rfl, rfl⟩
    rw [Int.tdiv_neg, Int.tdiv_one] at hlt
    simp only [least] at hlt
    omega
  · intro h
    simp only [least] at h
    by_cases hy : y.natAbs = 1
    · obtain rfl | rfl : y = 1 ∨ y = -1 := by omega
      · rwa [Int.tdiv_one]
      · rw [Int.tdiv_neg, Int.tdiv_one]
        omega
    · -- a divisor that is not of size one at least halves the dividend, or is zero
      have hsize := Int.natAbs_tdiv x y
      have hhalf : x.natAbs / y.natAbs ≤ x.natAbs / 2 := by
        rcases Nat.eq_zero_or_pos y.natAbs with h0 | hpos
        · simp [h0]
        · exact Nat.div_le_div_left (by omega) (by decide)
      change _ = x.natAbs / y.natAbs at hsize
      omega

theorem refusesRemainder_eq_true {op : BinaryOp} {x y : Int} (hx : inInt64 x = true) (hy : op = .modulo → y ≠ 0) :
    refusesRemainder op x y = true ↔ op = .modulo ∧ x = least ∧ y = -1 := by
  have hfits := inInt64_tdiv (y := y) hx
  simp only [refusesRemainder, Bool.and_eq_true, beq_iff_eq, Bool.not_eq_true', Bool.and_eq_false_iff]
  grind

/-- Integer arithmetic within 64 bits gives the mathematical result, but no remainder of the least integer by minus
one. -/
theorem arithmetic?_eq_some {op : BinaryOp} {i j z : Int64} :
    arithmetic? op i j = some z ↔
      op.Gives i.toInt j.toInt z.toInt ∧ ¬ (op = .modulo ∧ i.toInt = least ∧ j.toInt = -1) := by
  unfold arithmetic?
  cases hexact : exactResult? op i.toInt j.toInt with
  | none =>
    have hnone : ¬ op.Gives i.toInt j.toInt z.toInt := by
      rw [← exactResult?_eq_some, hexact]
      exact nofun
    simp [hnone]
  | some n =>
    have hdivisor : op = .modulo → j.toInt ≠ 0 := by
      rintro rfl
      cases exactResult?_eq_some.mp hexact
      assumption
    have hn : op.Gives i.toInt j.toInt z.toInt ↔ n = z.toInt := by
      rw [← exactResult?_eq_some, hexact, Option.some_inj]
    rw [hn, ← refusesRemainder_eq_true (inInt64_toInt i) hdivisor]
    by_cases hfits : inInt64 n = true
    · have hz : n = z.toInt ↔ Int64.ofInt n = z := by rw [← Int64.toInt_inj, toInt_ofInt hfits]
      rw [hz]
      cases refusesRemainder op i.toInt j.toInt <;> simp [hfits]
    · have hne : n ≠ z.toInt := by
        rintro rfl
        exact hfits (inInt64_toInt z)
      simp [hfits, hne]

theorem inInt64_neg_iff {i : Int64} : inInt64 (-i.toInt) = true ↔ i.toInt ≠ least := by
  have hi := inInt64_iff.mp (inInt64_toInt i)
  simp only [inInt64_iff, least]
  omega

theorem toInt_neg {i : Int64} (h : i.toInt ≠ least) : (-i).toInt = -i.toInt := by
  rw [← toInt_ofInt (inInt64_neg_iff.mpr h), Int64.ofInt_neg, Int64.ofInt_toInt]

end Value

namespace Expr

/-- Integer constants under operators of arithmetic and negations. -/
inductive Integral : Expr → Prop
  | constant (i : Int64) (name : Option String) : Integral (constant (.integer i) .int name)
  | arithmetic {op : BinaryOp} {l r : Expr} :
      op.isArithmetic = true → Integral l → Integral r → Integral (arithmetic op l r)
  | opposite {e : Expr} : Integral e → Integral e.opposite

inductive Exact : Expr → Int → Prop
  | constant (i : Int64) (t : TypeId) (name : Option String) : Exact (constant (.integer i) t name) i.toInt
  | binary {op : BinaryOp} {l r : Expr} {x y n : Int} (t : TypeId) :
      Exact l x → Exact r y → op.Gives x y n → inInt64 n = true → Exact (binary op l r t) n
  | negate {e : Expr} {x : Int} (t : TypeId) (c : Option Method) :
      Exact e x → inInt64 (-x) = true → Exact (unary .negate e t c) (-x)

/-- Evaluation comes to a negation of the least integer. What stands behind an operand that fails is not evaluated. -/
inductive NegatesLeast (host : Host) (w : World) : Expr → Prop
  | here {e : Expr} (t : TypeId) (c : Option Method) :
      e.eval host w = .ok (.integer Int64.minValue) w → NegatesLeast host w (unary .negate e t c)
  | inside {e : Expr} (t : TypeId) (c : Option Method) :
      NegatesLeast host w e → NegatesLeast host w (unary .negate e t c)
  | left {l : Expr} (op : BinaryOp) (r : Expr) (t : TypeId) :
      NegatesLeast host w l → NegatesLeast host w (binary op l r t)
  | right {l r : Expr} {v : Value} (op : BinaryOp) (t : TypeId) :
      l.eval host w = .ok v w → NegatesLeast host w r → NegatesLeast host w (binary op l r t)

/-- Somewhere inside, the least integer is divided by minus one for the remainder. -/
def ReducesLeast (e : Expr) : Prop := ∃ l r t, binary .modulo l r t ∈ e.parts ∧ l.Exact least ∧ r.Exact (-1)

theorem arithmetic_eq {op : BinaryOp} {l r : Expr} (hop : op.isArithmetic = true) (hl : l.type? = some .int)
    (hr : r.type? = some .int) : arithmetic op l r = binary op l r .int := by
  have hcomparison : op.isComparison = false := by
    cases op <;> first | rfl | cases hop
  simp [arithmetic, arithmeticType, hcomparison, hl, hr, TypeId.int, TypeId.string, TypeId.float]

theorem opposite_eq {e : Expr} (he : e.type? = some .int) : e.opposite = unary .negate e .int none := by
  rw [opposite, he, Option.getD_some]

theorem Integral.type?_eq {e : Expr} (h : e.Integral) : e.type? = some .int := by
  induction h with
  | constant => rfl
  | arithmetic hop _ _ hl hr =>
    rw [arithmetic_eq hop hl hr]
    rfl
  | opposite _ h =>
    rw [opposite_eq h]
    rfl

section

variable {host : Host} {w : World} {op : BinaryOp} {l r e : Expr} {t : TypeId} {c : Option Method} {i j : Int64}

theorem Exact.unique {n n' : Int} (h : e.Exact n) (h' : e.Exact n') : n = n' := by
  induction h generalizing n' with
  | constant =>
    cases h'
    rfl
  | binary t _ _ hgives _ hl hr =>
    cases h' with
    | binary _ hx hy hgives' _ =>
      rw [← hl hx, ← hr hy, ← Value.exactResult?_eq_some] at hgives'
      rw [← Value.exactResult?_eq_some, hgives', Option.some_inj] at hgives
      exact hgives.symm
  | negate t c _ _ h =>
    cases h' with
    | negate _ _ hx _ => rw [h hx]

theorem reducesLeast_binary :
    (binary op l r t).ReducesLeast ↔
      (op = .modulo ∧ l.Exact least ∧ r.Exact (-1)) ∨ l.ReducesLeast ∨ r.ReducesLeast := by
  simp only [ReducesLeast, parts, List.mem_cons, List.mem_append, binary.injEq, or_and_right, exists_or]
  constructor
  · rintro (⟨_, _, _, ⟨hop, rfl, rfl, rfl⟩, hl, hr⟩ | h)
    · exact .inl ⟨hop.symm, hl, hr⟩
    · exact .inr h
  · rintro (⟨hop, hl, hr⟩ | h)
    · exact .inl ⟨l, r, t, ⟨hop.symm, rfl, rfl, rfl⟩, hl, hr⟩
    · exact .inr h

theorem reducesLeast_negate : (unary .negate e t c).ReducesLeast ↔ e.ReducesLeast := by
  simp only [ReducesLeast, parts, List.mem_cons, reduceCtorEq, false_or]

theorem eval_arithmetic (hop : op.isArithmetic = true) (t : TypeId) :
    (binary op l r t).eval host =
      l.eval host >>= fun a => r.eval host >>= fun b => ofExcept (applyBinary host.types op t a b) := by
  cases op <;> first | rfl | cases hop

theorem applyBinary_integers (hop : op.isArithmetic = true) (types : TypeTable) (i j : Int64) :
    applyBinary types op .int (.integer i) (.integer j) =
      match Value.arithmetic? op i j with
      | some z => .ok (.integer z)
      | none => .error (.arithmetic i op.symbol j) := by
  cases op <;> first | rfl | cases hop

theorem eval_opposite (hi : e.eval host w = .ok (.integer i) w) (t : TypeId) (c : Option Method) :
    (unary .negate e t c).eval host w = .ok (.integer (-i)) w :=
  bind_of_ok hi

theorem Exact.operands {n : Int} (h : (Expr.binary op l r t).Exact n) : (∃ x, l.Exact x) ∧ ∃ y, r.Exact y := by
  cases h with
  | binary _ hx hy => exact ⟨⟨_, hx⟩, _, hy⟩

theorem exact_binary_iff {x y n : Int} (hx : l.Exact x) (hy : r.Exact y) :
    (binary op l r t).Exact n ↔ op.Gives x y n ∧ inInt64 n = true := by
  constructor
  · intro h
    cases h with
    | binary _ hx' hy' hgives hfits =>
      rw [hx.unique hx', hy.unique hy']
      exact ⟨hgives, hfits⟩
  · rintro ⟨hgives, hfits⟩
    exact .binary t hx hy hgives hfits

/-- An operator that gives an integer for the exact operands gives the exact result, and is no remainder that
overflows. -/
theorem exact_of_arithmetic? {z : Int64} (hx : l.Exact i.toInt) (hy : r.Exact j.toInt)
    (hz : Value.arithmetic? op i j = some z) :
    (binary op l r t).Exact z.toInt ∧ ¬ (op = .modulo ∧ l.Exact least ∧ r.Exact (-1)) := by
  obtain ⟨hgives, hkept⟩ := Value.arithmetic?_eq_some.mp hz
  refine ⟨(exact_binary_iff hx hy).mpr ⟨hgives, inInt64_toInt z⟩, ?_⟩
  rintro ⟨hop, hl, hr⟩
  exact hkept ⟨hop, hx.unique hl, hy.unique hr⟩

/-- An operator that refuses the exact operands although there is an exact result is a remainder that overflows. -/
theorem reduces_of_arithmetic? {n : Int} (hx : l.Exact i.toInt) (hy : r.Exact j.toInt)
    (hz : Value.arithmetic? op i j = none) (hn : (binary op l r t).Exact n) :
    op = .modulo ∧ l.Exact least ∧ r.Exact (-1) := by
  obtain ⟨hgives, hfits⟩ := (exact_binary_iff hx hy).mp hn
  rw [← toInt_ofInt hfits] at hgives
  refine Classical.byContradiction fun hkept => ?_
  have hsome : Value.arithmetic? op i j = some (Int64.ofInt n) := by
    refine Value.arithmetic?_eq_some.mpr ⟨hgives, ?_⟩
    rintro ⟨hop, hi, hj⟩
    exact hkept ⟨hop, hi ▸ hx, hj ▸ hy⟩
  rw [hz] at hsome
  cases hsome

/-- Evaluation gives an integer, which is the exact value if there is one, and there is one unless the least integer has
been negated on the way. Or it fails where there is no exact value, remainders that overflow aside. -/
def Answers (host : Host) (w : World) (e : Expr) : Prop :=
  (∃ i, e.eval host w = .ok (.integer i) w ∧ (∀ n, e.Exact n → n = i.toInt ∧ ¬ e.ReducesLeast) ∧
      (¬ e.NegatesLeast host w → e.Exact i.toInt)) ∨
    (FailsAt w (e.eval host) ∧ ∀ n, e.Exact n → e.ReducesLeast)

theorem Answers.constant (i : Int64) (t : TypeId) (name : Option String) :
    Answers host w (constant (.integer i) t name) := by
  refine .inl ⟨i, rfl, fun n hn => ⟨hn.unique (.constant i t name), ?_⟩, fun _ => .constant i t name⟩
  simp [ReducesLeast, parts]

theorem Answers.arithmetic (hop : op.isArithmetic = true) (hl : l.Answers host w) (hr : r.Answers host w) :
    Answers host w (binary op l r .int) := by
  rcases hl with ⟨i, hi, hl, hlexact⟩ | ⟨hfail, hl⟩
  · rcases hr with ⟨j, hj, hr, hrexact⟩ | ⟨hfail, hr⟩
    · have heval : (binary op l r .int).eval host w =
          ofExcept (applyBinary host.types op .int (.integer i) (.integer j)) w := by
        rw [eval_arithmetic hop, bind_of_ok hi, bind_of_ok hj]
      rw [applyBinary_integers hop] at heval
      have hoperands : ∀ n, (binary op l r .int).Exact n →
          (l.Exact i.toInt ∧ ¬ l.ReducesLeast) ∧ r.Exact j.toInt ∧ ¬ r.ReducesLeast := by
        intro n hn
        obtain ⟨⟨x, hx⟩, y, hy⟩ := hn.operands
        obtain ⟨rfl, hlkept⟩ := hl x hx
        obtain ⟨rfl, hrkept⟩ := hr y hy
        exact ⟨⟨hx, hlkept⟩, hy, hrkept⟩
      cases hz : Value.arithmetic? op i j with
      | some z =>
        rw [hz] at heval
        refine .inl ⟨z, heval, fun n hn => ?_, fun hneg => ?_⟩
        · obtain ⟨⟨hx, hlkept⟩, hy, hrkept⟩ := hoperands n hn
          obtain ⟨hexact, hkept⟩ := exact_of_arithmetic? (t := .int) hx hy hz
          rw [reducesLeast_binary, not_or, not_or]
          exact ⟨hn.unique hexact, hkept, hlkept, hrkept⟩
        · have hx := hlexact fun h => hneg (.left op r .int h)
          have hy := hrexact fun h => hneg (.right op .int hi h)
          exact (exact_of_arithmetic? hx hy hz).1
      | none =>
        rw [hz] at heval
        -- With an exact result the operands are exact too, so it is this operator that has refused.
        refine .inr ⟨⟨_, heval⟩, fun n hn => ?_⟩
        obtain ⟨⟨hx, -⟩, hy, -⟩ := hoperands n hn
        exact reducesLeast_binary.mpr (.inl (reduces_of_arithmetic? hx hy hz hn))
    · refine .inr ⟨?_, fun n hn => ?_⟩
      · rw [eval_arithmetic hop, FailsAt, bind_of_ok hi]
        exact hfail.bind
      · obtain ⟨-, y, hy⟩ := hn.operands
        exact reducesLeast_binary.mpr (.inr (.inr (hr y hy)))
  · refine .inr ⟨?_, fun n hn => ?_⟩
    · rw [eval_arithmetic hop]
      exact hfail.bind
    · obtain ⟨⟨x, hx⟩, -⟩ := hn.operands
      exact reducesLeast_binary.mpr (.inr (.inl (hl x hx)))

theorem Answers.negate (h : e.Answers host w) : Answers host w (unary .negate e .int none) := by
  rcases h with ⟨i, hi, h, hexact⟩ | ⟨hfail, h⟩
  · refine .inl ⟨-i, eval_opposite hi .int none, fun n hn => ?_, fun hneg => ?_⟩
    · cases hn with
      | negate _ _ hx hfits =>
        obtain ⟨rfl, hkept⟩ := h _ hx
        rw [Value.toInt_neg (Value.inInt64_neg_iff.mp hfits), reducesLeast_negate]
        exact ⟨rfl, hkept⟩
    · have hleast : i.toInt ≠ least := by
        intro hi'
        have hmin : i = Int64.minValue := Int64.toInt_inj.mp hi'
        exact hneg (.here .int none (hmin ▸ hi))
      rw [Value.toInt_neg hleast]
      exact .negate .int none (hexact fun h => hneg (.inside .int none h)) (Value.inInt64_neg_iff.mpr hleast)
  · refine .inr ⟨hfail.bind, fun n hn => ?_⟩
    cases hn with
    | negate _ _ hx _ => exact reducesLeast_negate.mpr (h _ hx)

/-- Integer arithmetic is exact or an error. A tree of integer constants evaluates to an integer or fails, and leaves
the world alone. Unless evaluation comes to a negation of the least integer, the integer is its exact value and no
remainder in it overflows; a tree that fails has no exact value or a remainder that overflows. -/
theorem integers_exact (he : e.Integral) (host : Host) (w : World) :
    (∃ i, e.eval host w = .ok (.integer i) w ∧
        (¬ e.NegatesLeast host w → (∀ n, e.Exact n ↔ n = i.toInt) ∧ ¬ e.ReducesLeast)) ∨
      (FailsAt w (e.eval host) ∧ ∀ n, e.Exact n → e.ReducesLeast) := by
  have hanswers : e.Answers host w := by
    induction he with
    | constant i name => exact .constant i .int name
    | arithmetic hop hl hr ihl ihr =>
      rw [arithmetic_eq hop hl.type?_eq hr.type?_eq]
      exact ihl.arithmetic hop ihr
    | opposite he ih =>
      rw [opposite_eq he.type?_eq]
      exact ih.negate
  rcases hanswers with ⟨i, hi, honly, hexact⟩ | hfail
  · refine .inl ⟨i, hi, fun hneg => ?_⟩
    have hx := hexact hneg
    exact ⟨fun n => ⟨fun hn => (honly n hn).1, fun hn => hn ▸ hx⟩, (honly _ hx).2⟩
  · exact .inr hfail

end

end Expr

namespace Tallies

open DataBinding.Expr

def host : Host := ⟨⟨⟨[]⟩, fun _ => "", none⟩, fun _ => pure ()⟩

def lowest : Expr := ofValue (.integer Int64.minValue)

def one : Expr := ofValue (.integer 1)

/-- `-(-9223372036854775808 + 1)`, which just fits. -/
def highest : Expr := (arithmetic .add lowest one).opposite

theorem lowest_exact_iff {n : Int} : lowest.Exact n ↔ n = least :=
  ⟨fun h => h.unique (.constant Int64.minValue .int none), fun h => h ▸ .constant Int64.minValue .int none⟩

theorem highest_exact :
    highest.eval host {} = .ok (.integer Int64.maxValue) {} ∧ ∀ n, highest.Exact n ↔ n = Int64.maxValue.toInt := by
  have hintegral : highest.Integral := .opposite (.arithmetic rfl (.constant _ none) (.constant _ none))
  have hneg : ¬ highest.NegatesLeast host {} := by
    intro h
    change (unary .negate (binary .add lowest one .int) .int none).NegatesLeast host {} at h
    cases h with
    | here _ _ heval => cases heval
    | inside _ _ h =>
      cases h with
      | left _ _ _ h => cases h
      | right _ _ _ h => cases h
  have heval : highest.eval host {} = .ok (.integer Int64.maxValue) {} := rfl
  rcases integers_exact hintegral host {} with ⟨i, hi, hexact⟩ | ⟨⟨e, hfail⟩, -⟩
  · rw [heval] at hi
    cases hi
    exact ⟨heval, (hexact hneg).1⟩
  · rw [heval] at hfail
    cases hfail

/-- The least integer has no opposite, but negating it gives one: itself. Its remainder by minus one is zero, but taking
it fails. -/
theorem lowest_negated :
    (lowest.opposite.eval host {} = .ok (.integer Int64.minValue) {} ∧ ∀ n, ¬ lowest.opposite.Exact n) ∧
      FailsAt {} ((arithmetic .modulo lowest one.opposite).eval host) ∧
      (arithmetic .modulo lowest one.opposite).Exact 0 := by
  refine ⟨⟨rfl, ?_⟩, ⟨_, rfl⟩, ?_⟩
  · intro n hn
    cases hn with
    | negate _ _ hx hfits =>
      cases lowest_exact_iff.mp hx
      cases hfits
  · have hone : one.opposite.Exact (-1) := .negate _ _ (.constant 1 .int none) (by decide)
    exact .binary _ (lowest_exact_iff.mpr rfl) hone (.remainder least (by decide)) (by decide)

end Tallies

end DataBinding
