import DataBinding.Proofs.Queue.Drain

/-!
# Two values in the queue

When a side gets two different values in a row while nothing else waits, and the first is new to the binding, both come
into the queue. From then on each job changes a side and is answered by a job with its value for the other side, so the
two values circulate and the queue never empties (`unpaced_writes_circulate`).
-/

namespace DataBinding

open Effect

namespace Pair

variable (P : Pair)

/-- Two different values wait, the second of which the other side has already. -/
inductive Circling (id : BindingId) (w : World) (e e' : Endpoint) (x y : Value) : Prop
  | both (b : EqualityBinding) : P.Linked id w b → w.jobs = [P.job id e x, P.job id e y] → b.value.same x = false →
    x.settles (e.value w) = false → e'.value w = y → Circling id w e e' x y
  | crossed (b : EqualityBinding) : P.Linked id w b → w.jobs = [P.job id e y, P.job id e' x] → b.value = x →
    e.value w = x → e'.value w = y → Circling id w e e' x y

variable {P} {id : BindingId} {b : EqualityBinding} {e e' : Endpoint} {w w' : World} {f : Nat} {x y : Value}

/-- The oldest job changes its side, and that is answered by a job for the other side. -/
theorem run_other (h : P.Linked id w b) (hf : P.Faces e e') (hx : x.Fits P.platform.types P.type)
    (hs : x.settles (e.value w) = false) (hv : b.value.same x = false) (js : List Job) (f : Nat) :
    ∃ w', (P.job id e x).run (P.platform.withFuel (f + 1)) { w with jobs := js } = .ok () w' ∧
      P.Linked id w' { b with value := x } ∧ w'.jobs = js ++ [P.job id e' x] ∧ e.value w' = x ∧
      e'.value w' = e'.value w := by
  obtain ⟨w₁, hw₁⟩ : ∃ w₁ : World,
      { w with jobs := js, assignments := ⟨id, e.target P.platform.types, x⟩ :: w.assignments } = w₁ := ⟨_, rfl⟩
  have hlinked : P.Linked id w₁ b := by
    subst hw₁
    exact h.frame rfl h.known h.fits
  have hvalue : ∀ a : Endpoint, a.value w₁ = a.value w := by
    subst hw₁
    exact fun a => rfl
  have hjobs : w₁.jobs = js := by
    subst hw₁
    rfl
  obtain ⟨w', hput, hlinked', hjobs', hself, hkept⟩ := put_other hlinked hf hx ((hvalue e).symm ▸ hs) hv f
  refine ⟨w', ?_, hlinked', ?_, hself, hkept.trans (hvalue e')⟩
  · rw [← hput, ← hw₁]
    exact congrFun (target_run hf (f + 1) hx) _
  · rw [hjobs', hjobs]

theorem differ_comm (hx : x.Fits P.platform.types P.type) (h : x.same y = false) : y.same x = false := by
  apply Bool.eq_false_iff.mpr
  intro hs
  rw [Value.same_symm (.inr (fits_scalar hx)) hs] at h
  cases h

theorem not_settles (h : y.same x = false) : x.settles y = false := by
  apply Bool.eq_false_iff.mpr
  intro hs
  rw [Value.same_of_settles hs] at h
  cases h

theorem Circling.step (h : P.Circling id w e e' x y) (hf : P.Faces e e') (hx : x.Fits P.platform.types P.type)
    (hy : y.Fits P.platform.types P.type) (hne : y.same x = false) (f : Nat) :
    ∃ j js w' a a', w.jobs = j :: js ∧ j.run (P.platform.withFuel (f + 1)) { w with jobs := js } = .ok () w' ∧
      P.Faces a a' ∧ P.Circling id w' a a' x y := by
  -- The cases take turns: each is what running the oldest job leaves of the other one.
  have hne' : x.same y = false := differ_comm hy hne
  cases h with
  | both b hlinked hjobs hcached hs hother =>
    obtain ⟨w', hrun, hlinked', hjobs', hself, hkept⟩ := run_other hlinked hf hx hs hcached [P.job id e y] f
    exact ⟨_, _, w', e, e', hjobs, hrun, hf, .crossed _ hlinked' hjobs' rfl hself (hkept.trans hother)⟩
  | crossed b hlinked hjobs hcached hself hother =>
    have hs : y.settles (e.value w) = false := by
      rw [hself]
      exact not_settles hne'
    have hv : b.value.same y = false := by
      rw [hcached]
      exact hne'
    obtain ⟨w', hrun, hlinked', hjobs', hself', hkept⟩ := run_other hlinked hf hy hs hv [P.job id e' x] f
    have hs' : x.settles (e'.value w') = false := by
      rw [hkept, hother]
      exact not_settles hne
    exact ⟨_, _, w', e', e, hjobs, hrun, hf.symm, .both _ hlinked' hjobs' hne hs' hself'⟩

theorem Circling.flush (h : P.Circling id w e e' x y) (hf : P.Faces e e') (hx : x.Fits P.platform.types P.type)
    (hy : y.Fits P.platform.types P.type) (hne : y.same x = false) (f n : Nat) :
    ∃ w', DataBinding.flush (P.platform.withFuel (f + 1)) n w = .ok () w' ∧ w'.jobs.length = 2 := by
  induction n generalizing w e e' with
  | zero =>
    refine ⟨w, rfl, ?_⟩
    cases h with
    | both _ _ hjobs => rw [hjobs]; rfl
    | crossed _ _ hjobs => rw [hjobs]; rfl
  | succ n ih =>
    obtain ⟨j, js, w₁, a, a', hjobs, hrun, hf₁, h₁⟩ := h.step hf hx hy hne f
    obtain ⟨w', hrest, hlen⟩ := ih h₁ hf₁
    exact ⟨w', (flush_cons _ n hjobs).trans ((bind_of_ok hrun).trans hrest), hlen⟩

theorem Steady.circling (h : P.Steady id w b) (hjobs : w.jobs = []) (hf : P.Faces e e')
    (hx : x.Fits P.platform.types P.type) (hy : y.Fits P.platform.types P.type) (hv : b.value.same x = false)
    (hne : x.same y = false) (f : Nat) :
    ∃ w', [Op.write e x, .write e y].forM (Op.run (P.platform.withFuel (f + 1))) w = .ok () w' ∧
      P.Circling id w' e' e x y := by
  obtain ⟨w₁, hput, h₁, hjobs₁, hself₁, hother₁⟩ := h.put_other hjobs hf hx hv f
  have hs : y.settles (e.value w₁) = false := by
    rw [hself₁]
    exact not_settles hne
  obtain ⟨w₂, hput', hlinked, hjobs₂, hself₂, hother₂⟩ := Pair.put_other h₁.toLinked hf hy hs hne f
  have hfirst := (congrFun (writeNamed_eq hf (f + 1) hx) w).trans hput
  have hsecond := (congrFun (writeNamed_eq hf (f + 1) hy) w₁).trans hput'
  have hback : y.same x = false := differ_comm hx hne
  have hstale : x.settles (e'.value w₂) = false := by
    rw [hother₂, hother₁]
    apply Bool.eq_false_iff.mpr
    intro hs
    rw [same_of_settled h.toLinked hf.symm (h.settled hjobs hf.symm) hs] at hv
    cases hv
  refine ⟨w₂, (bind_of_ok hfirst).trans ((bind_of_ok hsecond).trans rfl), .both _ hlinked ?_ hback hstale hself₂⟩
  rw [hjobs₂, hjobs₁]
  rfl

end Pair

/-- When one side is written twice in a row while nothing waits, first with a value that is new to the binding and then
with another one, the queue never empties again. -/
theorem unpaced_writes_circulate (P : Pair) {w : World} (h : P.Start w) {e e' : Endpoint} (hf : P.Faces e e')
    {x y : Value} (hx : x.Fits P.platform.types P.type) (hy : y.Fits P.platform.types P.type)
    (hv : (P.right.value w).same x = false) (hne : x.same y = false) (f : Nat) :
    ∃ id w₁ w₂ w₃, EqualityBinding.create (P.platform.withFuel (f + 1)) P.config .twoWay P.left.expr P.right.expr w =
        .ok id w₁ ∧ flush (P.platform.withFuel (f + 1)) 1 w₁ = .ok () w₂ ∧ w₂.jobs = [] ∧
      [Pair.Op.write e x, .write e y].forM (Pair.Op.run (P.platform.withFuel (f + 1))) w₂ = .ok () w₃ ∧
      ∀ n, ∃ w₄, flush (P.platform.withFuel (f + 1)) n w₃ = .ok () w₄ ∧ w₄.jobs.length = 2 := by
  obtain ⟨w₁, b, hcreate, h₁, hvalue, hjobs₁⟩ := h.create (f + 1)
  obtain ⟨w₂, hflush, h₂, hjobs₂⟩ := h₁.flush f 1
  have hempty : w₂.jobs = [] := by
    rw [hjobs₂, hjobs₁]
    rfl
  obtain ⟨w₃, hrun, h₃⟩ := h₂.circling hempty hf hx hy (by rw [hvalue]; exact hv) hne f
  exact ⟨_, w₁, w₂, w₃, hcreate, hflush, hempty, hrun, h₃.flush hf.symm hx hy (Pair.differ_comm hx hne) f⟩

namespace Dials

/-- Two writes in a row, and no number of jobs empties the queue. -/
theorem two_writes_circulate : ∃ id w₁ w₂ w₃,
    EqualityBinding.create (pair.platform.withFuel 1) pair.config .twoWay pair.left.expr pair.right.expr idle = .ok id w₁ ∧
      flush (pair.platform.withFuel 1) 1 w₁ = .ok () w₂ ∧ w₂.jobs = [] ∧
      [Pair.Op.write (dial 0 "a") (.integer 1), .write (dial 0 "a") (.integer 2)].forM
        (Pair.Op.run (pair.platform.withFuel 1)) w₂ = .ok () w₃ ∧
      ¬ ∃ n w₄, flush (pair.platform.withFuel 1) n w₃ = .ok () w₄ ∧ w₄.jobs = [] := by
  obtain ⟨id, w₁, w₂, w₃, hcreate, hflush, hempty, hrun, hdrain⟩ := unpaced_writes_circulate pair idle_pair
    Pair.left_faces (x := .integer 1) (y := .integer 2) rfl rfl rfl rfl 0
  refine ⟨id, w₁, w₂, w₃, hcreate, hflush, hempty, hrun, ?_⟩
  intro h
  obtain ⟨n, w₄, hlast, hjobs⟩ := h
  obtain ⟨w', hlast', hlen⟩ := hdrain n
  cases hlast.symm.trans hlast'
  rw [hjobs] at hlen
  cases hlen

end Dials

end DataBinding
