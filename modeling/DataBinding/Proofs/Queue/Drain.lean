import DataBinding.Proofs.Network.Run
import DataBinding.Proofs.Queue.Pair

/-!
# Draining the queue

As long as another value is written only when the queue is empty, all waiting jobs carry the value that the binding
has carried over last (`Steady`). Then the waiting jobs are the last ones, and both sides end up with the value that
was written last (`paced_writes_drain`).
-/

namespace DataBinding

open Effect

namespace Pair

variable (P : Pair)

/-- All waiting jobs carry the cached value to a side, and one of them waits for every side without it. -/
structure Steady (id : BindingId) (w : World) (b : EqualityBinding) : Prop extends P.Linked id w b where
  queued : ∀ j ∈ w.jobs, ∃ e e' x, P.Faces e e' ∧ j = P.job id e x ∧ x.Fits P.platform.types P.type ∧
    b.value.same x = true
  sides : ∀ e e', P.Faces e e' → b.value.same (e.value w) = true ∨ ∃ x, P.job id e x ∈ w.jobs

variable {P} {id : BindingId} {b : EqualityBinding} {e e' : Endpoint} {w w' : World} {x v : Value}

theorem same_self (h : x.Fits P.platform.types P.type) : x.same x = true :=
  Value.same_refl (.scalar _ (fits_scalar h))

theorem Steady.settled (h : P.Steady id w b) (hjobs : w.jobs = []) (hf : P.Faces e e') :
    b.value.same (e.value w) = true := by
  apply (h.sides e e' hf).resolve_right
  intro hjob
  obtain ⟨x, hx⟩ := hjob
  rw [hjobs] at hx
  cases hx

theorem same_of_settled (h : P.Linked id w b) (hf : P.Faces e e') (hv : b.value.same (e.value w) = true)
    (hs : x.settles (e.value w) = true) : b.value.same x = true := by
  have hfits : (e.value w).IsScalar := fits_scalar (h.fits e e' hf)
  have hcached : b.value.IsScalar := Value.IsScalar.of_same hfits (Value.same_symm (.inr hfits) hv)
  exact Value.same_trans hfits (.inl hcached) hv (Value.same_of_settles hs)

/-! ## One operation -/

/-- Writing the cached value once more gives it to one side and takes it from none. -/
theorem put_cached (h : P.Linked id w b) (hf : P.Faces e e') (hx : x.Fits P.platform.types P.type)
    (hv : b.value.same x = true) (f : Nat) :
    ∃ w', e.put (P.platform.withFuel (f + 1)) x w = .ok () w' ∧ P.Linked id w' b ∧ w'.jobs = w.jobs ∧
      b.value.same (e.value w') = true ∧
      ∀ a : Endpoint, b.value.same (a.value w) = true → b.value.same (a.value w') = true := by
  by_cases hs : x.settles (e.value w) = true
  · have hscalar : x.IsScalar := fits_scalar hx
    have hcached : b.value.IsScalar := Value.IsScalar.of_same hscalar (Value.same_symm (.inr hscalar) hv)
    have hback := Value.same_symm (.inr hscalar) (Value.same_of_settles hs)
    exact ⟨w, put_settled _ hs, h, rfl, Value.same_trans hscalar (.inl hcached) hv hback, fun _ ha => ha⟩
  · obtain ⟨log, hput⟩ := put_known h hf hx (Bool.eq_false_iff.mpr hs) hv f
    have hstored := h.store e hx
    refine ⟨_, hput, hstored.frame rfl hstored.known hstored.fits, rfl, ?_, ?_⟩
    · show b.value.same (e.value (e.store w x)) = true
      rw [Endpoint.value_store_self]
      exact hv
    · intro a ha
      exact Endpoint.same_store hv ha

theorem Steady.put_cached (h : P.Steady id w b) (hf : P.Faces e e') (hx : x.Fits P.platform.types P.type)
    (hv : b.value.same x = true) (f : Nat) :
    ∃ w', e.put (P.platform.withFuel (f + 1)) x w = .ok () w' ∧ P.Steady id w' b := by
  obtain ⟨w', hput, hlinked, hjobs, -, hkept⟩ := Pair.put_cached h.toLinked hf hx hv f
  refine ⟨w', hput, hlinked, ?_, ?_⟩
  · rw [hjobs]
    exact h.queued
  · intro a a' ha
    rw [hjobs]
    exact (h.sides a a' ha).imp_left (hkept a)

theorem Steady.put_other (h : P.Steady id w b) (hjobs : w.jobs = []) (hf : P.Faces e e')
    (hx : x.Fits P.platform.types P.type) (hv : b.value.same x = false) (f : Nat) :
    ∃ w', e.put (P.platform.withFuel (f + 1)) x w = .ok () w' ∧ P.Steady id w' { b with value := x } ∧
      w'.jobs = [P.job id e' x] ∧ e.value w' = x ∧ e'.value w' = e'.value w := by
  have hs : x.settles (e.value w) = false := by
    apply Bool.eq_false_iff.mpr
    intro hs
    rw [same_of_settled h.toLinked hf (h.settled hjobs hf) hs] at hv
    cases hv
  obtain ⟨w', hput, hlinked, hjobs', hself, hkept⟩ := Pair.put_other h.toLinked hf hx hs hv f
  have hqueue : w'.jobs = [P.job id e' x] := by
    rw [hjobs', hjobs]
    rfl
  refine ⟨w', hput, ⟨hlinked, ?_, ?_⟩, hqueue, hself, hkept⟩
  · intro j hj
    rw [hqueue] at hj
    cases List.mem_singleton.mp hj
    exact ⟨e', e, x, hf.symm, rfl, hx, same_self hx⟩
  · intro a a' ha
    by_cases hae : a = e
    · subst hae
      refine .inl ?_
      rw [hself]
      exact same_self hx
    · have hother : a = e' := by
        rcases ha with ⟨rfl, rfl⟩ | ⟨rfl, rfl⟩
        · exact (hf.resolve_left fun h => hae h.1.symm).2.symm
        · exact (hf.resolve_right fun h => hae h.1.symm).2.symm
      refine .inr ⟨x, ?_⟩
      rw [hqueue, hother]
      exact List.mem_singleton.mpr rfl

theorem Steady.run_job (h : P.Steady id w b) {j : Job} {js : List Job} (hjobs : w.jobs = j :: js) (f : Nat) :
    ∃ w', j.run (P.platform.withFuel (f + 1)) { w with jobs := js } = .ok () w' ∧ P.Steady id w' b ∧ w'.jobs = js := by
  obtain ⟨e, e', x, hf, rfl, hx, hv⟩ := h.queued j (by rw [hjobs]; exact List.mem_cons_self)
  obtain ⟨w₁, hw₁⟩ : ∃ w₁ : World,
      { w with jobs := js, assignments := ⟨id, e.target P.platform.types, x⟩ :: w.assignments } = w₁ := ⟨_, rfl⟩
  have hlinked : P.Linked id w₁ b := by
    subst hw₁
    exact h.toLinked.frame rfl h.known h.fits
  obtain ⟨w', hput, hlinked', hjobs', hself, hkept⟩ := Pair.put_cached hlinked hf hx hv f
  have hrun : (P.job id e x).run (P.platform.withFuel (f + 1)) { w with jobs := js } = .ok () w' := by
    rw [← hput, ← hw₁]
    exact congrFun (target_run hf (f + 1) hx) _
  have hqueue : w'.jobs = js := by
    rw [hjobs', ← hw₁]
  refine ⟨w', hrun, ⟨hlinked', ?_, ?_⟩, hqueue⟩
  · intro j hj
    rw [hqueue] at hj
    apply h.queued j
    rw [hjobs]
    exact List.mem_cons_of_mem _ hj
  · intro a a' ha
    rcases h.sides a a' ha with hs | ⟨y, hy⟩
    · refine .inl (hkept a ?_)
      rw [← hw₁]
      exact hs
    · rw [hjobs] at hy
      rcases List.mem_cons.mp hy with hj | hy
      · -- The side that this job was for has got the value.
        rw [(job_inj ha hf hj).1]
        exact .inl hself
      · rw [hqueue]
        exact .inr ⟨y, hy⟩

theorem Steady.flush (h : P.Steady id w b) (f n : Nat) :
    ∃ w', DataBinding.flush (P.platform.withFuel (f + 1)) n w = .ok () w' ∧ P.Steady id w' b ∧
      w'.jobs = w.jobs.drop n := by
  induction n generalizing w with
  | zero => exact ⟨w, rfl, h, rfl⟩
  | succ n ih =>
    cases hjobs : w.jobs with
    | nil =>
      refine ⟨w, ?_, h, hjobs⟩
      unfold DataBinding.flush
      rw [bind_get, hjobs]
      rfl
    | cons j js =>
      obtain ⟨w₁, hrun, h₁, hjobs₁⟩ := h.run_job hjobs f
      obtain ⟨w', hrest, h', hjobs'⟩ := ih h₁
      refine ⟨w', (flush_cons _ n hjobs).trans ((bind_of_ok hrun).trans hrest), h', ?_⟩
      rw [hjobs', hjobs₁]
      rfl

/-! ## Runs -/

/-- What is done from outside: a side is written, or the oldest job is run. -/
inductive Op where
  | write (e : Endpoint) (x : Value)
  | job

namespace Op

def Valid (P : Pair) : Op → Prop
  | write e x => (e = P.left ∨ e = P.right) ∧ x.Fits P.platform.types P.type
  | job => True

def run (host : Host) : Op → Effect Unit
  | write e x => host.writeNamed e.object e.member.name x
  | job => DataBinding.flush host 1

def lastWritten? : List Op → Option Value
  | [] => none
  | write _ x :: ops => (lastWritten? ops).or (some x)
  | job :: ops => lastWritten? ops

end Op

/-- Writes find an empty queue, or give the value that the binding has carried over last. -/
def Paced (host : Host) (id : BindingId) (ops : List Op) (w : World) : Prop :=
  ∀ pre e x post, ops = pre ++ .write e x :: post → ∀ w', pre.forM (Op.run host) w = .ok () w' →
    w'.jobs = [] ∨ ∃ b, w'.equality? id = some b ∧ b.value.same x = true

theorem Paced.tail {host : Host} {o : Op} {ops : List Op} (h : Paced host id (o :: ops) w)
    (ho : o.run host w = .ok () w') : Paced host id ops w' := by
  intro pre e x post hops w'' hrun
  apply h (o :: pre) e x post (by rw [hops]; rfl)
  exact (bind_of_ok ho).trans hrun

theorem Steady.write (h : P.Steady id w b) (hf : P.Faces e e') (hx : x.Fits P.platform.types P.type)
    (hpaced : w.jobs = [] ∨ b.value.same x = true) (f : Nat) :
    ∃ w' b', e.put (P.platform.withFuel (f + 1)) x w = .ok () w' ∧ P.Steady id w' b' ∧ b'.value.same x = true := by
  by_cases hv : b.value.same x = true
  · obtain ⟨w', hput, h'⟩ := h.put_cached hf hx hv f
    exact ⟨w', b, hput, h', hv⟩
  · have hjobs := hpaced.resolve_right hv
    obtain ⟨w', hput, h', -⟩ := h.put_other hjobs hf hx (Bool.eq_false_iff.mpr hv) f
    exact ⟨w', _, hput, h', same_self hx⟩

theorem faces_of_valid {e : Endpoint} (he : e = P.left ∨ e = P.right) : ∃ e', P.Faces e e' := by
  rcases he with rfl | rfl
  · exact ⟨P.right, .inl ⟨rfl, rfl⟩⟩
  · exact ⟨P.left, .inr ⟨rfl, rfl⟩⟩

theorem Steady.cached_of_known (h : P.Steady id w b)
    (hpaced : w.jobs = [] ∨ ∃ b, w.equality? id = some b ∧ b.value.same x = true) :
    w.jobs = [] ∨ b.value.same x = true := by
  apply hpaced.imp_right
  intro hb
  obtain ⟨b', hb', hs⟩ := hb
  cases h.known.symm.trans hb'
  exact hs

/-- A paced run leaves what was written last as the value that was carried over last. -/
theorem Steady.run (h : P.Steady id w b) {z : Value} (hz : b.value.same z = true) {f : Nat} {ops : List Op}
    (hops : ∀ o ∈ ops, o.Valid P) (hpaced : Paced (P.platform.withFuel (f + 1)) id ops w) :
    ∃ w' b', ops.forM (Op.run (P.platform.withFuel (f + 1))) w = .ok () w' ∧ P.Steady id w' b' ∧
      b'.value.same ((Op.lastWritten? ops).getD z) = true := by
  induction ops generalizing w b z with
  | nil => exact ⟨w, b, rfl, h, hz⟩
  | cons o ops ih =>
    have hrest : ∀ o ∈ ops, o.Valid P := fun o ho => hops o (List.mem_cons_of_mem _ ho)
    cases o with
    | job =>
      obtain ⟨w₁, hjob, h₁, -⟩ := h.flush f 1
      obtain ⟨w', b', hrun, h', hlast⟩ := ih h₁ hz hrest (hpaced.tail hjob)
      exact ⟨w', b', (bind_of_ok hjob).trans hrun, h', hlast⟩
    | write e x =>
      obtain ⟨hside, hx⟩ := hops _ List.mem_cons_self
      obtain ⟨e', hf⟩ := faces_of_valid hside
      have hnone : ([] : List Op).forM (Op.run (P.platform.withFuel (f + 1))) w = .ok () w := rfl
      have hready := h.cached_of_known (hpaced [] e x ops rfl w hnone)
      obtain ⟨w₁, b₁, hput, h₁, hs₁⟩ := h.write hf hx hready f
      have hwrite : (Op.write e x).run (P.platform.withFuel (f + 1)) w = .ok () w₁ :=
        (congrFun (writeNamed_eq hf (f + 1) hx) w).trans hput
      obtain ⟨w', b', hrun, h', hlast⟩ := ih h₁ hs₁ hrest (hpaced.tail hwrite)
      refine ⟨w', b', (bind_of_ok hwrite).trans hrun, h', ?_⟩
      rw [Op.lastWritten?]
      cases hl : Op.lastWritten? ops with
      | none =>
        rw [hl] at hlast
        exact hlast
      | some y =>
        rw [hl] at hlast
        exact hlast

/-! ## Making the binding -/

variable (P) in
/-- Both sides hold fitting values and are listened to for other properties only, and nothing waits. -/
structure Start (w : World) : Prop where
  fits : ∀ e e', P.Faces e e' → (e.value w).Fits P.platform.types P.type
  offers : ∀ e e', P.Faces e e' → (w.object e.object.name).offersChanges = true
  silent : ∀ e e', P.Faces e e' → ∀ g ∈ w.handlersOf (.changed e.object.name), g.Deaf e.member.name
  idle : w.jobs = []

theorem left_faces : P.Faces P.left P.right := .inl ⟨rfl, rfl⟩

theorem right_faces : P.Faces P.right P.left := .inr ⟨rfl, rfl⟩

variable (P) in
/-- The binding when it gets its number. -/
def unbound : EqualityBinding := { dispatcher := P.config.assignments, flags := .twoWay }

theorem start_queues (w : World) (f : Nat) :
    EqualityBinding.start (P.platform.withFuel f) ⟨w.next⟩ .twoWay (P.right.source P.platform.types)
        (P.left.target P.platform.types) (w.registering P.unbound) =
      .ok false ((w.registering P.unbound).deferred ⟨w.next⟩ P.unbound (P.left.target P.platform.types)
        (P.right.value w)) := by
  have hknown : (w.registering P.unbound).equality? ⟨w.next⟩ = some P.unbound :=
    World.equality?_eq_some.mpr ((World.find?_setBinding _ _ _ _).trans (if_pos rfl))
  have hnew : ((w.registering P.unbound).setBinding ⟨w.next⟩
      (.equality { P.unbound with value := P.right.value w })).equality? ⟨w.next⟩ =
      some { P.unbound with value := P.right.value w } :=
    World.equality?_eq_some.mpr ((World.find?_setBinding _ _ _ _).trans (if_pos rfl))
  have hsource : (P.right.source P.platform.types).run (P.platform.withFuel f) (w.registering P.unbound) =
      .ok (P.right.value w) (w.registering P.unbound) := source_run right_faces f _
  have honce : P.unbound.flags.isOneTime = false := show Flags.twoWay.isOneTime = false by decide
  have hqueue : dispatch (P.platform.withFuel f) P.unbound.dispatcher (P.job ⟨w.next⟩ P.left (P.right.value w)) =
      dispatch (P.platform.withFuel f) (some .defer) (P.job ⟨w.next⟩ P.left (P.right.value w)) := by
    rw [show P.unbound.dispatcher = some .defer from P.queues]
  have hassign := (EqualityBinding.assign_eq hnew honce).trans (congrFun hqueue _)
  rw [EqualityBinding.start_eq hsource (by decide), EqualityBinding.updateEquality_value hknown]
  exact (bind_of_ok hassign).trans rfl

theorem Start.create (h : P.Start w) (f : Nat) :
    ∃ w' b, EqualityBinding.create (P.platform.withFuel f) P.config .twoWay P.left.expr P.right.expr w =
      .ok ⟨w.next⟩ w' ∧ P.Steady ⟨w.next⟩ w' b ∧ b.value = P.right.value w ∧
      w'.jobs = [P.job ⟨w.next⟩ P.left (P.right.value w)] := by
  obtain ⟨w', hcreate, hjoins⟩ := Endpoint.create_joins P.loudLeft P.loudRight (by decide) (fun hn => absurd hn P.nodes)
    (start_queues w f) (equality?_deferred _ _ _ _ _) (h.offers _ _ left_faces) (h.offers _ _ right_faces)
  obtain ⟨left, right, hown, -⟩ := hjoins.own
  have hvalue : ∀ e : Endpoint, e.value w' = e.value w := by
    intro e
    unfold Endpoint.value World.slot World.object
    rw [hjoins.objects]
    rfl
  have hfits := h.fits _ _ right_faces
  have hjobs : w'.jobs = [P.job ⟨w.next⟩ P.left (P.right.value w)] := by
    rw [hjoins.jobs]
    show w.jobs ++ [_] = _
    rw [h.idle]
    rfl
  -- The handlers that were there before stay silent; of the two new ones each belongs to one side.
  have hlinked : P.Linked ⟨w.next⟩ w' { P.unbound with value := P.right.value w, left, right } := by
    refine ⟨hown, rfl, show Flags.twoWay.isOneTime = false by decide, P.queues, ?_, ?_, ?_⟩
    · intro e e' hf
      rw [hvalue]
      exact h.fits e e' hf
    · intro e e' hf g hg
      rcases (hjoins.handlersOf _ g).mp hg with hg | ⟨hk, rfl⟩ | ⟨hk, rfl⟩
      · exact .inr (h.silent e e' hf g hg)
      · rcases hf with ⟨rfl, rfl⟩ | ⟨rfl, rfl⟩
        · exact absurd (EventKey.changed.inj hk) P.apart
        · exact .inl rfl
      · rcases hf with ⟨rfl, rfl⟩ | ⟨rfl, rfl⟩
        · exact .inl rfl
        · exact absurd (EventKey.changed.inj hk).symm P.apart
    · intro e e' hf
      rcases hf with ⟨rfl, rfl⟩ | ⟨rfl, rfl⟩
      · exact ⟨_, (hjoins.handlersOf _ _).mpr (.inr (.inr ⟨rfl, rfl⟩)), rfl⟩
      · exact ⟨_, (hjoins.handlersOf _ _).mpr (.inr (.inl ⟨rfl, rfl⟩)), rfl⟩
  refine ⟨w', _, hcreate, ⟨hlinked, ?_, ?_⟩, rfl, hjobs⟩
  · intro j hj
    rw [hjobs] at hj
    cases List.mem_singleton.mp hj
    exact ⟨P.left, P.right, _, left_faces, rfl, hfits, same_self hfits⟩
  · intro e e' hf
    rcases hf with ⟨rfl, rfl⟩ | ⟨rfl, rfl⟩
    · refine .inr ⟨P.right.value w, ?_⟩
      rw [hjobs]
      exact List.mem_singleton.mpr rfl
    · refine .inl ?_
      rw [hvalue]
      exact same_self hfits

theorem eval_side (hf : P.Faces e e') (f : Nat) (w : World) :
    e.expr.eval (P.platform.withFuel f) w = .ok (e.value w) w :=
  Endpoint.Loud.eval_eq hf.loud w

end Pair

/-- The first value reaches the left side by a job. After that, whatever is written to either side at the given pace
and whenever jobs are run in between, the jobs that wait in the end are the last ones, and when they have been run both
sides have the value that was written last. -/
theorem paced_writes_drain (P : Pair) {w : World} (h : P.Start w) {fuel : Nat} (hf : 0 < fuel) :
    ∃ id w₁ w₂, EqualityBinding.create (P.platform.withFuel fuel) P.config .twoWay P.left.expr P.right.expr w =
        .ok id w₁ ∧ flush (P.platform.withFuel fuel) 1 w₁ = .ok () w₂ ∧ w₂.jobs = [] ∧
      ∀ ops v, (∀ o ∈ ops, o.Valid P) → Pair.Op.lastWritten? ops = some v →
        Pair.Paced (P.platform.withFuel fuel) id ops w₂ →
        ∃ w₃ w₄, ops.forM (Pair.Op.run (P.platform.withFuel fuel)) w₂ = .ok () w₃ ∧
          flush (P.platform.withFuel fuel) w₃.jobs.length w₃ = .ok () w₄ ∧ w₄.jobs = [] ∧
          ∃ x y, P.left.expr.eval (P.platform.withFuel fuel) w₄ = .ok x w₄ ∧
            P.right.expr.eval (P.platform.withFuel fuel) w₄ = .ok y w₄ ∧ v.same x = true ∧ v.same y = true := by
  obtain ⟨f, rfl⟩ : ∃ f, fuel = f + 1 := ⟨fuel - 1, by omega⟩
  obtain ⟨w₁, b, hcreate, h₁, -, hjobs₁⟩ := h.create (f + 1)
  obtain ⟨w₂, hflush, h₂, hjobs₂⟩ := h₁.flush f 1
  refine ⟨_, w₁, w₂, hcreate, hflush, by rw [hjobs₂, hjobs₁]; rfl, ?_⟩
  intro ops v hops hlast hpaced
  have hcached : b.value.same (P.left.value w₂) = true := by
    apply h₂.settled _ Pair.left_faces
    rw [hjobs₂, hjobs₁]
    rfl
  obtain ⟨w₃, b', hrun, h₃, hv⟩ := h₂.run hcached hops hpaced
  obtain ⟨w₄, hdrain, h₄, hjobs₄⟩ := h₃.flush f w₃.jobs.length
  rw [hlast] at hv
  have hempty : w₄.jobs = [] := by
    rw [hjobs₄]
    exact List.drop_length
  have hside : ∀ e e', P.Faces e e' → v.same (e.value w₄) = true := by
    intro e e' hf
    have hfits := h₄.fits e e' hf
    have hs := h₄.settled hempty hf
    have hscalar : b'.value.IsScalar :=
      Value.IsScalar.of_same (Pair.fits_scalar hfits) (Value.same_symm (.inr (Pair.fits_scalar hfits)) hs)
    exact Value.same_trans hscalar (.inr (Pair.fits_scalar hfits)) (Value.same_symm (.inl hscalar) hv) hs
  exact ⟨w₃, w₄, hrun, hdrain, hempty, _, _, Pair.eval_side Pair.left_faces (f + 1) w₄,
    Pair.eval_side Pair.right_faces (f + 1) w₄, hside _ _ Pair.left_faces, hside _ _ Pair.right_faces⟩

/-! ## Two dials -/

namespace Dials

theorem dials_apart :
    (dial 0 "a").object.name ≠ (dial 1 "b").object.name ∧ (dial 0 "a").node ≠ (dial 1 "b").node := by
  decide

def pair : Pair where
  platform := platform
  config := { assignments := some .defer }
  type := .int
  left := dial 0 "a"
  right := dial 1 "b"
  scalar := .tail _ (.head _)
  unlimited := platform_unlimited
  queues := rfl
  loudLeft := { dial_loud 0 "a" with }
  loudRight := { dial_loud 1 "b" with }
  apart := dials_apart.1
  nodes := dials_apart.2

theorem idle_pair : pair.Start idle where
  fits e e' hf := by
    rcases hf with ⟨rfl, rfl⟩ | ⟨rfl, rfl⟩
    all_goals rfl
  offers e e' hf := by
    rcases hf with ⟨rfl, rfl⟩ | ⟨rfl, rfl⟩
    all_goals rfl
  silent e e' hf g hg := by cases hg
  idle := rfl

/-- Both dials are written while a job waits, and one of them again when none does. -/
def turns : List Pair.Op :=
  [.write (dial 0 "a") (.integer 7), .write (dial 1 "b") (.integer 7), .job, .write (dial 1 "b") (.integer 9)]

def inPace (x : Value) : EStateM.Result Stop World BindingId → Bool
  | .ok id w => w.jobs.isEmpty || (w.equality? id).any (·.value.same x)
  | .error _ _ => false

def opening (pre : List Pair.Op) : Effect BindingId := do
  let id ← EqualityBinding.create (pair.platform.withFuel 1) pair.config .twoWay pair.left.expr pair.right.expr
  flush (pair.platform.withFuel 1) 1
  pre.forM (Pair.Op.run (pair.platform.withFuel 1))
  return id

theorem turns_inPace (pre : List Pair.Op) (e : Endpoint) (x : Value) (post : List Pair.Op)
    (h : turns = pre ++ .write e x :: post) : inPace x (opening pre idle) = true := by
  unfold turns at h
  rcases pre with _ | ⟨_, _ | ⟨_, _ | ⟨_, _ | ⟨_, pre⟩⟩⟩⟩
  all_goals simp only [List.nil_append, List.cons_append, List.cons.injEq, Pair.Op.write.injEq, reduceCtorEq, false_and,
    and_false] at h
  · obtain ⟨⟨-, rfl⟩, -⟩ := h
    decide +kernel
  · obtain ⟨rfl, ⟨-, rfl⟩, -⟩ := h
    decide +kernel
  · obtain ⟨rfl, rfl, rfl, ⟨-, rfl⟩, -⟩ := h
    decide +kernel
  · obtain ⟨-, -, -, -, h⟩ := h
    cases pre with
    | nil => cases h
    | cons o pre => cases h

theorem turns_drain : ∃ id w₁ w₂ w₃ w₄,
    EqualityBinding.create (pair.platform.withFuel 1) pair.config .twoWay pair.left.expr pair.right.expr idle = .ok id w₁ ∧
      flush (pair.platform.withFuel 1) 1 w₁ = .ok () w₂ ∧
      turns.forM (Pair.Op.run (pair.platform.withFuel 1)) w₂ = .ok () w₃ ∧
      flush (pair.platform.withFuel 1) w₃.jobs.length w₃ = .ok () w₄ ∧ w₄.jobs = [] ∧
      ∃ x y, pair.left.expr.eval (pair.platform.withFuel 1) w₄ = .ok x w₄ ∧
        pair.right.expr.eval (pair.platform.withFuel 1) w₄ = .ok y w₄ ∧
        (Value.integer 9).same x = true ∧ (Value.integer 9).same y = true := by
  obtain ⟨id, w₁, w₂, hcreate, hflush, -, hdrain⟩ := paced_writes_drain pair idle_pair (show 0 < 1 by decide)
  have hvalid : ∀ o ∈ turns, o.Valid pair := by
    simp only [turns, List.forall_mem_cons]
    exact ⟨⟨.inl rfl, rfl⟩, ⟨.inr rfl, rfl⟩, trivial, ⟨.inr rfl, rfl⟩, fun _ h => by cases h⟩
  have hpaced : Pair.Paced (pair.platform.withFuel 1) id turns w₂ := by
    intro pre e x post hsplit w' hrun
    have hcheck := turns_inPace pre e x post hsplit
    unfold opening at hcheck
    rw [bind_of_ok hcreate, bind_of_ok hflush, bind_of_ok hrun] at hcheck
    rcases Bool.or_eq_true_iff.mp hcheck with hempty | hcached
    · exact .inl (List.isEmpty_iff.mp hempty)
    · cases hb : w'.equality? id with
      | none =>
        rw [hb] at hcached
        cases hcached
      | some b =>
        rw [hb] at hcached
        exact .inr ⟨b, rfl, hcached⟩
  obtain ⟨w₃, w₄, hrun, hlast, hempty, hsides⟩ := hdrain turns (.integer 9) hvalid rfl hpaced
  exact ⟨id, w₁, w₂, w₃, w₄, hcreate, hflush, hrun, hlast, hempty, hsides⟩

end Dials

end DataBinding
