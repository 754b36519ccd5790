import DataBinding.Proofs.Expr.Closed
import DataBinding.Proofs.Tracking.Code
import DataBinding.Proofs.Schema.Lineage

/-!
# Expressions around a followed binding

Evaluating a tame expression and running tame compiled forms takes steps.
-/

namespace DataBinding.Tracking

open Effect

variable {T : Tracking} {host : Host}

theorem Member.visibleFrom_tame {types : TypeTable} (ht : types.Tame T.toWatch) {m : Member} (hm : m.Tame T.toWatch)
    (v : Value) : (m.visibleFrom types v).Tame T.toWatch := by
  unfold Member.visibleFrom
  split
  · exact hm
  · split
    · rename_i t _
      cases hf : (types.member? t m.name).filter fun found => found.kind = m.kind with
      | none => exact hm
      | some found =>
        obtain ⟨-, a, -, -, ha, -⟩ := TypeTable.member?_eq_some (Option.filter_eq_some_iff.mp hf).1
        exact ht.members a found (TypeTable.mem_of_declaredMember? ha).1
    · exact hm

theorem Method.override_tame {types : TypeTable} (ht : types.Tame T.toWatch) {m : Method} (hm : m.Tame T.toWatch)
    (t : TypeId) : (types.override t m).Tame T.toWatch := by
  rcases TypeTable.override_eq types t m with he | ⟨-, hf, -⟩
  · rw [he]
    exact hm
  · obtain ⟨-, a, -, -, ha, -⟩ := TypeTable.method?_eq_some hf
    exact ht.methods a _ (TypeTable.mem_of_declaredMethod? ha).1

theorem Method.visibleFrom_tame {types : TypeTable} (ht : types.Tame T.toWatch) {m : Method} (hm : m.Tame T.toWatch)
    (v : Value) : (m.visibleFrom types v).Tame T.toWatch := by
  unfold Method.visibleFrom
  split
  · exact Method.override_tame ht hm _
  · exact hm

theorem Delegate.on_method {types : TypeTable} {m : Method} {t : TypeId} {g : Delegate}
    (hg : Delegate.on types m t = .ok g) : g.method = Delegate.resolve types m t := by
  unfold Delegate.on at hg
  generalize Delegate.resolve types m t = found at hg ⊢
  simp only at hg
  split at hg
  · cases hg
    rfl
  · cases hg

section
variable (h : T.Follows host)
include h

theorem host_types_tame : host.types.Tame T.toWatch := by
  rw [h.platform]
  exact T.types_tame

theorem Method.invoke_step {m : Method} (hm : m.Tame T.toWatch) (r : Option Value) (args : List Value) :
    Within T.Step (m.invoke host r args) := by
  unfold Method.invoke
  split
  · exact within_seq (Method.run_step h hm _ _) fun _ => within_return _
  · exact within_seq (Method.run_step h hm _ _) fun _ => within_return _
  · exact within_fail _

theorem nodeRuns_of_tame {x : Expr} (hx : x.TameNode T.toWatch) : x.NodeRuns host (fun {_} y => Within T.Step y) := by
  have ht := host_types_tame h
  cases x with
  | member node target m => exact fun v => Member.read_step h (Member.visibleFrom_tame ht hx v) v
  | typeMember node m => exact Member.read_step h (Member.visibleFrom_tame ht hx _) _
  | call target m args => exact fun v vs => Method.invoke_step h (Method.visibleFrom_tame ht hx v) _ _
  | typeCall m args => exact fun vs => Method.invoke_step h hx _ _
  | unary op operand u c =>
    cases op with
    | convert =>
      cases c with
      | some m => exact fun v => Method.invoke_step h hx _ _
      | none => trivial
    | _ => trivial
  | _ => trivial

theorem eval_step (e : Expr) (he : e.Tame T.toWatch) : Within T.Step (e.eval host) :=
  Expr.eval_closed (within_closed (step_chains T)) e fun x hx => nodeRuns_of_tame h (he x hx)

end

section
variable (h : T.Follows host)
include h

theorem Dispatch.delegate_tame {d : Dispatch} (hd : d.Tame T.toWatch) {args : List Value} {g : Delegate}
    (hg : d.delegate host args = .ok g) : g.method.Tame T.toWatch := by
  cases d with
  | fixed d =>
    cases hg
    exact hd
  | byReceiver m =>
    unfold Dispatch.delegate at hg
    simp only at hg
    split at hg
    · rw [Delegate.on_method hg]
      unfold Delegate.resolve
      split
      · exact hd
      · exact Method.override_tame (host_types_tame h) hd _
    · cases hg

end

mutual
theorem getter_step (h : T.Follows host) (g : Getter) (hg : g.Tame T.toWatch) : Within T.Step (g.run host) := by
  cases g with
  | constant v => exact within_return _
  | read r a => exact Receiver.read_step h hg r
  | coalesce l r =>
    have hl := getter_step h l hg.1
    have hr := getter_step h r hg.2
    refine within_seq hl fun v => ?_
    cases v.isNull with
    | true => exact hr
    | false => exact within_return _
  | andAlso l r =>
    have hl := getter_step h l hg.1
    have hr := getter_step h r hg.2
    refine within_seq hl fun v => within_seq (within_except _) fun b => ?_
    cases b with
    | true => exact within_seq hr fun w => within_seq (within_except _) fun _ => within_return _
    | false => exact within_return _
  | orElse l r =>
    have hl := getter_step h l hg.1
    have hr := getter_step h r hg.2
    refine within_seq hl fun v => within_seq (within_except _) fun b => ?_
    cases b with
    | true => exact within_return _
    | false => exact within_seq hr fun w => within_seq (within_except _) fun _ => within_return _
  | equal l r =>
    have hl := getter_step h l hg.1
    have hr := getter_step h r hg.2
    exact within_seq hl fun a => within_seq hr fun b => within_return _
  | concat l r =>
    have hl := getter_step h l hg.1
    have hr := getter_step h r hg.2
    exact within_seq hl fun a => within_seq hr fun b => within_return _
  | not g =>
    have hi := getter_step h g hg
    exact within_seq hi fun v => within_seq (within_except _) fun b => within_return _
  | cast g t =>
    have hi := getter_step h g hg
    exact within_seq hi fun v => within_except _
  | change g t =>
    have hi := getter_step h g hg
    exact within_seq hi fun v => within_except _
  | convert g d =>
    have hi := getter_step h g hg.1
    exact within_seq hi fun v => within_seq (Delegate.invoke_step h hg.2 _) fun r => within_return _
  | call d args =>
    have ha := getterAll_step h args hg.2
    refine within_seq ha fun vs => ?_
    intro w a w' hx
    obtain ⟨d', w₁, hget, hx⟩ := bind_eq_ok.mp hx
    obtain ⟨hd, rfl⟩ := Effect.ofExcept_eq_ok.mp hget
    have htame := Dispatch.delegate_tame h hg.1 hd
    exact within_seq (Delegate.invoke_step h htame vs) (fun r => within_return _) w a w' hx
  | evaluate e => exact eval_step h e hg
termination_by structural g
theorem getterAll_step (h : T.Follows host) (gs : List Getter) (hg : Getter.TameAll T.toWatch gs) :
    Within T.Step (Getter.runAll host gs) := by
  cases gs with
  | nil => exact within_return _
  | cons g gs =>
    have hi := getter_step h g hg.1
    have hs := getterAll_step h gs hg.2
    exact within_seq hi fun v => within_seq hs fun vs => within_return _
termination_by structural gs
end

section
variable (h : T.Follows host)
include h

theorem customSetter_step {c : CustomSetter} {target : Target} (hc : c.Tame T.toWatch target) (v : Value) :
    Within T.Step (c.run host target v) := by
  cases c with
  | report tag => exact within_tell _
  | slot name refusal =>
    cases target with
    | type t => exact within_fail _
    | value receiver =>
      intro w a w' hx
      obtain ⟨o, w₁, hget, hx⟩ := bind_eq_ok.mp hx
      obtain ⟨hd, rfl⟩ := Effect.ofExcept_eq_ok.mp hget
      have hu : T.Unread o.name name := hc o (by rw [downcast_eq_ok hd])
      refine within_seq (within_tell _) (fun _ => within_seq (refuse_step _) fun _ => ?_) w a w' hx
      exact within_seq (within_modify fun w => setSlot_calm hu w v) fun _ => raiseNamed_step h _ _

theorem setter_step {s : Setter} (hs : s.Tame T.toWatch) (v : Value) : Within T.Step (s.run host v) := by
  induction s generalizing v with
  | write r a => exact Setter.write_step h hs v
  | custom c target => exact customSetter_step h hs v
  | change t inner ih => exact within_seq (within_except _) fun w => ih hs w

end

end DataBinding.Tracking
