import DataBinding.Proofs.Host.Invoke

/-!
# Quiet hosts

A host is quiet if its members and methods have no side effects. Bodies that tell nothing, act on nothing and set
nothing are quiet; so is a host whose types have no others (`Host.quiet_of_plain`).
-/

namespace DataBinding

open Effect

/-- Members and methods of the host may fail but have no side effects, and a method without a result type gives
null. -/
structure Host.Quiet (host : Host) : Prop where
  reads : ∀ t, ∀ m ∈ host.types.declaredMembers t, ∀ v, (m.read host v).Quiet
  calls : ∀ t, ∀ m ∈ host.types.declaredMethods t, ∀ v args, (m.run host v args).Quiet
  void : ∀ t, ∀ m ∈ host.types.declaredMethods t, m.returns = none →
    ∀ v args w out w', m.run host v args w = .ok out w' → out.1 = .null

/-- The body only computes its result or fails. -/
def Body.isPlain (b : Body) : Bool := !b.traced && b.acts.isEmpty && b.sets.isEmpty

/-- Nothing, or null, is what a body gives that ends without a result. -/
def Operand.isNull : Operand → Bool
  | constant .null => true
  | _ => false

def MemberSpec.isPlain (m : MemberSpec) : Bool :=
  match m.reader with
  | some (.computed b) => b.isPlain
  | _ => true

def MethodSpec.isPlain (m : MethodSpec) : Bool := m.body.isPlain && (m.returns.isSome || m.body.result.isNull)

theorem MethodSpec.body_isPlain {m : MethodSpec} (h : m.isPlain = true) : m.body.isPlain = true := by
  unfold isPlain at h
  exact (Bool.and_eq_true_iff.mp h).1

def TypeInfo.isPlain (i : TypeInfo) : Bool := i.members.all MemberSpec.isPlain && i.methods.all MethodSpec.isPlain

namespace TypeTable

theorem info_isPlain {types : TypeTable} (h : types.declared.all TypeInfo.isPlain = true) (t : TypeId) :
    (types.info t).isPlain = true := by
  unfold info
  split
  · rename_i i hi
    have hb : builtin.all TypeInfo.isPlain = true := by decide
    exact List.all_eq_true.mp hb i (List.mem_of_getElem? hi)
  · cases hd : types.declared.reverse[t.index - builtin.length]? with
    | none => rfl
    | some i => exact List.all_eq_true.mp h i (List.mem_reverse.mp (List.mem_of_getElem? hd))

theorem member_isPlain {types : TypeTable} (h : types.declared.all TypeInfo.isPlain = true) {t : TypeId} {m : Member}
    (hm : m ∈ types.declaredMembers t) : m.isPlain = true := by
  have hi := info_isPlain h t
  simp only [TypeInfo.isPlain, Bool.and_eq_true] at hi
  obtain ⟨⟨spec, i⟩, hspec, rfl⟩ := List.mem_map.mp hm
  exact List.all_eq_true.mp hi.1 spec (List.fst_mem_of_mem_zipIdx hspec)

theorem method_isPlain {types : TypeTable} (h : types.declared.all TypeInfo.isPlain = true) {t : TypeId} {m : Method}
    (hm : m ∈ types.declaredMethods t) : m.isPlain = true := by
  have hi := info_isPlain h t
  simp only [TypeInfo.isPlain, Bool.and_eq_true] at hi
  obtain ⟨⟨spec, i⟩, hspec, rfl⟩ := List.mem_map.mp hm
  exact List.all_eq_true.mp hi.2 spec (List.fst_mem_of_mem_zipIdx hspec)

end TypeTable

section
variable {host : Host} {w : World}

theorem Body.run_plain {b : Body} (h : b.isPlain = true) (label : String) (inPlace : Bool) (r : Value)
    (args : List Value) :
    b.run host label inPlace r args w =
      match b.failure with
      | some message => .error (.failed (.host message)) w
      | none => .ok (b.result.value host.types w r args, r) w := by
  simp only [isPlain, Bool.and_eq_true, Bool.not_eq_true', List.isEmpty_iff] at h
  obtain ⟨⟨ht, ha⟩, hs⟩ := h
  unfold run
  rw [ht, ha, hs]
  cases b.failure <;> rfl

theorem Body.run_quiet {b : Body} (h : b.isPlain = true) (label : String) (inPlace : Bool) (r : Value)
    (args : List Value) : (b.run host label inPlace r args).Quiet := by
  intro w
  unfold QuietAt Agree
  rw [Body.run_plain h]
  cases b.failure with
  | some message => exact .inr ⟨_, _, rfl, rfl⟩
  | none => exact .inl ⟨_, rfl, rfl⟩

theorem Member.read_quiet {m : Member} (h : m.isPlain = true) (v : Value) : (m.read host v).Quiet := by
  intro w
  unfold Member.read
  unfold MemberSpec.isPlain at h
  split
  · exact agree_fail _ _
  · exact QuietAt.bind (agree_ofExcept _) fun r _ => quietAt_get (agree_pure _)
  · split
    · exact agree_pure _
    · exact agree_fail _ _
  · rename_i b hb
    rw [hb] at h
    exact QuietAt.bind (Body.run_quiet h _ _ _ _ w) fun _ _ => agree_pure _
  · exact quietAt_get (agree_pure _)
  · exact agree_pure _
  · split
    · exact agree_pure _
    · exact agree_pure _

theorem Method.run_quiet {m : Method} (h : m.body.isPlain = true) (v : Value) (args : List Value) :
    (m.run host v args).Quiet := by
  intro w
  unfold Method.run
  split
  · exact QuietAt.bind (Body.run_quiet h _ _ _ _ w) fun _ _ => agree_pure _
  · exact QuietAt.bind (agree_ofExcept _) fun _ _ => Body.run_quiet h _ _ _ _ w
  · exact Body.run_quiet h _ _ _ _ w

theorem Body.run_null {b : Body} (h : b.isPlain = true) (hn : b.result.isNull = true) {label : String}
    {inPlace : Bool} {r : Value} {args : List Value} {out : Value × Value} {w' : World}
    (ho : b.run host label inPlace r args w = .ok out w') : out.1 = .null := by
  rw [Body.run_plain h] at ho
  split at ho
  · cases ho
  · cases ho
    unfold Operand.isNull at hn
    split at hn
    · rename_i hr
      rw [hr]
      rfl
    · cases hn

theorem Method.run_void {m : Method} (h : m.isPlain = true) (hr : m.returns = none) {v : Value} {args : List Value}
    {out : Value × Value} {w' : World} (ho : m.run host v args w = .ok out w') : out.1 = .null := by
  simp only [MethodSpec.isPlain, Bool.and_eq_true, Bool.or_eq_true, hr, Option.isSome_none, Bool.false_eq_true,
    false_or] at h
  cases hc : m.convention with
  | static =>
    have hs : m.isStatic = true := by simp [Method.isStatic, hc]
    exact Method.run_static_void hs hr ho
  | object =>
    unfold Method.run at ho
    rw [hc] at ho
    obtain ⟨o, w₁, -, ho⟩ := bind_eq_ok.mp ho
    exact Body.run_null h.1 h.2 ho
  | record =>
    unfold Method.run at ho
    rw [hc] at ho
    exact Body.run_null h.1 h.2 ho

theorem Host.quiet_of_plain (h : host.types.declared.all TypeInfo.isPlain = true) : host.Quiet := by
  refine ⟨fun t m hm v => ?_, fun t m hm v args => ?_, fun t m hm hr v args w out w' ho => ?_⟩
  · exact Member.read_quiet (TypeTable.member_isPlain h hm) v
  · exact Method.run_quiet (MethodSpec.body_isPlain (TypeTable.method_isPlain h hm)) v args
  · exact Method.run_void (TypeTable.method_isPlain h hm) hr ho

end

end DataBinding
