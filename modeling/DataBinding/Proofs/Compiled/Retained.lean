import DataBinding.Proofs.Compiled.Shape
import DataBinding.Proofs.Run.Resolve
import DataBinding.Proofs.Table

/-!
# Receivers are retained

Whatever host code runs meanwhile and however a compilation ends, it takes no receiver away and puts none in the place
of another. A node gets a receiver only from a value of its target that is not null (`Extends`). A compiled form reads
through the receivers of its accesses and no others (`getter?_reads`, `setter?_writes`).
-/

namespace DataBinding

open Effect Compile

structure Receivers.Stay (rs rs' : Receivers) : Prop where
  kept : ∀ n r, rs.find? n = some r → rs'.find? n = some r
  size : rs.size ≤ rs'.size

theorem stay_chains : Chains Receivers.Stay where
  refl _ := ⟨fun _ _ h => h, Nat.le_refl _⟩
  trans h h' := ⟨fun n r hr => h'.kept n r (h.kept n r hr), Nat.le_trans h.size h'.size⟩

theorem stay_insert {rs rs' : Receivers} {node : NodeId} (hn : rs.find? node = none) (h : Receivers.Stay rs rs')
    (r : Receiver) : Receivers.Stay rs (rs'.insert node r) where
  kept n q hq := by
    rw [Table.find?_insert, if_neg (fun he => by rw [← he, hn] at hq; cases hq)]
    exact h.kept n q hq
  size := Nat.le_trans h.size (Table.size_insert _ _ _)

namespace Receiver

theorem ofValue_returns (v : Value) (w : World) : ∃ r w', ofValue v w = .ok r w' := by
  cases v <;> exact ⟨_, _, rfl⟩

end Receiver

theorem Compile.kept_eq_error {node : NodeId} {make : Compile Receiver} {s s' : Workbench} {e : Stop} :
    kept node make s = .error e s' ↔ s.receivers.find? node = none ∧ make s = .error e s' := by
  unfold kept
  rw [bind_of_ok (show (get : Compile Workbench) s = .ok s s from rfl)]
  cases s.receivers.find? node with
  | some q =>
    constructor
    · intro h
      cases h
    · rintro ⟨h, -⟩
      cases h
  | none =>
    simp only [true_and]
    cases hm : make s with
    | ok r s₁ =>
      rw [bind_of_ok hm]
      constructor
      · intro h
        cases h
      · intro h
        cases h
    | error e' s₁ => rw [bind_of_error hm]

namespace Expr

variable {host : Host} {xs : List Expr}

/-! ## Finding one receiver -/

section
variable {node : NodeId} {target : Expr} {m : Member} {s s' : Workbench}

theorem memberReceiver_eq_ok {r : Receiver} : memberReceiver host node target m s = .ok r s' ↔
    (s.receivers.find? node = some r ∧ s' = s) ∨
      (s.receivers.find? node = none ∧ ∃ v s₁ w, targetValue host target s = .ok v s₁ ∧ v.isNull = false ∧
        Receiver.ofValue v s₁.world = .ok r w ∧ s' = ⟨w, s₁.receivers.insert node r⟩) := by
  unfold memberReceiver receiverOn
  rw [kept_eq_ok]
  refine or_congr_right (and_congr_right fun _ => ?_)
  constructor
  · rintro ⟨s₂, hm, rfl⟩
    obtain ⟨v, s₁, hv, hm⟩ := bind_eq_ok.mp hm
    cases hnull : v.isNull with
    | true =>
      simp only [hnull, if_true] at hm
      cases hm
    | false =>
      simp only [hnull, Bool.false_eq_true, if_false] at hm
      obtain ⟨w, hw, rfl⟩ := lift_eq_ok.mp hm
      exact ⟨v, s₁, w, hv, hnull, hw, rfl⟩
  · rintro ⟨v, s₁, w, hv, hnull, hw, rfl⟩
    refine ⟨⟨w, s₁.receivers⟩, ?_, rfl⟩
    rw [bind_of_ok hv]
    simp only [hnull, Bool.false_eq_true, if_false]
    exact lift_eq_ok.mpr ⟨w, hw, rfl⟩

theorem memberReceiver_eq_error {e : Stop} : memberReceiver host node target m s = .error e s' ↔
    s.receivers.find? node = none ∧ (targetValue host target s = .error e s' ∨
      ∃ v, targetValue host target s = .ok v s' ∧ v.isNull = true ∧
        e = .failed (nullTarget host.types target (member node target m))) := by
  unfold memberReceiver receiverOn
  rw [kept_eq_error]
  refine and_congr_right fun _ => ?_
  cases hv : targetValue host target s with
  | error e' s₁ =>
    rw [bind_of_error hv]
    simp
  | ok v s₁ =>
    rw [bind_of_ok hv]
    cases hnull : v.isNull with
    | true =>
      simp only [if_true]
      constructor
      · intro h
        cases h
        exact .inr ⟨v, rfl, hnull, rfl⟩
      · rintro (h | ⟨_, h, -, rfl⟩)
        · cases h
        · cases h
          rfl
    | false =>
      obtain ⟨r, w, hw⟩ := Receiver.ofValue_returns v s₁.world
      simp only [Bool.false_eq_true, if_false]
      constructor
      · intro h
        obtain ⟨w', hw', -⟩ := lift_eq_error.mp h
        cases hw.symm.trans hw'
      · rintro (h | ⟨_, h, hn, -⟩)
        · cases h
        · cases h
          cases hn.symm.trans hnull

end

/-! ## Receivers are only added -/

/-- At some point after a state of the workbench a receiver was found for an access: its target had a value, which was
not null. An access without a target has its type. -/
inductive Resolved (host : Host) (s : Workbench) : Expr → Receiver → Prop
  | value {node : NodeId} {target : Expr} {m : Member} {s₁ s₂ : Workbench} {v : Value} {r : Receiver} {w : World}
    (stay : Receivers.Stay s.receivers s₁.receivers) (absent : s₁.receivers.find? node = none)
    (hvalue : targetValue host target s₁ = .ok v s₂) (hnull : v.isNull = false)
    (hreceiver : Receiver.ofValue v s₂.world = .ok r w) : Resolved host s (member node target m) r
  | type {node : NodeId} {m : Member} : Resolved host s (typeMember node m) (.type m.id.owner)

theorem Resolved.earlier {s s' : Workbench} {x : Expr} {r : Receiver} (h : Resolved host s' x r)
    (hs : Receivers.Stay s.receivers s'.receivers) : Resolved host s x r := by
  cases h with
  | value stay absent hvalue hnull hreceiver => exact .value (stay_chains.trans hs stay) absent hvalue hnull hreceiver
  | type => exact .type

/-- Receivers stay, and new ones were found for accesses of a list. -/
structure Extends (host : Host) (xs : List Expr) (s s' : Workbench) : Prop
    extends Receivers.Stay s.receivers s'.receivers where
  new : ∀ n r, s.receivers.find? n = none → s'.receivers.find? n = some r →
    ∃ x ∈ xs, x.node? = some n ∧ Resolved host s x r

theorem extends_same {s s' : Workbench} (h : s'.receivers = s.receivers) : Extends host xs s s' where
  toStay := h ▸ stay_chains.refl _
  new n r hn hr := by
    rw [h, hn] at hr
    cases hr

theorem extends_chains (host : Host) (xs : List Expr) : Chains (Extends host xs) where
  refl _ := extends_same rfl
  trans {s s' s''} h h' := by
    refine ⟨stay_chains.trans h.toStay h'.toStay, fun n r hn hr => ?_⟩
    cases hn' : s'.receivers.find? n with
    | some r' =>
      cases (h'.kept n r' hn').symm.trans hr
      exact h.new n r hn hn'
    | none =>
      obtain ⟨x, hx, hxn, hres⟩ := h'.new n r hn' hr
      exact ⟨x, hx, hxn, hres.earlier h.toStay⟩

theorem extends_keep {node : NodeId} {x : Expr} {r : Receiver} {s s₁ : Workbench} (hx : x ∈ xs) (hn : x.node? = some node)
    (habsent : s.receivers.find? node = none) (h : Extends host xs s s₁) (hres : Resolved host s x r) (w : World) :
    Extends host xs s ⟨w, s₁.receivers.insert node r⟩ := by
  refine ⟨stay_insert habsent h.toStay r, fun n q hq hfound => ?_⟩
  rw [Table.find?_insert] at hfound
  by_cases he : node = n
  · subst he
    rw [if_pos rfl, Option.some.injEq] at hfound
    subst hfound
    exact ⟨x, hx, hn, hres⟩
  · rw [if_neg he] at hfound
    exact h.new n q hq hfound

theorem lift_extends {α : Type} (x : Effect α) : Lasts (Extends host xs) (lift x) where
  ok s a s' h := by
    obtain ⟨w, -, rfl⟩ := lift_eq_ok.mp h
    exact extends_same rfl
  error s e s' h := by
    obtain ⟨w, -, rfl⟩ := lift_eq_error.mp h
    exact ⟨trivial, extends_same rfl⟩

theorem memberReceiver_extends {node : NodeId} {target : Expr} {m : Member} (hx : member node target m ∈ xs)
    (h : Lasts (Extends host xs) (targetValue host target)) :
    Lasts (Extends host xs) (memberReceiver host node target m) where
  ok s r s' hr := by
    rcases memberReceiver_eq_ok.mp hr with ⟨-, rfl⟩ | ⟨hn, v, s₁, w, hv, hnull, hw, rfl⟩
    · exact extends_same rfl
    · exact extends_keep hx rfl hn (h.ok s v s₁ hv) (.value (stay_chains.refl _) hn hv hnull hw) w
  error s e s' hr := by
    obtain ⟨-, hv | ⟨v, hv, -⟩⟩ := memberReceiver_eq_error.mp hr
    · exact h.error s e s' hv
    · exact ⟨trivial, h.ok s v s' hv⟩

theorem typeReceiver_extends {node : NodeId} {m : Member} (hx : typeMember node m ∈ xs) :
    Lasts (Extends host xs) (typeReceiver node m) where
  ok s r s' hr := by
    rcases kept_eq_ok.mp hr with ⟨-, rfl⟩ | ⟨hn, s₁, hm, rfl⟩
    · exact extends_same rfl
    · cases hm
      exact extends_keep hx rfl hn (extends_same rfl) .type s.world
  error s e s' hr := by
    cases (kept_eq_error.mp hr).2

theorem targetValue_extends (e : Expr) (h : e.parts ⊆ xs) : Lasts (Extends host xs) (targetValue host e) := by
  have hc := extends_chains host xs
  have hself := h (mem_parts_self e)
  cases e with
  | constant v t n => exact always_pure hc _
  | member node target m =>
    have hi := targetValue_extends target fun x hx => h (by simp [parts, hx])
    exact always_bind hc (memberReceiver_extends hself hi) fun r => lift_extends _
  | typeMember node m => exact always_bind hc (typeReceiver_extends hself) fun r => lift_extends _
  | _ => exact lift_extends _
termination_by structural e

theorem node_extends (x : Expr) (h : x.parts ⊆ xs) : x.NodeIn host (fun {_} y => Lasts (Extends host xs) y) := by
  have hself := h (mem_parts_self x)
  cases x with
  | member node target m =>
    apply memberReceiver_extends hself
    exact targetValue_extends target fun y hy => h (by simp [parts, hy])
  | typeMember node m => exact typeReceiver_extends hself
  | _ => trivial

theorem extends_closed (host : Host) (xs : List Expr) : Compile.Closed host (fun {_} x => Lasts (Extends host xs) x) where
  pure := always_pure (extends_chains host xs)
  bind := always_bind (extends_chains host xs)
  look := ⟨fun s _ s' h => by cases h; exact extends_same rfl, fun _ _ _ h => by cases h⟩
  except _ := lift_extends _
  accessor _ _ _ := lift_extends _

theorem getter?_extends (e : Expr) : Lasts (Extends host e.parts) (e.getter? host) :=
  getter?_closed (extends_closed host _) e fun x hx => node_extends x (parts_subset e hx)

theorem setter?_extends (custom : Option (Table DeclId CustomSetter)) (e : Expr) :
    Lasts (Extends host e.parts) (e.setter? host custom) :=
  setter?_closed (extends_closed host _) custom e fun x hx => node_extends x (parts_subset e hx)

theorem getters?_extends (es : List Expr) : Lasts (Extends host (partsAll es)) (getters? host es) :=
  getters?_closed (extends_closed host _) es fun x hx => node_extends x (partsAll_subset es hx)

theorem triggers_extends (config : Configuration) (e : Expr) : Lasts (Extends host e.parts) (e.triggers host config) :=
  triggers_closed (extends_closed host _) e fun x hx => node_extends x (parts_subset e hx)

theorem findTarget?_extends (e : Expr) : Lasts (Extends host e.parts) (e.findTarget? host) := by
  have hC := extends_closed host e.parts
  have hnode : e.NodeIn host (fun {_} y => Lasts (Extends host e.parts) y) := node_extends e (List.Subset.refl _)
  cases e with
  | member node target m => exact hC.bind hnode fun r => hC.bind hC.look fun s => hC.pure _
  | typeMember node m => exact hC.bind hnode fun r => hC.bind hC.look fun s => hC.pure _
  | _ => exact hC.pure _

theorem memberReceiver_absent {node : NodeId} {target : Expr} {m : Member} {s s' : Workbench} {e : Stop}
    (hn : ∀ x ∈ target.parts, x.node? ≠ some node) (h : memberReceiver host node target m s = .error e s') :
    s'.receivers.find? node = none := by
  obtain ⟨habsent, hv⟩ := memberReceiver_eq_error.mp h
  have hx : Extends host target.parts s s' := by
    have hl : Lasts (Extends host target.parts) (targetValue host target) := targetValue_extends target (List.Subset.refl _)
    rcases hv with hv | ⟨v, hv, -⟩
    · exact (hl.error _ _ _ hv).2
    · exact hl.ok _ _ _ hv
  cases hfound : s'.receivers.find? node with
  | none => rfl
  | some r =>
    -- Whatever is new belongs to an access inside the target, and these have other nodes.
    obtain ⟨x, hxt, hxn, -⟩ := hx.new node r habsent hfound
    exact absurd hxn (hn x hxt)

end Expr

/-! ## Compiled forms use the receivers that were found -/

namespace Getter

mutual
/-- The receivers that a getter reads from, in the order in which it reads. -/
def reads (g : Getter) : List Receiver :=
  match g with
  | constant _ => []
  | read r _ => [r]
  | coalesce l r => reads l ++ reads r
  | andAlso l r => reads l ++ reads r
  | orElse l r => reads l ++ reads r
  | equal l r => reads l ++ reads r
  | concat l r => reads l ++ reads r
  | not g => reads g
  | cast g _ => reads g
  | change g _ => reads g
  | convert g _ => reads g
  | call _ args => readsAll args
  | evaluate _ => []
termination_by structural g
def readsAll (gs : List Getter) : List Receiver :=
  match gs with
  | [] => []
  | g :: gs => reads g ++ readsAll gs
termination_by structural gs
end

end Getter

/-- The assignment goes through this receiver. A custom setter is given what the receiver holds in a world. -/
def Setter.WritesTo (w : World) (r : Receiver) : Setter → Prop
  | .write r' _ => r' = r
  | .custom _ target => target = r.target w
  | .change _ inner => inner.WritesTo w r

namespace Expr

mutual
/-- The accesses that the compiled form of an expression reads, in that order. What such an access is read from has been
looked at when its receiver was found, and so has no part in the compiled form. -/
def compiledAccesses (e : Expr) : List Expr :=
  match e with
  | constant .. => []
  | member node target m => [member node target m]
  | typeMember node m => [typeMember node m]
  | binary _ left right _ => compiledAccesses left ++ compiledAccesses right
  | unary _ operand _ _ => compiledAccesses operand
  | call target m args =>
    if m.isStatic then compiledAccessesAll args else compiledAccesses target ++ compiledAccessesAll args
  | typeCall _ args => compiledAccessesAll args
  | conditional .. => []
termination_by structural e
def compiledAccessesAll (es : List Expr) : List Expr :=
  match es with
  | [] => []
  | e :: es => compiledAccesses e ++ compiledAccessesAll es
termination_by structural es
end

def receiver? (rs : Receivers) (x : Expr) : Option Receiver := x.node?.bind rs.find?

theorem receiver?_stay {rs rs' : Receivers} (h : Receivers.Stay rs rs') {x : Expr} {r : Receiver}
    (hx : x.receiver? rs = some r) : x.receiver? rs' = some r := by
  obtain ⟨n, hn, hr⟩ := Option.bind_eq_some_iff.mp hx
  exact Option.bind_eq_some_iff.mpr ⟨n, hn, h.kept n r hr⟩

def Have (rs : Receivers) (xs : List Expr) (qs : List Receiver) : Prop := xs.map (receiver? rs) = qs.map some

section
variable {rs rs' : Receivers} {xs ys : List Expr} {qs qs' : List Receiver}

theorem Have.stay (h : Have rs xs qs) (hs : Receivers.Stay rs rs') : Have rs' xs qs := by
  unfold Have at h ⊢
  induction xs generalizing qs with
  | nil => exact h
  | cons x xs ih =>
    cases qs with
    | nil => cases h
    | cons q qs =>
      simp only [List.map_cons, List.cons.injEq] at h ⊢
      exact ⟨receiver?_stay hs h.1, ih h.2⟩

theorem Have.append (h : Have rs xs qs) (h' : Have rs ys qs') : Have rs (xs ++ ys) (qs ++ qs') := by
  unfold Have at *
  rw [List.map_append, List.map_append, h, h']

end

variable {host : Host}

theorem binaryGetter_reads {op : BinaryOp} {t : TypeId} {combine : Getter → Getter → Getter}
    (h : binaryGetter op t = some combine) (l r : Getter) : (combine l r).reads = l.reads ++ r.reads := by
  cases op with
  | add =>
    unfold binaryGetter at h
    simp only at h
    split at h
    · cases h
      rfl
    · cases h
  | coalesce | andAlso | orElse | equal =>
    cases h
    rfl
  | _ => cases h

theorem conversionGetter_reads {t : TypeId} {c : Option Method} {g g' : Getter}
    (h : conversionGetter host t c g = .ok (some g')) : g'.reads = g.reads := by
  obtain ⟨-, rfl⟩ | ⟨-, ⟨-, rfl⟩ | ⟨m, d, -, -, -, rfl⟩⟩ := conversionGetter_eq_some h
  · rfl
  · rfl
  · rfl

mutual
theorem getter?_reads (e : Expr) {s s' : Workbench} {g : Getter} (h : e.getter? host s = .ok (some g) s') :
    Have s'.receivers e.compiledAccesses g.reads := by
  cases e with
  | constant v u n =>
    cases h
    rfl
  | member node target m =>
    obtain ⟨r, t, hr, -, rfl⟩ := memberGetter_eq_some h
    exact congrArg (fun q => [q]) (kept_find? hr)
  | typeMember node m =>
    obtain ⟨r, t, hr, -, rfl⟩ := memberGetter_eq_some h
    exact congrArg (fun q => [q]) (kept_find? hr)
  | binary op left right u =>
    obtain ⟨combine, l, r, s₁, hb, hl, hr, rfl⟩ := getter?_binary_eq_some h
    rw [binaryGetter_reads hb]
    have hstay := ((getter?_extends right).ok _ _ _ hr).toStay
    exact ((getter?_reads left hl).stay hstay).append (getter?_reads right hr)
  | unary op operand u c =>
    cases op with
    | not =>
      obtain ⟨g', hg, rfl⟩ := getter?_not_eq_some h
      show Have _ operand.compiledAccesses g'.reads
      exact getter?_reads operand hg
    | negate => cases h
    | convert =>
      obtain ⟨g', hg, hcv⟩ := getter?_convert_eq_some h
      rw [conversionGetter_reads hcv]
      exact getter?_reads operand hg
  | call target m args =>
    unfold compiledAccesses
    cases hi : m.isStatic with
    | true =>
      obtain ⟨gs, d, ha, -, -, rfl⟩ := getter?_staticCall_eq_some hi h
      exact getters?_reads args ha
    | false =>
      obtain ⟨r, gs, d, s₁, hr, ha, -, -, rfl⟩ := getter?_call_eq_some hi h
      have hstay := ((getters?_extends args).ok _ _ _ ha).toStay
      exact ((getter?_reads target hr).stay hstay).append (getters?_reads args ha)
  | typeCall m args =>
    obtain ⟨gs, d, ha, -, -, -, rfl⟩ := getter?_typeCall_eq_some h
    exact getters?_reads args ha
  | conditional test yes no u => cases h
termination_by structural e
theorem getters?_reads (es : List Expr) {s s' : Workbench} {gs : List Getter} (h : getters? host es s = .ok (some gs) s') :
    Have s'.receivers (compiledAccessesAll es) (Getter.readsAll gs) := by
  cases es with
  | nil =>
    cases h
    rfl
  | cons e es =>
    obtain ⟨g, gs', s₁, hg, ha, rfl⟩ := getters?_cons_eq_some h
    have hstay := ((getters?_extends es).ok _ _ _ ha).toStay
    exact ((getter?_reads e hg).stay hstay).append (getters?_reads es ha)
termination_by structural es
end

/-- The access that an assignment to an expression goes to. -/
def assigned? : Expr → Option Expr
  | member node target m => some (member node target m)
  | typeMember node m => some (typeMember node m)
  | unary .convert operand _ _ => operand.assigned?
  | _ => none

theorem memberSetter_writes {custom : Option (Table DeclId CustomSetter)} {m : Member} {whole : Expr}
    {receiver : Compile Receiver} {s s' : Workbench} {g : Setter}
    (h : memberSetter host custom m whole receiver s = .ok (some g) s') :
    ∃ r s₁, receiver s = .ok r s₁ ∧ s₁.receivers = s'.receivers ∧ g.WritesTo s'.world r := by
  cases hc : custom.bind (·.find? m.id) with
  | some c =>
    unfold memberSetter at h
    simp only [hc] at h
    obtain ⟨r, s₁, hr, h⟩ := bind_eq_ok.mp h
    obtain ⟨s₂, s₃, hg, h⟩ := bind_eq_ok.mp h
    cases hg
    cases h
    exact ⟨r, s', hr, rfl, rfl⟩
  | none =>
    obtain ⟨r, t, hr, -, -, rfl⟩ := memberSetter_eq_some hc h
    exact ⟨r, s', hr, rfl, rfl⟩

theorem setter?_writes {custom : Option (Table DeclId CustomSetter)} (e : Expr) {s s' : Workbench} {g : Setter}
    (h : e.setter? host custom s = .ok (some g) s') :
    ∃ x r, e.assigned? = some x ∧ x.receiver? s'.receivers = some r ∧ g.WritesTo s'.world r := by
  cases e with
  | member node target m =>
    obtain ⟨r, s₁, hr, hs, hg⟩ := memberSetter_writes h
    exact ⟨_, r, rfl, hs ▸ kept_find? hr, hg⟩
  | typeMember node m =>
    obtain ⟨r, s₁, hr, hs, hg⟩ := memberSetter_writes h
    exact ⟨_, r, rfl, hs ▸ kept_find? hr, hg⟩
  | unary op operand u c =>
    cases op with
    | convert =>
      obtain ⟨t, k, -, hk, rfl⟩ := setter?_convert_eq_some h
      obtain ⟨x, r, hx, hr, hw⟩ := setter?_writes operand hk
      exact ⟨x, r, hx, hr, hw⟩
    | _ => cases h
  | _ => cases h

theorem findTarget?_receiver {e : Expr} {s s' : Workbench} {t : Target} (h : e.findTarget? host s = .ok (some t) s') :
    ∃ r, e.receiver? s'.receivers = some r ∧ t = r.target s'.world := by
  cases e with
  | member node target m =>
    obtain ⟨r, s₁, hr, h⟩ := bind_eq_ok.mp h
    obtain ⟨s₂, s₃, hg, h⟩ := bind_eq_ok.mp h
    cases hg
    cases h
    exact ⟨r, kept_find? hr, rfl⟩
  | typeMember node m =>
    obtain ⟨r, s₁, hr, h⟩ := bind_eq_ok.mp h
    obtain ⟨s₂, s₃, hg, h⟩ := bind_eq_ok.mp h
    cases hg
    cases h
    exact ⟨r, kept_find? hr, rfl⟩
  | _ => cases h

end Expr

end DataBinding
