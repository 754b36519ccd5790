import DataBinding.Proofs.Compiled.Retained

/-!
# What is collected

Collecting visits the member accesses of an expression in the order in which they are written, and nothing else comes
of the rest of it (`triggers_eq`). Each access that has a source of change gives one trigger on its receiver
(`collected_iff`). An access whose receiver cannot be found ends the collection, also if nothing would observe it
(`collecting_fails_iff`).
-/

namespace DataBinding

open Effect Compile

def Target.type? : Target → Option TypeId
  | value v => v.type?
  | type _ => none

namespace Expr

/-- The member accesses of an expression as they are written, each before what it is read from. -/
def accesses (e : Expr) : List Expr := e.parts.filter (·.node?.isSome)

section
variable (host : Host) (config : Configuration)

def ownTriggers : Expr → Compile (List Trigger)
  | member node target m =>
    if m.isStatic then pure (staticTrigger host config m)
    else instanceTrigger host config m (memberReceiver host node target m)
  | typeMember node m =>
    if m.isStatic then pure (staticTrigger host config m)
    else instanceTrigger host config m (typeReceiver node m)
  | _ => pure []

def collected : List Expr → Compile (List Trigger)
  | [] => pure []
  | x :: xs => do
    let own ← x.ownTriggers host config
    let rest ← collected xs
    return own ++ rest

end

variable {host : Host} {config : Configuration}

theorem collected_append (xs ys : List Expr) : collected host config (xs ++ ys) = (do
    let a ← collected host config xs
    let b ← collected host config ys
    return a ++ b) := by
  induction xs with
  | nil => simp [collected]
  | cons x xs ih => simp only [List.cons_append, collected, ih, bind_assoc, pure_bind, List.append_assoc]

theorem collected_singleton (x : Expr) : collected host config [x] = x.ownTriggers host config := by
  simp [collected]

mutual
theorem triggers_parts (e : Expr) : e.triggers host config = collected host config e.parts := by
  cases e with
  | constant v t n => rw [parts, collected_singleton]; rfl
  | typeMember node m => rw [parts, collected_singleton]; rfl
  | member node target m =>
    rw [parts, collected, triggers, triggers_parts target]
    cases hi : m.isStatic <;> simp [ownTriggers, hi]
  | binary op left right t =>
    rw [parts, collected, collected_append, triggers, triggers_parts left, triggers_parts right]
    simp [ownTriggers]
  | unary op operand t c =>
    rw [parts, collected, triggers, triggers_parts operand]
    simp [ownTriggers]
  | call target m args =>
    rw [parts, collected, collected_append, triggers, triggers_parts target, triggersAll_parts args]
    simp [ownTriggers]
  | typeCall m args =>
    rw [parts, collected, triggers, triggersAll_parts args]
    simp [ownTriggers]
  | conditional test yes no t =>
    rw [parts, collected, collected_append, collected_append, triggers, triggers_parts test, triggers_parts yes,
      triggers_parts no]
    simp [ownTriggers]
termination_by structural e
theorem triggersAll_parts (es : List Expr) : triggersAll host config es = collected host config (partsAll es) := by
  cases es with
  | nil => rfl
  | cons e es => rw [partsAll, collected_append, triggersAll, triggers_parts e, triggersAll_parts es]
termination_by structural es
end

theorem collected_accesses (xs : List Expr) :
    collected host config (xs.filter (·.node?.isSome)) = collected host config xs := by
  induction xs with
  | nil => rfl
  | cons x xs ih =>
    cases hx : x.node? with
    | some n => rw [List.filter_cons_of_pos (by rw [hx]; rfl), collected, collected, ih]
    | none =>
      rw [List.filter_cons_of_neg (by rw [hx]; exact Bool.false_ne_true), collected, ih]
      cases x with
      | member node target m => cases hx
      | typeMember node m => cases hx
      | _ => simp [ownTriggers]

theorem triggers_eq (e : Expr) : e.triggers host config = collected host config e.accesses :=
  (triggers_parts e).trans (collected_accesses e.parts).symm

/-! ## Success -/

/-- What an access is observed on: for a static member its type, and else its receiver as it is in a world. -/
def subject? (rs : Receivers) (w : World) (x : Expr) (m : Member) : Option Target :=
  if m.isStatic then some (.type m.id.owner) else (x.receiver? rs).map (·.target w)

/-- The trigger of an access, if its member has a source of change. -/
def trigger? (types : TypeTable) (config : Configuration) (rs : Receivers) (w : World) (x : Expr) : Option Trigger := do
  let m ← x.member?
  let subject ← x.subject? rs w m
  let source ← config.memberSource? types m subject.type?
  return ⟨subject, source, types.qualifiedMember m, none⟩

theorem trigger?_unsubscribed {types : TypeTable} {rs : Receivers} {w : World} {x : Expr} {t : Trigger}
    (h : x.trigger? types config rs w = some t) : t.handler = none := by
  obtain ⟨m, -, h⟩ := Option.bind_eq_some_iff.mp h
  obtain ⟨subject, -, h⟩ := Option.bind_eq_some_iff.mp h
  obtain ⟨source, -, h⟩ := Option.bind_eq_some_iff.mp h
  cases h
  rfl

/-- The access has what it is observed on. -/
def Settled (rs : Receivers) (x : Expr) : Prop := ∀ m ∈ x.member?, m.isStatic = false → (x.receiver? rs).isSome

theorem Settled.stay {rs rs' : Receivers} {x : Expr} (h : x.Settled rs) (hs : Receivers.Stay rs rs') : x.Settled rs' := by
  intro m hm hi
  obtain ⟨r, hr⟩ := Option.isSome_iff_exists.mp (h m hm hi)
  exact Option.isSome_iff_exists.mpr ⟨r, receiver?_stay hs hr⟩

theorem trigger?_stay {types : TypeTable} {rs rs' : Receivers} {w : World} {x : Expr} (h : x.Settled rs)
    (hs : Receivers.Stay rs rs') : x.trigger? types config rs' w = x.trigger? types config rs w := by
  unfold trigger?
  cases hm : x.member? with
  | none => rfl
  | some m =>
    cases hi : m.isStatic with
    | true => simp [subject?, hi]
    | false =>
      obtain ⟨r, hr⟩ := Option.isSome_iff_exists.mp (h m hm hi)
      simp [subject?, hi, hr, receiver?_stay hs hr]

theorem instanceTrigger_eq_ok {m : Member} {receiver : Compile Receiver} {s s' : Workbench} {ts : List Trigger}
    (h : instanceTrigger host config m receiver s = .ok ts s') : ∃ r, receiver s = .ok r s' ∧
      ts = ((config.memberSource? host.types m (r.target s'.world).type?).map fun source =>
        ⟨r.target s'.world, source, host.types.qualifiedMember m, none⟩).toList := by
  obtain ⟨r, s₁, hr, h⟩ := bind_eq_ok.mp h
  obtain ⟨s₂, s₃, hg, h⟩ := bind_eq_ok.mp h
  cases hg
  obtain ⟨rfl, rfl⟩ := pure_eq_ok.mp h
  refine ⟨r, hr, ?_⟩
  cases r with
  | type t =>
    simp only [Receiver.target, Target.type?]
    cases config.memberSource? host.types m none <;> rfl
  | shared v =>
    simp only [Receiver.target, Target.type?]
    cases config.memberSource? host.types m v.type? <;> rfl
  | boxed b =>
    simp only [Receiver.target, Target.type?]
    cases config.memberSource? host.types m (s₁.world.box b).type? <;> rfl

theorem staticTrigger_eq {x : Expr} {m : Member} (hm : x.member? = some m) (hi : m.isStatic = true) (rs : Receivers)
    (w : World) : staticTrigger host config m = (x.trigger? host.types config rs w).toList := by
  simp only [trigger?, hm, Option.bind_eq_bind, Option.bind_some, subject?, hi, if_true, Target.type?, staticTrigger]
  cases config.memberSource? host.types m none <;> rfl

theorem ownTriggers_eq_ok {x : Expr} {s s' : Workbench} {ts : List Trigger}
    (h : x.ownTriggers host config s = .ok ts s') :
    ts = (x.trigger? host.types config s'.receivers s'.world).toList ∧ x.Settled s'.receivers := by
  have hfound {m : Member} {r : Receiver} (hm : x.member? = some m) (hi : m.isStatic = false)
      (hr : x.receiver? s'.receivers = some r)
      (hts : ts = ((config.memberSource? host.types m (r.target s'.world).type?).map fun source =>
        ⟨r.target s'.world, source, host.types.qualifiedMember m, none⟩).toList) :
      ts = (x.trigger? host.types config s'.receivers s'.world).toList ∧ x.Settled s'.receivers := by
    refine ⟨?_, fun _ _ _ => Option.isSome_iff_exists.mpr ⟨r, hr⟩⟩
    rw [hts]
    simp only [trigger?, hm, Option.bind_eq_bind, Option.bind_some, subject?, hi, Bool.false_eq_true, if_false, hr,
      Option.map_some]
    cases config.memberSource? host.types m (r.target s'.world).type? <;> rfl
  have hstatic {m : Member} (hm : x.member? = some m) (hi : m.isStatic = true) : x.Settled s'.receivers := by
    intro m' hm' hi'
    cases hm.symm.trans hm'
    cases hi.symm.trans hi'
  have haccess {m : Member} {receiver : Compile Receiver} (hm : x.member? = some m)
      (hfinds : ∀ {r : Receiver}, receiver s = .ok r s' → x.receiver? s'.receivers = some r)
      (h : (if m.isStatic then pure (staticTrigger host config m) else instanceTrigger host config m receiver) s =
        .ok ts s') :
      ts = (x.trigger? host.types config s'.receivers s'.world).toList ∧ x.Settled s'.receivers := by
    cases hi : m.isStatic with
    | true =>
      rw [hi] at h
      obtain ⟨rfl, rfl⟩ := pure_eq_ok.mp h
      exact ⟨staticTrigger_eq hm hi _ _, hstatic hm hi⟩
    | false =>
      rw [hi] at h
      obtain ⟨r, hr, hts⟩ := instanceTrigger_eq_ok h
      exact hfound hm hi (hfinds hr) hts
  cases x with
  | member node target m => exact haccess rfl kept_find? h
  | typeMember node m => exact haccess rfl kept_find? h
  | _ =>
    simp only [ownTriggers] at h
    obtain ⟨rfl, rfl⟩ := pure_eq_ok.mp h
    exact ⟨rfl, fun m hm => by cases hm⟩

/-- Parts have been visited one after the other, each seen in the world in which it had been visited. -/
inductive Visits (host : Host) (config : Configuration) : Workbench → List (Expr × World) → Workbench → Prop
  | done (s : Workbench) : Visits host config s [] s
  | visit {x : Expr} {own : List Trigger} {seen : List (Expr × World)} {s s₁ s' : Workbench}
    (h : x.ownTriggers host config s = .ok own s₁) (rest : Visits host config s₁ seen s') :
    Visits host config s ((x, s₁.world) :: seen) s'

theorem ownTriggers_extends (x : Expr) : Lasts (Extends host x.parts) (x.ownTriggers host config) := by
  have hC := extends_closed host x.parts
  have hnode : x.NodeIn host (fun {_} y => Lasts (Extends host x.parts) y) := node_extends x (List.Subset.refl _)
  cases x with
  | member node target m =>
    simp only [ownTriggers]
    split
    · exact hC.pure _
    · exact instanceTrigger_closed hC hnode
  | typeMember node m =>
    simp only [ownTriggers]
    split
    · exact hC.pure _
    · exact instanceTrigger_closed hC hnode
  | _ => exact hC.pure _

theorem Visits.stay {seen : List (Expr × World)} {s s' : Workbench} (h : Visits host config s seen s') :
    Receivers.Stay s.receivers s'.receivers := by
  induction h with
  | done => exact stay_chains.refl _
  | visit hx _ ih => exact stay_chains.trans ((ownTriggers_extends _).ok _ _ _ hx).toStay ih

def triggersOf (types : TypeTable) (config : Configuration) (rs : Receivers) (seen : List (Expr × World)) : List Trigger :=
  seen.filterMap fun v => v.1.trigger? types config rs v.2

theorem triggersOf_cons (types : TypeTable) (rs : Receivers) (x : Expr) (w : World) (seen : List (Expr × World)) :
    triggersOf types config rs ((x, w) :: seen) =
      (x.trigger? types config rs w).toList ++ triggersOf types config rs seen := by
  unfold triggersOf
  rw [List.filterMap_cons]
  cases x.trigger? types config rs w <;> rfl

theorem collected_cons_eq_ok {x : Expr} {xs : List Expr} {ts : List Trigger} {s s' : Workbench} :
    collected host config (x :: xs) s = .ok ts s' ↔ ∃ own s₁ rest, x.ownTriggers host config s = .ok own s₁ ∧
      collected host config xs s₁ = .ok rest s' ∧ ts = own ++ rest := by
  constructor
  · intro h
    obtain ⟨own, s₁, hown, h⟩ := bind_eq_ok.mp h
    obtain ⟨rest, s₂, hrest, h⟩ := bind_eq_ok.mp h
    obtain ⟨rfl, rfl⟩ := pure_eq_ok.mp h
    exact ⟨own, s₁, rest, hown, hrest, rfl⟩
  · rintro ⟨own, s₁, rest, hown, hrest, rfl⟩
    exact (bind_of_ok hown).trans (bind_of_ok hrest)

/-- What is collected from a list of parts is the triggers of those that have one, on the receivers that the parts have in
the end. -/
theorem collected_iff {xs : List Expr} {ts : List Trigger} {s s' : Workbench} :
    collected host config xs s = .ok ts s' ↔ ∃ seen, Visits host config s seen s' ∧ seen.map Prod.fst = xs ∧
      ts = triggersOf host.types config s'.receivers seen := by
  induction xs generalizing ts s with
  | nil =>
    constructor
    · intro h
      cases h
      exact ⟨[], .done _, rfl, rfl⟩
    · rintro ⟨seen, hv, hseen, rfl⟩
      cases List.map_eq_nil_iff.mp hseen
      cases hv
      rfl
  | cons x xs ih =>
    -- A visited part has settled: on all later receivers its trigger is the same.
    have hhead {own : List Trigger} {s₁ : Workbench} (hx : x.ownTriggers host config s = .ok own s₁)
        (hs : Receivers.Stay s₁.receivers s'.receivers) (seen : List (Expr × World)) :
        triggersOf host.types config s'.receivers ((x, s₁.world) :: seen) =
          own ++ triggersOf host.types config s'.receivers seen := by
      obtain ⟨hown, hsettled⟩ := ownTriggers_eq_ok hx
      rw [triggersOf_cons, hown, trigger?_stay hsettled hs]
    constructor
    · intro h
      obtain ⟨own, s₁, rest, hx, hrest, rfl⟩ := collected_cons_eq_ok.mp h
      obtain ⟨seen, hv, rfl, rfl⟩ := ih.mp hrest
      exact ⟨(x, s₁.world) :: seen, .visit hx hv, rfl, (hhead hx hv.stay seen).symm⟩
    · rintro ⟨seen, hv, hseen, rfl⟩
      cases hv with
      | done => cases hseen
      | @visit y own seen s s₁ s' hx hv =>
        simp only [List.map_cons, List.cons.injEq] at hseen
        obtain ⟨rfl, rfl⟩ := hseen
        rw [hhead hx hv.stay seen]
        exact collected_cons_eq_ok.mpr ⟨own, _, _, hx, ih.mpr ⟨seen, hv, rfl, rfl⟩, rfl⟩

theorem triggers_unsubscribed {e : Expr} {ts : List Trigger} {s s' : Workbench} (h : e.triggers host config s = .ok ts s') :
    ∀ t ∈ ts, t.handler = none := by
  rw [triggers_eq] at h
  obtain ⟨seen, -, -, rfl⟩ := collected_iff.mp h
  intro t ht
  obtain ⟨v, -, hv⟩ := List.mem_filterMap.mp ht
  exact trigger?_unsubscribed hv

theorem Visits.settled {seen : List (Expr × World)} {s s' : Workbench} (h : Visits host config s seen s') :
    ∀ v ∈ seen, v.1.Settled s'.receivers := by
  induction h with
  | done => exact List.forall_mem_nil _
  | visit hx hrest ih => exact List.forall_mem_cons.mpr ⟨(ownTriggers_eq_ok hx).2.stay hrest.stay, ih⟩

/-! ## Failure -/

/-- The receiver of an instance member cannot be found: its target fails, or is null. -/
inductive Unresolved (host : Host) (s s' : Workbench) (stop : Stop) : Expr → Prop
  | failed {node : NodeId} {target : Expr} {m : Member} (hi : m.isStatic = false)
    (habsent : s.receivers.find? node = none) (h : targetValue host target s = .error stop s') :
    Unresolved host s s' stop (member node target m)
  | null {node : NodeId} {target : Expr} {m : Member} {v : Value} (hi : m.isStatic = false)
    (habsent : s.receivers.find? node = none) (h : targetValue host target s = .ok v s') (hv : v.isNull = true)
    (hstop : stop = .failed (nullTarget host.types target (member node target m))) :
    Unresolved host s s' stop (member node target m)

theorem instanceTrigger_eq_error {m : Member} {receiver : Compile Receiver} {s s' : Workbench} {stop : Stop} :
    instanceTrigger host config m receiver s = .error stop s' ↔ receiver s = .error stop s' := by
  constructor
  · intro h
    obtain hr | ⟨r, s₁, -, hreturn⟩ := bind_eq_error.mp h
    · exact hr
    · cases hreturn
  · exact bind_of_error

theorem ownTriggers_eq_error {x : Expr} {s s' : Workbench} {stop : Stop} :
    x.ownTriggers host config s = .error stop s' ↔ Unresolved host s s' stop x := by
  cases x with
  | member node target m =>
    simp only [ownTriggers]
    cases hi : m.isStatic with
    | true =>
      constructor
      · intro h
        cases h
      · intro h
        cases h with
        | failed hi' => cases hi.symm.trans hi'
        | null hi' => cases hi.symm.trans hi'
    | false =>
      simp only [Bool.false_eq_true, if_false]
      rw [instanceTrigger_eq_error, memberReceiver_eq_error]
      constructor
      · rintro ⟨habsent, h | ⟨v, h, hv, hstop⟩⟩
        · exact .failed hi habsent h
        · exact .null hi habsent h hv hstop
      · intro h
        cases h with
        | failed _ habsent h => exact ⟨habsent, .inl h⟩
        | null _ habsent h hv hstop => exact ⟨habsent, .inr ⟨_, h, hv, hstop⟩⟩
  | typeMember node m =>
    simp only [ownTriggers]
    constructor
    · intro h
      split at h
      · cases h
      · cases (kept_eq_error.mp (instanceTrigger_eq_error.mp h)).2
    · intro h
      cases h
  | _ =>
    constructor
    · intro h
      cases h
    · intro h
      cases h

theorem collected_cons_eq_error {x : Expr} {xs : List Expr} {s s' : Workbench} {stop : Stop} :
    collected host config (x :: xs) s = .error stop s' ↔ Unresolved host s s' stop x ∨
      ∃ own s₁, x.ownTriggers host config s = .ok own s₁ ∧ collected host config xs s₁ = .error stop s' := by
  rw [← @ownTriggers_eq_error host config]
  constructor
  · intro h
    obtain hx | ⟨own, s₁, hown, h⟩ := bind_eq_error.mp h
    · exact .inl hx
    · obtain hrest | ⟨rest, s₂, -, hreturn⟩ := bind_eq_error.mp h
      · exact .inr ⟨own, s₁, hown, hrest⟩
      · cases hreturn
  · rintro (hx | ⟨own, s₁, hown, hrest⟩)
    · exact bind_of_error hx
    · exact (bind_of_ok hown).trans (bind_of_error hrest)

/-- Where collecting fails there is a first access that is unresolved, and what stands in front of it has been collected. -/
theorem collected_eq_error {xs : List Expr} {s s' : Workbench} {stop : Stop} :
    collected host config xs s = .error stop s' ↔ ∃ pre x post ts s₁, xs = pre ++ x :: post ∧
      collected host config pre s = .ok ts s₁ ∧ Unresolved host s₁ s' stop x := by
  induction xs generalizing s with
  | nil =>
    constructor
    · intro h
      cases h
    · rintro ⟨pre, x, post, ts, s₁, h, -⟩
      cases pre <;> cases h
  | cons y ys ih =>
    rw [collected_cons_eq_error]
    constructor
    · rintro (hy | ⟨own, s₁, hown, hrest⟩)
      · exact ⟨[], y, ys, [], s, rfl, rfl, hy⟩
      · obtain ⟨pre, x, post, ts, s₂, rfl, hpre, hx⟩ := ih.mp hrest
        exact ⟨y :: pre, x, post, own ++ ts, s₂, rfl, collected_cons_eq_ok.mpr ⟨own, s₁, ts, hown, hpre, rfl⟩, hx⟩
    · rintro ⟨pre, x, post, ts, s₂, hsplit, hpre, hx⟩
      cases pre with
      | nil =>
        cases hsplit
        cases hpre
        exact .inl hx
      | cons z pre =>
        cases hsplit
        obtain ⟨own, s₁, rest, hown, hrest, -⟩ := collected_cons_eq_ok.mp hpre
        exact .inr ⟨own, s₁, hown, ih.mpr ⟨pre, x, post, rest, s₂, rfl, hrest, hx⟩⟩

/-- Collecting fails exactly where it comes to an instance member, observed or not, whose target fails or is null. -/
theorem collecting_fails_iff (host : Host) (config : Configuration) (e : Expr) (s s' : Workbench) (stop : Stop) :
    e.triggers host config s = .error stop s' ↔ ∃ pre x post ts s₁, e.accesses = pre ++ x :: post ∧
      collected host config pre s = .ok ts s₁ ∧ Unresolved host s₁ s' stop x := by
  rw [triggers_eq]
  exact collected_eq_error

end Expr

/-! ## Drafts -/

namespace Drafts

def note : MemberSpec := ⟨"Note", .field, .string, false, some (.slot "Note"), some (.slot "Note" none false)⟩

def platform : Platform := ⟨⟨[{ name := "Card", members := [note] }]⟩, fun _ => "Model", none⟩

def host : Host := ⟨platform, fun _ => pure ()⟩

def nothing : Expr := .constant .null ⟨5⟩ none

def access : Expr := .member ⟨0⟩ nothing { note with id := ⟨⟨5⟩, 0⟩ }

/-- `if true then "-" else null.Note` -/
def draft : Expr := .conditional (.constant (.boolean true) .bool none) (.constant (.text "-") .string none) access .string

/-- A note is a field, nothing is registered for it, and it is in the branch that is not taken; its null receiver ends the
collection all the same. -/
theorem unobserved_null_fails :
    (∀ x ∈ draft.accesses, ∀ m ∈ x.member?, ∀ t, Configuration.memberSource? platform.types {} m t = none) ∧
      draft.eval host {} = .ok (.text "-") {} ∧
      draft.triggers host {} ⟨{}, .empty⟩ =
        .error (.failed (Expr.nullTarget platform.types nothing access)) ⟨{}, .empty⟩ := by
  refine ⟨fun x hx m hm t => ?_, rfl, rfl⟩
  have haccess : draft.accesses = [access] := rfl
  rw [haccess, List.mem_singleton] at hx
  subst hx
  cases hm
  rfl

end Drafts

end DataBinding
