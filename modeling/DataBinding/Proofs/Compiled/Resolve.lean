import DataBinding.Compiled.Compile
import DataBinding.Proofs.Expr.Quiet

/-!
# Resolving receivers

What compiling does to the workbench. A relation between workbenches holds of a whole compilation if it holds
of resolving each member access (`getter?_within`, `setter?_within`). Two such relations follow: receivers fit
the accesses that they are kept for (`node_fits`), and where host code is quiet, what was resolved stays resolved
and keeps its type (`node_keeps`).
-/

namespace DataBinding

open Effect

namespace Compile

variable {α : Type} {s s' : Workbench}

theorem lift_eq_ok {x : Effect α} {a : α} :
    lift x s = .ok a s' ↔ ∃ w, x s.world = .ok a w ∧ s' = { s with world := w } := by
  unfold lift
  cases x s.world with
  | ok b w =>
    constructor
    · intro h
      cases h
      exact ⟨w, rfl, rfl⟩
    · rintro ⟨w', h, rfl⟩
      cases h
      rfl
  | error e w =>
    constructor
    · intro h
      cases h
    · rintro ⟨w', h, -⟩
      cases h

theorem lift_eq_error {x : Effect α} {e : Stop} :
    lift x s = .error e s' ↔ ∃ w, x s.world = .error e w ∧ s' = { s with world := w } := by
  unfold lift
  cases x s.world with
  | ok b w =>
    constructor
    · intro h
      cases h
    · rintro ⟨w', h, -⟩
      cases h
  | error e' w =>
    constructor
    · intro h
      cases h
      exact ⟨w, rfl, rfl⟩
    · rintro ⟨w', h, rfl⟩
      cases h
      rfl

section
variable {rs : Receivers} {x : Compile α} {w : World}

theorem withReceivers_of_ok {a : α} (h : x ⟨w, rs⟩ = .ok a s) : withReceivers rs x w = .ok (.ok a, s.receivers) s.world := by
  unfold withReceivers
  rw [h]

theorem withReceivers_of_failed {e : Error} (h : x ⟨w, rs⟩ = .error (.failed e) s) :
    withReceivers rs x w = .ok (.error e, s.receivers) s.world := by
  unfold withReceivers
  rw [h]

theorem withReceivers_of_exhausted (h : x ⟨w, rs⟩ = .error .exhausted s) :
    withReceivers rs x w = .error .exhausted s.world := by
  unfold withReceivers
  rw [h]

end

theorem kept_eq_ok {node : NodeId} {make : Compile Receiver} {r : Receiver} :
    kept node make s = .ok r s' ↔
      (s.receivers.find? node = some r ∧ s' = s) ∨
        (s.receivers.find? node = none ∧ ∃ s₁, make s = .ok r s₁ ∧
          s' = { s₁ with receivers := s₁.receivers.insert node r }) := by
  unfold kept
  rw [bind_of_ok (show (get : Compile Workbench) s = .ok s s from rfl)]
  cases hr : s.receivers.find? node with
  | some q =>
    simp only [pure_eq_ok]
    constructor
    · rintro ⟨rfl, rfl⟩
      exact .inl ⟨rfl, rfl⟩
    · rintro (⟨h, rfl⟩ | ⟨h, -⟩)
      · exact ⟨Option.some.inj h, rfl⟩
      · cases h
  | none =>
    simp only [bind_eq_ok]
    constructor
    · rintro ⟨q, s₁, hm, u, s₂, hu, hp⟩
      cases hu
      cases hp
      exact .inr ⟨trivial, s₁, hm, rfl⟩
    · rintro (⟨h, -⟩ | ⟨-, s₁, hm, rfl⟩)
      · cases h
      · exact ⟨r, s₁, hm, (), _, rfl, rfl⟩

theorem within_ofExcept {R : Workbench → Workbench → Prop} (hR : Chains R) (r : Except Error α) :
    Within R (lift (ofExcept r)) := by
  intro s a s' h
  obtain ⟨w, hw, rfl⟩ := lift_eq_ok.mp h
  obtain ⟨-, rfl⟩ := ofExcept_eq_ok.mp hw
  exact hR.refl s

end Compile

open Compile

namespace Compile

/-- A kind of compilation that sequencing does not lead out of. -/
structure Closed (host : Host) (C : ∀ {α : Type}, Compile α → Prop) : Prop where
  pure : ∀ {α : Type} (a : α), C (Pure.pure a : Compile α)
  bind : ∀ {α β : Type} {x : Compile α} {f : α → Compile β}, C x → (∀ a, C (f a)) → C (x >>= f)
  look : C (get : Compile Workbench)
  except : ∀ {α : Type} (r : Except Error α), C (lift (ofExcept r))
  accessor : ∀ (r : Receiver) (m : Member) (whole : Expr), C (lift (r.accessor host m whole))

theorem accessor_within {host : Host} {R : Workbench → Workbench → Prop} (hR : Chains R) (r : Receiver) (m : Member)
    (whole : Expr) : Within R (lift (r.accessor host m whole)) := by
  intro s a s' h
  obtain ⟨w, hw, rfl⟩ := lift_eq_ok.mp h
  unfold Receiver.accessor at hw
  rw [bind_get] at hw
  cases ht : r.type? s.world with
  | some t =>
    rw [ht] at hw
    cases hw
    exact hR.refl s
  | none =>
    rw [ht] at hw
    cases hw

theorem within_closed (host : Host) {R : Workbench → Workbench → Prop} (hR : Chains R) :
    Closed host (fun {_} x => Within R x) where
  pure := within_pure hR
  bind := within_bind hR
  look s _ s' h := by
    cases h
    exact hR.refl s
  except := within_ofExcept hR
  accessor := accessor_within hR

end Compile

namespace Expr

variable {host : Host}

/-- Finding the receiver of a member access is of this kind. -/
def NodeIn (host : Host) (C : ∀ {α : Type}, Compile α → Prop) : Expr → Prop
  | member node target m => C (memberReceiver host node target m)
  | typeMember node m => C (typeReceiver node m)
  | _ => True

section
variable {C : ∀ {α : Type}, Compile α → Prop} (hC : Closed host C)
include hC

theorem memberGetter_closed {m : Member} {whole : Expr} {receiver : Compile Receiver} (h : C receiver) :
    C (memberGetter host m whole receiver) := by
  unfold memberGetter
  split
  · exact hC.pure _
  · exact hC.bind h fun r => hC.bind (hC.accessor r m whole) fun a => hC.pure _

theorem memberSetter_closed {custom : Option (Table DeclId CustomSetter)} {m : Member} {whole : Expr}
    {receiver : Compile Receiver} (h : C receiver) : C (memberSetter host custom m whole receiver) := by
  unfold memberSetter
  split
  · exact hC.bind h fun r => hC.bind hC.look fun s => hC.pure _
  · split
    · exact hC.pure _
    · exact hC.bind h fun r => hC.bind (hC.accessor r m whole) fun a => hC.pure _

mutual
theorem getter?_closed (e : Expr) (h : ∀ x ∈ e.parts, x.NodeIn host C) : C (e.getter? host) := by
  cases e with
  | constant v u n => exact hC.pure _
  | member node target m =>
    have hn : C (memberReceiver host node target m) := h _ (mem_parts_self _)
    exact memberGetter_closed hC hn
  | typeMember node m =>
    have hn : C (typeReceiver node m) := h _ (mem_parts_self _)
    exact memberGetter_closed hC hn
  | binary op left right u =>
    have hl := getter?_closed left fun x hx => h x (by simp [parts, hx])
    have hr := getter?_closed right fun x hx => h x (by simp [parts, hx])
    unfold getter?
    split
    · exact hC.pure _
    · exact hC.bind hl fun l => hC.bind hr fun r => hC.pure _
  | unary op operand u c =>
    have hi := getter?_closed operand fun x hx => h x (by simp [parts, hx])
    cases op with
    | not =>
      unfold getter?
      split
      · exact hC.bind hi fun g => hC.pure _
      · exact hC.pure _
    | negate => exact hC.pure _
    | convert =>
      unfold getter?
      refine hC.bind hi fun g => ?_
      cases g with
      | none => exact hC.pure _
      | some g => exact hC.except _
  | call target m args =>
    have hi := getter?_closed target fun x hx => h x (by simp [parts, hx])
    have ha := getters?_closed args fun x hx => h x (by simp [parts, hx])
    unfold getter?
    split
    · exact hC.pure _
    · split
      · refine hC.bind ha fun gs => ?_
        cases gs with
        | none => exact hC.pure _
        | some gs => exact hC.except _
      · refine hC.bind hi fun r => ?_
        cases r with
        | none => exact hC.pure _
        | some r =>
          refine hC.bind ha fun gs => ?_
          cases gs with
          | none => exact hC.pure _
          | some gs => exact hC.except _
  | typeCall m args =>
    have ha := getters?_closed args fun x hx => h x (by simp [parts, hx])
    unfold getter?
    split
    · exact hC.pure _
    · refine hC.bind ha fun gs => ?_
      cases gs with
      | none => exact hC.pure _
      | some gs => exact hC.except _
  | conditional test yes no u => exact hC.pure _
termination_by structural e
theorem getters?_closed (es : List Expr) (h : ∀ x ∈ partsAll es, x.NodeIn host C) : C (getters? host es) := by
  cases es with
  | nil => exact hC.pure _
  | cons e es =>
    have he := getter?_closed e fun x hx => h x (by simp [partsAll, hx])
    have hs := getters?_closed es fun x hx => h x (by simp [partsAll, hx])
    unfold getters?
    refine hC.bind he fun g => ?_
    cases g with
    | none => exact hC.pure _
    | some g => exact hC.bind hs fun gs => hC.pure _
termination_by structural es
end

theorem setter?_closed (custom : Option (Table DeclId CustomSetter)) (e : Expr)
    (h : ∀ x ∈ e.parts, x.NodeIn host C) : C (e.setter? host custom) := by
  cases e with
  | member node target m =>
    have hn : C (memberReceiver host node target m) := h _ (mem_parts_self _)
    exact memberSetter_closed hC hn
  | typeMember node m =>
    have hn : C (typeReceiver node m) := h _ (mem_parts_self _)
    exact memberSetter_closed hC hn
  | unary op operand u c =>
    have hi := setter?_closed custom operand fun x hx => h x (by simp [parts, hx])
    cases op with
    | convert =>
      unfold setter?
      split
      · split
        · exact hC.bind hi fun s => hC.pure _
        · exact hC.pure _
      · exact hC.pure _
    | _ => exact hC.pure _
  | _ => exact hC.pure _
termination_by structural e

end

/-- Finding the receiver of a member access stays within a relation. -/
def NodeWithin (host : Host) (R : Workbench → Workbench → Prop) : Expr → Prop
  | member node target m => Within R (memberReceiver host node target m)
  | typeMember node m => Within R (typeReceiver node m)
  | _ => True

section
variable {R : Workbench → Workbench → Prop} (hR : Chains R)
include hR

omit hR in
theorem NodeWithin.nodeIn {x : Expr} (h : x.NodeWithin host R) : x.NodeIn host (fun {_} y => Within R y) := by
  cases x <;> exact h

theorem getter?_within (e : Expr) (h : ∀ x ∈ e.parts, x.NodeWithin host R) : Within R (e.getter? host) :=
  getter?_closed (within_closed host hR) e fun x hx => (h x hx).nodeIn

theorem getters?_within (es : List Expr) (h : ∀ x ∈ partsAll es, x.NodeWithin host R) :
    Within R (getters? host es) :=
  getters?_closed (within_closed host hR) es fun x hx => (h x hx).nodeIn

theorem setter?_within (custom : Option (Table DeclId CustomSetter)) (e : Expr)
    (h : ∀ x ∈ e.parts, x.NodeWithin host R) : Within R (e.setter? host custom) :=
  setter?_closed (within_closed host hR) custom e fun x hx => (h x hx).nodeIn

end

end Expr

/-! ## What receivers are kept -/

namespace Receiver

/-- A receiver as it can be for this access: the object itself where the target is a constant object, and a type
exactly where there is no target. -/
def Fits (r : Receiver) : Expr → Prop
  | .member _ (.constant (.object o) _ _) _ => r = .shared (.object o)
  | .member _ _ _ => ∀ t, r ≠ .type t
  | .typeMember _ m => r = .type m.id.owner
  | _ => True

theorem ofValue_fits {node : NodeId} {target : Expr} {m : Member} {v : Value} {w w' : World} {r : Receiver}
    (h : ofValue v w = .ok r w') (hv : ∀ o u n, target = .constant (.object o) u n → v = .object o) :
    r.Fits (.member node target m) := by
  have typed : ∀ t, r ≠ .type t := by
    intro t ht
    subst ht
    cases v <;> cases h
  unfold Fits
  split
  · rename_i hx
    cases hx
    rw [hv _ _ _ rfl] at h
    cases h
    rfl
  · exact typed
  · trivial
  · trivial

end Receiver

def Expr.Named (xs : List Expr) (x : Expr) : Prop := ∀ y ∈ xs, ∀ n, x.node? = some n → y.node? = some n → y = x

namespace Expr

variable {host : Host} {R : Workbench → Workbench → Prop}

/-- No access shares its node with an access inside its target. -/
theorem Named.node_ne {e target : Expr} {node : NodeId} {m : Member} (hx : member node target m ∈ e.parts)
    (h : ∀ x ∈ e.parts, x.Named e.parts) : ∀ x ∈ target.parts, x.node? ≠ some node := by
  intro x ht hn
  have hmem : x ∈ e.parts := parts_subset e hx (by simp [parts, ht])
  have hxm : x = member node target m := h _ hx x hmem node rfl hn
  have hle := sizeOf_le_of_mem_parts target ht
  rw [hxm, member.sizeOf_spec] at hle
  omega

/-- What stays within a relation while an access is resolved: its evaluation, reading through it, and keeping a
fitting receiver for it. -/
structure Resolves (host : Host) (R : Workbench → Workbench → Prop) (x : Expr) : Prop where
  eval : Within R (lift (x.eval host))
  read : ∀ m ∈ x.member?, ∀ r, Within R (lift (readThrough host r m x))
  keep : ∀ n s v r w, x.node? = some n → s.receivers.find? n = none → Receiver.ofValue v s.world = .ok r w →
    r.Fits x → R s ⟨w, s.receivers.insert n r⟩
  keepType : ∀ n m s, x = typeMember n m → s.receivers.find? n = none →
    R s { s with receivers := s.receivers.insert n (.type m.id.owner) }

theorem targetValue_absent (e : Expr) {n : NodeId} (h : ∀ x ∈ e.parts, x.node? ≠ some n) :
    Within (fun s s' => s.receivers.find? n = none → s'.receivers.find? n = none) (targetValue host e) := by
  have hR : Chains fun s s' : Workbench => s.receivers.find? n = none → s'.receivers.find? n = none :=
    ⟨fun _ h => h, fun h h' hs => h' (h hs)⟩
  have lifted {α : Type} (x : Effect α) :
      Within (fun s s' => s.receivers.find? n = none → s'.receivers.find? n = none) (lift x) := by
    intro s a s' hx hs
    obtain ⟨w, -, rfl⟩ := lift_eq_ok.mp hx
    exact hs
  cases e with
  | constant v t name => exact within_pure hR _
  | member node target m =>
    have hi := targetValue_absent target fun x hx => h x (by simp [parts, hx])
    have hne : node ≠ n := fun he => h _ (mem_parts_self _) (by rw [← he]; rfl)
    refine within_bind hR (fun s r s' hk hs => ?_) fun r => lifted _
    rcases kept_eq_ok.mp hk with ⟨-, rfl⟩ | ⟨-, s₁, hm, rfl⟩
    · exact hs
    · obtain ⟨v, s₂, hv, hm⟩ := bind_eq_ok.mp hm
      have hs₂ := hi s v s₂ hv hs
      simp only at hm
      split at hm
      · cases hm
      · obtain ⟨w, -, rfl⟩ := lift_eq_ok.mp hm
        rw [Table.find?_insert, if_neg hne]
        exact hs₂
  | typeMember node m =>
    have hne : node ≠ n := fun he => h _ (mem_parts_self _) (by rw [← he]; rfl)
    refine within_bind hR (fun s r s' hk hs => ?_) fun r => lifted _
    rcases kept_eq_ok.mp hk with ⟨-, rfl⟩ | ⟨-, s₁, hm, rfl⟩
    · exact hs
    · cases hm
      rw [Table.find?_insert, if_neg hne]
      exact hs
  | _ => exact lifted _
termination_by structural e

theorem constant_value {target : Expr} {o : ObjectRef} {u : TypeId} {n : Option String} {s s' : Workbench}
    {v : Value} (ht : target = constant (.object o) u n) (h : targetValue host target s = .ok v s') :
    v = .object o := by
  subst ht
  cases h
  rfl

section
variable (hR : Chains R)
include hR

theorem typeReceiver_within {node : NodeId} {m : Member} (hx : (typeMember node m).Resolves host R) :
    Within R (typeReceiver node m) := by
  intro s r s' h
  rcases kept_eq_ok.mp h with ⟨-, rfl⟩ | ⟨hn, s₁, hm, rfl⟩
  · exact hR.refl s'
  · cases hm
    exact hx.keepType node m s rfl hn

theorem memberReceiver_within {node : NodeId} {target : Expr} {m : Member}
    (hx : (member node target m).Resolves host R) (hv : Within R (targetValue host target))
    (hn : ∀ x ∈ target.parts, x.node? ≠ some node) : Within R (memberReceiver host node target m) := by
  intro s r s' h
  rcases kept_eq_ok.mp h with ⟨-, rfl⟩ | ⟨hs, s₁, hm, rfl⟩
  · exact hR.refl s'
  · obtain ⟨v, s₂, hvalue, hm⟩ := bind_eq_ok.mp hm
    have hs₂ := targetValue_absent target hn s v s₂ hvalue hs
    simp only at hm
    split at hm
    · cases hm
    · obtain ⟨w, hr, rfl⟩ := lift_eq_ok.mp hm
      have hfits : r.Fits (member node target m) := Receiver.ofValue_fits hr fun o u n ht => constant_value ht hvalue
      exact hR.trans (hv s v s₂ hvalue) (hx.keep node s₂ v r w rfl hs₂ hr hfits)

theorem targetValue_within (e : Expr) (hn : ∀ x ∈ e.parts, x.Named e.parts)
    (h : ∀ x ∈ e.parts, x.Resolves host R) : Within R (targetValue host e) := by
  have other := (h e (mem_parts_self e)).eval
  cases e with
  | constant v t n => exact within_pure hR _
  | member node target m =>
    have hi := targetValue_within target (fun x hx y hy => hn x (by simp [parts, hx]) y (by simp [parts, hy]))
      fun x hx => h x (by simp [parts, hx])
    have hx := h _ (mem_parts_self _)
    have hr := memberReceiver_within hR hx hi (Named.node_ne (mem_parts_self _) hn)
    exact within_bind hR hr fun r => hx.read m rfl r
  | typeMember node m =>
    have hx := h _ (mem_parts_self _)
    exact within_bind hR (typeReceiver_within hR hx) fun r => hx.read m rfl r
  | _ => exact other
termination_by structural e

theorem node_within (e : Expr) (hn : ∀ x ∈ e.parts, x.Named e.parts) (h : ∀ x ∈ e.parts, x.Resolves host R)
    {x : Expr} (hx : x ∈ e.parts) : x.NodeWithin host R := by
  cases x with
  | member node target m =>
    have hsub : target.parts ⊆ e.parts := fun y hy => parts_subset e hx (by simp [parts, hy])
    have hv := targetValue_within hR target (fun y hy z hz => hn y (hsub hy) z (hsub hz)) fun y hy => h y (hsub hy)
    exact memberReceiver_within hR (h _ hx) hv (Named.node_ne hx hn)
  | typeMember node m => exact typeReceiver_within hR (h _ hx)
  | _ => trivial

end

end Expr

/-! ## Receivers fit -/

def Workbench.Fits (xs : List Expr) (s : Workbench) : Prop :=
  ∀ x ∈ xs, ∀ n r, x.node? = some n → s.receivers.find? n = some r → r.Fits x

namespace Expr

variable {host : Host} {xs : List Expr}

theorem fits_chains (xs : List Expr) : Chains fun s s' : Workbench => s.Fits xs → s'.Fits xs :=
  ⟨fun _ h => h, fun h h' hs => h' (h hs)⟩

theorem fits_insert {x : Expr} {n : NodeId} {r : Receiver} {s : Workbench} (hx : x.Named xs)
    (hn : x.node? = some n) (hr : r.Fits x) (w : World) (hs : s.Fits xs) :
    Workbench.Fits xs ⟨w, s.receivers.insert n r⟩ := by
  intro y hy n' r' hn' hr'
  rw [Table.find?_insert] at hr'
  by_cases hnn : n = n'
  · subst hnn
    rw [if_pos rfl, Option.some.injEq] at hr'
    rw [hx y hy n hn hn', ← hr']
    exact hr
  · rw [if_neg hnn] at hr'
    exact hs y hy n' r' hn' hr'

theorem lift_fits {α : Type} (x : Effect α) : Within (fun s s' => s.Fits xs → s'.Fits xs) (lift x) := by
  intro s a s' h
  obtain ⟨w, -, rfl⟩ := lift_eq_ok.mp h
  exact fun hs => hs

theorem node_fits (e : Expr) (hn : ∀ x ∈ e.parts, x.Named e.parts) (h : ∀ x ∈ e.parts, x.Named xs) {x : Expr}
    (hx : x ∈ e.parts) : x.NodeWithin host fun s s' => s.Fits xs → s'.Fits xs := by
  refine node_within (fits_chains xs) e hn (fun x hx => ?_) hx
  refine ⟨lift_fits _, fun m _ r => lift_fits _, fun n s v r w hxn _ _ hr => fits_insert (h x hx) hxn hr w, ?_⟩
  rintro n m _ rfl -
  exact fits_insert (h _ hx) rfl rfl _

end Expr

/-! ## What is resolved stays resolved -/

namespace Workbench

/-- The boxes of the receivers have been handed out. -/
def Fresh (s : Workbench) : Prop := ∀ n b, s.receivers.find? n = some (.boxed b) → b.index < s.world.next

/-- Receivers stay and keep the type that members are looked up on. -/
structure Keeps (s s' : Workbench) : Prop where
  receivers : ∀ n r, s.receivers.find? n = some r → s'.receivers.find? n = some r
  types : ∀ n r t, s.receivers.find? n = some r → r.type? s.world = some t → r.type? s'.world = some t

theorem keeps_chains : Chains Keeps where
  refl _ := ⟨fun _ _ h => h, fun _ _ _ _ h => h⟩
  trans h h' := ⟨fun n r hr => h'.receivers n r (h.receivers n r hr),
    fun n r t hr ht => h'.types n r t (h.receivers n r hr) (h.types n r t hr ht)⟩

theorem keeps_insert {s : Workbench} {n : NodeId} {w : World} (hn : s.receivers.find? n = none)
    (ht : ∀ n r t, s.receivers.find? n = some r → r.type? s.world = some t → r.type? w = some t) (r : Receiver) :
    s.Keeps ⟨w, s.receivers.insert n r⟩ := by
  refine ⟨fun n' r' hr' => ?_, ht⟩
  rw [Table.find?_insert, if_neg (fun h => by rw [← h, hn] at hr'; cases hr')]
  exact hr'

end Workbench

namespace Expr

open Workbench

variable {host : Host}

/-- Whatever an expression runs while its parts are resolved is quiet. -/
def Still (host : Host) (x : Expr) : Prop :=
  (∀ t, x.QuietNode host t) ∧ ∀ m ∈ x.member?, ∀ t v, Quiet ((Accessor.on host.types m t).get host v)

theorem quiet_within {α : Type} {x : Effect α} (h : Quiet x) {R : Workbench → Workbench → Prop} (hR : Chains R) :
    Within R (lift x) := by
  intro s a s' hs
  obtain ⟨w, hw, rfl⟩ := lift_eq_ok.mp hs
  rw [(h s.world).world_eq hw]
  exact hR.refl s

theorem accessor_eq_ok {r : Receiver} {m : Member} {whole : Expr} {w w' : World} {a : Accessor}
    (h : r.accessor host m whole w = .ok a w') :
    ∃ t, r.type? w = some t ∧ a = .on host.types m t ∧ w' = w := by
  obtain ⟨_, _, hg, h⟩ := bind_eq_ok.mp h
  cases hg
  cases ht : r.type? w with
  | some t =>
    rw [ht] at h
    cases h
    exact ⟨t, rfl, rfl, rfl⟩
  | none =>
    rw [ht] at h
    cases h

theorem readThrough_quiet {r : Receiver} {m : Member} {whole : Expr}
    (h : ∀ t v, Quiet ((Accessor.on host.types m t).get host v)) : Quiet (readThrough host r m whole) := by
  intro w
  have ha : QuietAt w (r.accessor host m whole) := by
    refine quietAt_get ?_
    cases r.type? w with
    | none => exact agree_fail _ _
    | some t => exact agree_pure _
  refine QuietAt.bind ha fun a hw => ?_
  obtain ⟨t, -, rfl, -⟩ := accessor_eq_ok hw
  exact quietAt_get (h t _ w)

theorem fresh_insert {s : Workbench} {n : NodeId} {r : Receiver} {w : World} (hs : s.Fresh)
    (hw : s.world.next ≤ w.next) (hr : ∀ b, r = .boxed b → b.index < w.next) :
    Workbench.Fresh ⟨w, s.receivers.insert n r⟩ := by
  intro n' b hb
  rw [Table.find?_insert] at hb
  by_cases hnn : n = n'
  · rw [if_pos hnn] at hb
    exact hr b (Option.some.inj hb)
  · rw [if_neg hnn] at hb
    exact Nat.lt_of_lt_of_le (hs n' b hb) hw

/-- A record gets a box that no receiver has; other values leave the world alone. -/
theorem ofValue_keeps {v : Value} {s : Workbench} {n : NodeId} {r : Receiver} {w : World}
    (hn : s.receivers.find? n = none) (h : Receiver.ofValue v s.world = .ok r w) :
    Guarded Fresh Keeps s ⟨w, s.receivers.insert n r⟩ := by
  intro hs
  cases v with
  | record u fields =>
    obtain ⟨i, w₁, hi, h⟩ := bind_eq_ok.mp h
    cases hi
    cases h
    constructor
    · refine fresh_insert hs (Nat.le_succ _) fun b hb => ?_
      cases hb
      exact Nat.lt_succ_self _
    · refine keeps_insert hn (fun n' r t hr ht => ?_) _
      cases r with
      | boxed b =>
        have hb := hs n' b hr
        have hne : (⟨s.world.next⟩ : BoxId) ≠ b := fun he => by
          rw [← he] at hb
          exact Nat.lt_irrefl _ hb
        simp only [Receiver.type?, World.box_setBox, if_neg hne]
        exact ht
      | _ => exact ht
  | _ =>
    cases h
    exact ⟨fresh_insert hs (Nat.le_refl _) nofun, keeps_insert hn (fun n' r t hr ht => ht) _⟩

theorem still_resolves {e : Expr} (hs : ∀ x ∈ e.parts, x.Still host) {x : Expr} (hx : x ∈ e.parts) :
    x.Resolves host (Guarded Fresh Keeps) := by
  have hc : Chains (Guarded Fresh Keeps) := keeps_chains.guarded
  have heval : (x.eval host).Quiet := fun t =>
    eval_quiet host t x fun y hy => (hs y (parts_subset e hx hy)).1 t
  refine ⟨quiet_within heval hc, fun m hm r => ?_, fun n s v r w _ hn hr _ => ofValue_keeps hn hr, ?_⟩
  · exact quiet_within (readThrough_quiet ((hs x hx).2 m hm)) hc
  · intro n m s _ hn hs
    exact ⟨fresh_insert hs (Nat.le_refl _) nofun, keeps_insert hn (fun n' r t hr ht => ht) _⟩

/-- While host code is quiet, resolving a member access leaves the receivers there are as they are. -/
theorem node_keeps (e : Expr) (hs : ∀ x ∈ e.parts, x.Still host) (hn : ∀ x ∈ e.parts, x.Named e.parts) {x : Expr}
    (hx : x ∈ e.parts) : x.NodeWithin host (Guarded Fresh Keeps) :=
  node_within keeps_chains.guarded e hn (fun _ hy => still_resolves hs hy) hx

end Expr

end DataBinding
