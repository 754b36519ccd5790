import DataBinding.Proofs.Binding.Dispose
import DataBinding.Proofs.Binding.Follow
import DataBinding.Engine

/-!
# Failed notifications

What a binding without a dispatcher does with a notification is decided by one value, the one that it has cached. If
reading the side fails, the cached value stays, and the next notification tries again. If the setter fails, the value
that it was given has been cached before, and notifications that find this value again are passed over until another
value has been handed to a setter (`failed_notification`).
-/

namespace DataBinding

open Effect

/-- A notification of a binding: where the side that has changed is read, and the setter of the other side. -/
structure Notice where
  host : Host
  source : Getter
  target : Setter

namespace Notice

variable (n : Notice) (id : BindingId)

def read : Effect Value := n.source.run n.host

def run : Effect Unit := EqualityBinding.follow n.host id n.source n.target

def handOver (b : EqualityBinding) (v : Value) : Effect Unit := do
  n.target.run n.host v
  if b.flags.isOneTime then n.host.dispose id

/-- Reading the side leaves the binding as it is. -/
def Plain (w : World) : Prop := (after (n.read w)).equality? id = w.equality? id

variable {n id} {b : EqualityBinding} {w w' w₁ : World} {v : Value} {e : Stop}

theorem run_disposed (hb : w.equality? id = some b) (hd : b.disposed = true) : n.run id w = .ok () w :=
  EqualityBinding.follow_disposed hb hd

theorem run_fails (hb : w.equality? id = some b) (hd : b.disposed = false) (hr : n.read w = .error e w₁) :
    n.run id w = .error e w₁ :=
  EqualityBinding.follow_fails hb hd hr

theorem plain_of_reads (hr : n.read w = .ok v w) : n.Plain id w := by
  unfold Plain
  rw [hr]
  rfl

theorem Plain.known (hp : n.Plain id w) (hb : w.equality? id = some b) (hr : n.read w = .ok v w₁) :
    w₁.equality? id = some b := by
  unfold Plain at hp
  rw [hr] at hp
  exact hp.trans hb

theorem run_reads (hb : w.equality? id = some b) (hd : b.disposed = false) (hdisp : b.dispatcher = none)
    (hp : n.Plain id w) (hr : n.read w = .ok v w₁) :
    n.run id w = if b.value.same v then .ok () w₁ else n.handOver id b v (w₁.carried id b n.target v) := by
  have hb₁ := hp.known hb hr
  unfold run
  rw [EqualityBinding.follow_reads hb hd hr hb₁, EqualityBinding.assign_prompt hb₁ hdisp]
  rfl

/-- Disposal returns, so a failed hand-over is a failed setter. -/
theorem handOver_fails (h : n.handOver id b v w = .error e w') : n.target.run n.host v w = .error e w' := by
  unfold handOver at h
  obtain ht | ⟨u, w₁, ht, h⟩ := bind_eq_error.mp h
  · exact ht
  · by_cases hone : b.flags.isOneTime = true
    · obtain ⟨w₂, hdispose⟩ := dispose_returns n.host id w₁
      rw [if_pos hone, hdispose] at h
      cases h
    · rw [if_neg hone] at h
      cases h

end Notice

variable {id : BindingId} {b : EqualityBinding} {w w' w₁ : World}

/-- The world goes on, and notifications of the binding find nothing but `c`, or nothing at all. -/
inductive Meanwhile (id : BindingId) (c : Value) (w : World) : World → Prop
  | refl : Meanwhile id c w w
  | apart {w₁ w₂ : World} : Meanwhile id c w w₁ → w₂.equality? id = w₁.equality? id → Meanwhile id c w w₂
  | notice {w₁ : World} (n : Notice) : Meanwhile id c w w₁ → n.Plain id w₁ →
    (∀ v, result? (n.read w₁) = some v → c.same v = true) → Meanwhile id c w (after (n.run id w₁))

theorem Notice.run_passed {n : Notice} (hb : w.equality? id = some b) (hp : n.Plain id w)
    (hdisp : b.dispatcher = none) (hnew : ∀ v, result? (n.read w) = some v → b.value.same v = true) :
    (after (n.run id w)).equality? id = some b := by
  cases hd : b.disposed with
  | true =>
    rw [Notice.run_disposed hb hd]
    exact hb
  | false =>
    cases hr : n.read w with
    | ok v w₁ =>
      rw [Notice.run_reads hb hd hdisp hp hr, if_pos (hnew v (by rw [hr]; rfl))]
      exact hp.known hb hr
    | error e w₁ =>
      rw [Notice.run_fails hb hd hr]
      unfold Plain at hp
      rw [hr] at hp
      exact hp.trans hb

theorem Meanwhile.known (h : Meanwhile id b.value w w') (hb : w.equality? id = some b) (hdisp : b.dispatcher = none) :
    w'.equality? id = some b := by
  induction h with
  | refl => exact hb
  | apart _ he ih => exact he.trans ih
  | notice n _ hp hnew ih => exact Notice.run_passed ih hp hdisp hnew

/-- Whatever comes meanwhile, the cached value stays, a notification that finds it again is passed over, and one that
finds another value hands that over. -/
def Awaits (id : BindingId) (b : EqualityBinding) (w : World) : Prop :=
  ∀ w₁, Meanwhile id b.value w w₁ → w₁.equality? id = some b ∧
    ∀ (n : Notice) v w₂, n.Plain id w₁ → n.read w₁ = .ok v w₂ →
      n.run id w₁ = if b.value.same v then .ok () w₂ else n.handOver id b v (w₂.carried id b n.target v)

theorem awaits (hb : w.equality? id = some b) (hd : b.disposed = false) (hdisp : b.dispatcher = none) :
    Awaits id b w := by
  intro w₁ hm
  have hb₁ := hm.known hb hdisp
  exact ⟨hb₁, fun n v w₂ hp hr => Notice.run_reads hb₁ hd hdisp hp hr⟩

/-- A notification that fails has either not read the side, and the binding awaits what it awaited before, or has
handed a new value to a setter that failed. If that left the binding alone, this value is the cached one. -/
theorem failed_notification {n : Notice} {e : Error} (hb : w.equality? id = some b) (hdisp : b.dispatcher = none)
    (hp : n.Plain id w) (hfails : n.run id w = .error (.failed e) w') :
    (n.read w = .error (.failed e) w' ∧ w'.equality? id = some b ∧ Awaits id b w') ∨
    ∃ v w₁, n.read w = .ok v w₁ ∧ b.value.same v = false ∧
      n.target.run n.host v (w₁.carried id b n.target v) = .error (.failed e) w' ∧
      (w'.equality? id = (w₁.carried id b n.target v).equality? id →
        w'.equality? id = some { b with value := v } ∧ Awaits id { b with value := v } w') := by
  have hd : b.disposed = false := by
    by_cases hd : b.disposed = true
    · rw [Notice.run_disposed hb hd] at hfails
      cases hfails
    · exact Bool.eq_false_iff.mpr hd
  cases hr : n.read w with
  | error stop w₁ =>
    rw [Notice.run_fails hb hd hr] at hfails
    cases hfails
    have hb' : w'.equality? id = some b := by
      unfold Notice.Plain at hp
      rw [hr] at hp
      exact hp.trans hb
    exact .inl ⟨rfl, hb', awaits hb' hd hdisp⟩
  | ok v w₁ =>
    rw [Notice.run_reads hb hd hdisp hp hr] at hfails
    by_cases hs : b.value.same v = true
    · rw [if_pos hs] at hfails
      cases hfails
    · rw [if_neg hs] at hfails
      refine .inr ⟨v, w₁, rfl, Bool.eq_false_iff.mpr hs, Notice.handOver_fails hfails, fun hleft => ?_⟩
      have hb' : w'.equality? id = some { b with value := v } := by
        rw [hleft, World.equality?_carried]
      exact ⟨hb', awaits hb' hd hdisp⟩

/-! ## Valves -/

namespace Valves

def opening : MemberSpec := ⟨"X", .property, .int, false, some (.slot "X"), some (.slot "X" none true)⟩

def setting : MemberSpec := ⟨"Y", .property, .object, false, some (.slot "Y"), some (.slot "Y" none true)⟩

def platform : Platform :=
  ⟨⟨[{ name := "Valve", notifies := true, members := [opening, setting] }]⟩, fun _ => "Model", none⟩

def host : Host := platform.withFuel 6

def valve : ObjectRef := ⟨"v", ⟨5⟩, .model⟩

def access (i : Nat) (m : MemberSpec) (position : Nat) : Expr :=
  .member ⟨i⟩ (.constant (.object valve) ⟨5⟩ none) { m with id := ⟨⟨5⟩, position⟩ }

def idle : World where
  objects := Table.empty.insert "v"
    { slots := (Table.empty.insert "X" (.integer 0)).insert "Y" (.integer 1), offersChanges := true }

/-- The opening follows the setting. -/
def bound : World := after (EqualityBinding.create host {} .empty (access 0 opening 0) (access 1 setting 1) idle)

/-- The opening refuses a text, which the binding has cached all the same; the next notification is passed over. -/
theorem refused_text_cached :
    (bound.equality? ⟨0⟩).map (fun b => b.value.asInt?) = some (some 1) ∧
      (failure? ((Act.write valve "Y" (.text "wide")).run host bound)).isSome = true ∧
      ((after ((Act.write valve "Y" (.text "wide")).run host bound)).equality? ⟨0⟩).map (fun b => b.value.asText?) =
        some (some "wide") ∧
      result? ((Act.notify valve "Y").run host (after ((Act.write valve "Y" (.text "wide")).run host bound))) =
        some () := by
  decide

/-- What a change of the setting does to the binding. -/
def turned : Notice where
  host := host
  source := .read (.shared (.object valve)) ⟨{ setting with id := ⟨⟨5⟩, 1⟩ }, false⟩
  target := .write (.shared (.object valve)) ⟨{ opening with id := ⟨⟨5⟩, 0⟩ }, false⟩

theorem turned_reads (w : World) : turned.read w = .ok (w.slot "v" "Y") w := rfl

def poked : World := bound.setSlot "v" "Y" (.text "wide")

/-- Once the binding has handed over the text in vain, it awaits everything but this text. -/
theorem poked_awaits :
    ∃ b w', poked.equality? ⟨0⟩ = some b ∧ b.value.asInt? = some 1 ∧
      (∃ e, turned.run ⟨0⟩ poked = .error (.failed e) w') ∧
      w'.equality? ⟨0⟩ = some { b with value := .text "wide" } ∧ Awaits ⟨0⟩ { b with value := .text "wide" } w' := by
  have hone : (poked.equality? ⟨0⟩).map (fun b => (b.value.asInt?, b.dispatcher)) = some (some 1, none) := by decide
  obtain ⟨b, hb, hb'⟩ := Option.map_eq_some_iff.mp hone
  have hfails : (failure? (turned.run ⟨0⟩ poked)).isSome = true := by decide
  obtain ⟨e, he⟩ := Option.isSome_iff_exists.mp hfails
  obtain ⟨w', hrun⟩ : ∃ w', turned.run ⟨0⟩ poked = .error (.failed e) w' := ⟨_, eq_failed_after he⟩
  have hslot : poked.slot "v" "Y" = .text "wide" :=
    (World.slot_setSlot bound "v" "v" "Y" "Y" (.text "wide")).trans (if_pos ⟨rfl, rfl⟩)
  have hread : turned.read poked = .ok (.text "wide") poked := hslot ▸ turned_reads poked
  have hstill (w : World) : after (turned.target.run turned.host (.text "wide") w) = w := rfl
  refine ⟨b, w', hb, (Prod.mk.inj hb').1, ⟨e, hrun⟩, ?_⟩
  rcases failed_notification hb (Prod.mk.inj hb').2 (Notice.plain_of_reads hread) hrun with
    ⟨hfails, -⟩ | ⟨v, w₁, hv, -, hset, hleft⟩
  · rw [hread] at hfails
    cases hfails
  · rw [hread] at hv
    injection hv with hv hw₁
    subst hv hw₁
    have hw := (hstill _).symm.trans (congrArg after hset)
    exact hleft (congrArg (fun w => w.equality? ⟨0⟩) hw.symm)

end Valves

end DataBinding
