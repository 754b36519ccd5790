import DataBinding.Proofs.Binding.Follow
import DataBinding.Proofs.Network.Endpoint

/-!
# Networks of two-way bindings

Any number of endpoints of one scalar type, with two-way bindings between them in whatever cycles. While a value
spreads, a binding whose cached value is another one is pending (`Link.pending`); its sides have not been touched
(`Spread`), and the sides of all other live bindings have the value (`Kept`).
-/

namespace DataBinding

/-- Endpoints of one scalar type, on a platform that does not limit how deep raises are nested. -/
structure Network where
  platform : Platform
  config : Configuration
  type : TypeId
  ends : List Endpoint
  scalar : type ∈ [TypeId.bool, .int, .float, .string]
  unlimited : platform.raiseLimit = none
  immediate : config.assignments = none
  loud : ∀ e ∈ ends, e.Loud platform.types config type
  /-- Two properties of one object have slots of their own. -/
  separate : ∀ e ∈ ends, ∀ e' ∈ ends, e.object.name = e'.object.name →
    (e.slot = e'.slot ↔ e.member.name = e'.member.name)

structure Link where
  id : BindingId
  left : Endpoint
  right : Endpoint

namespace Link

def Carries (k : Link) (e e' : Endpoint) : Prop := (e = k.left ∧ e' = k.right) ∨ (e = k.right ∧ e' = k.left)

/-- The binding is live and has carried another value over last. -/
def pending (v : Value) (w : World) (k : Link) : Bool :=
  match w.equality? k.id with
  | some b => !b.disposed && !v.same b.value
  | none => false

variable {k : Link} {v : Value} {w w' : World}

theorem pending_eq_true : k.pending v w = true ↔
    ∃ b, w.equality? k.id = some b ∧ b.disposed = false ∧ v.same b.value = false := by
  unfold pending
  cases w.equality? k.id with
  | none => simp
  | some b => simp

theorem pending_congr (h : w'.equality? k.id = w.equality? k.id) : k.pending v w' = k.pending v w := by
  unfold pending
  rw [h]

theorem pending_eq_false {b : EqualityBinding} (hb : w.equality? k.id = some b) :
    k.pending v w = false ↔ b.disposed = true ∨ v.same b.value = true := by
  unfold pending
  rw [hb]
  simp only [Bool.and_eq_false_iff, Bool.not_eq_false']

end Link

namespace Network

variable (N : Network)

/-- How the handlers of a binding answer to a change of one side. -/
def reaction (k : Link) (e e' : Endpoint) : Response :=
  .onProperty e.member.name (.follow k.id (e.source N.platform.types) (e'.target N.platform.types))

structure Bound (w : World) (k : Link) (b : EqualityBinding) : Prop where
  dispatcher : b.dispatcher = none
  recurring : b.flags.isOneTime = false
  listens : b.disposed = false → ∀ e e', k.Carries e e' →
    ∃ g ∈ w.handlersOf (.changed e.object.name), g.response = N.reaction k e e'

/-- These bindings, and nothing else, listen to changes of properties. -/
structure Wired (L : List Link) (w : World) : Prop where
  ends : ∀ k ∈ L, k.left ∈ N.ends ∧ k.right ∈ N.ends
  distinct : ∀ k ∈ L, ∀ k' ∈ L, k.id = k'.id → k = k'
  fits : ∀ e ∈ N.ends, (e.value w).Fits N.platform.types N.type
  offers : ∀ e ∈ N.ends, (w.object e.object.name).offersChanges = true
  handlers : ∀ o, ∀ g ∈ w.handlersOf (.changed o),
    ∃ k ∈ L, ∃ e e', k.Carries e e' ∧ e.object.name = o ∧ g.response = N.reaction k e e'
  bound : ∀ k ∈ L, ∃ b, w.equality? k.id = some b ∧ N.Bound w k b

end Network

/-- Where a live binding has carried this value over, both sides have it. -/
def Kept (L : List Link) (v : Value) (w : World) : Prop :=
  ∀ k ∈ L, ∀ b, w.equality? k.id = some b → b.disposed = false → v.same b.value = true →
    v.same (k.left.value w) = true ∧ v.same (k.right.value w) = true

/-- What may have changed while a value spreads. -/
structure Spread (L : List Link) (v : Value) (w w' : World) : Prop where
  handlers : w'.handlers = w.handlers
  next : w'.next = w.next
  offers : ∀ o, (w'.object o).offersChanges = (w.object o).offersChanges
  bindings : ∀ id, w'.bindings.find? id = w.bindings.find? id ∨
    ∃ k ∈ L, k.id = id ∧ ∃ b x, w.equality? id = some b ∧ w'.equality? id = some { b with value := x }
  reached : ∀ o s, v.same (w.slot o s) = true → v.same (w'.slot o s) = true
  settled : ∀ k ∈ L, k.pending v w = false → k.pending v w' = false
  /-- Bindings that are still pending are as they were, and so are their sides. -/
  untouched : ∀ k ∈ L, k.pending v w' = true → w'.equality? k.id = w.equality? k.id ∧
    k.left.value w' = k.left.value w ∧ k.right.value w' = k.right.value w
  /-- Each value that is given to a setter settles a binding. -/
  given : w'.assignments.length + L.countP (Link.pending v w') ≤ w.assignments.length + L.countP (Link.pending v w)

/-- Worlds that differ in their log and in how many raises are in progress. -/
structure World.Alike (w w' : World) : Prop where
  objects : w'.objects = w.objects := by rfl
  handlers : w'.handlers = w.handlers := by rfl
  bindings : w'.bindings = w.bindings := by rfl
  assignments : w'.assignments = w.assignments := by rfl
  next : w'.next = w.next := by rfl

section
variable {N : Network} {L : List Link} {v : Value} {w w' w'' : World}

theorem World.Alike.slot (h : w.Alike w') (o s : String) : w'.slot o s = w.slot o s := by
  unfold World.slot World.object
  rw [h.objects]

theorem World.Alike.equality? (h : w.Alike w') (id : BindingId) : w'.equality? id = w.equality? id := by
  unfold World.equality?
  rw [h.bindings]

/-- The cached value may have changed, and nothing else. -/
theorem Spread.equality? (h : Spread L v w w') (id : BindingId) {b : EqualityBinding} (hb : w.equality? id = some b) :
    ∃ x, w'.equality? id = some { b with value := x } := by
  rcases h.bindings id with hsame | ⟨k, hk, hid, b₀, x, hb₀, hb'⟩
  · refine ⟨b.value, ?_⟩
    rw [World.equality?_eq_some, hsame, ← World.equality?_eq_some]
    exact hb
  · cases hb.symm.trans hb₀
    exact ⟨x, hb'⟩

theorem spread_chains (L : List Link) (v : Value) : Chains (Spread L v) where
  refl w := {
    handlers := rfl
    next := rfl
    offers := fun _ => rfl
    bindings := fun _ => .inl rfl
    reached := fun _ _ h => h
    settled := fun _ _ h => h
    untouched := fun _ _ _ => ⟨rfl, rfl, rfl⟩
    given := Nat.le_refl _ }
  trans {w w' w''} h h' := {
    handlers := h'.handlers.trans h.handlers
    next := h'.next.trans h.next
    offers := fun o => (h'.offers o).trans (h.offers o)
    bindings := fun id => by
      rcases h'.bindings id with hsame | ⟨k, hk, hid, b', x, hb', hb''⟩
      · rcases h.bindings id with hsame₀ | ⟨k, hk, hid, b, x, hb, hb'⟩
        · exact .inl (hsame.trans hsame₀)
        · refine .inr ⟨k, hk, hid, b, x, hb, ?_⟩
          rw [World.equality?_eq_some, hsame, ← World.equality?_eq_some]
          exact hb'
      · rcases h.bindings id with hsame₀ | ⟨-, -, -, b, y, hb, hb₁⟩
        · refine .inr ⟨k, hk, hid, b', x, ?_, hb''⟩
          rw [World.equality?_eq_some, ← hsame₀, ← World.equality?_eq_some]
          exact hb'
        · cases hb'.symm.trans hb₁
          exact .inr ⟨k, hk, hid, b, x, hb, hb''⟩
    reached := fun o s hs => h'.reached o s (h.reached o s hs)
    settled := fun k hk hs => h'.settled k hk (h.settled k hk hs)
    untouched := fun k hk hp => by
      obtain ⟨hb', hl', hr'⟩ := h'.untouched k hk hp
      have hp' : k.pending v w' = true := (Link.pending_congr hb').symm.trans hp
      obtain ⟨hb, hl, hr⟩ := h.untouched k hk hp'
      exact ⟨hb'.trans hb, hl'.trans hl, hr'.trans hr⟩
    given := Nat.le_trans h'.given h.given }

theorem Spread.of_alike (h : w.Alike w') : Spread L v w w' where
  handlers := h.handlers
  next := h.next
  offers o := by
    unfold World.object
    rw [h.objects]
  bindings id := .inl (by rw [h.bindings])
  reached o s hs := by
    rw [h.slot]
    exact hs
  settled k _ hp := (Link.pending_congr (h.equality? k.id)).trans hp
  untouched k _ _ := ⟨h.equality? k.id, h.slot _ _, h.slot _ _⟩
  given := by
    have hp : Link.pending v w' = Link.pending v w := funext fun k => Link.pending_congr (h.equality? k.id)
    exact Nat.le_of_eq (by rw [h.assignments, hp])

theorem Kept.alike (hk : Kept L v w) (h : w.Alike w') : Kept L v w' := by
  intro k hm b hb hd hs
  rw [h.equality?] at hb
  obtain ⟨hl, hr⟩ := hk k hm b hb hd hs
  unfold Endpoint.value at hl hr ⊢
  rw [h.slot, h.slot]
  exact ⟨hl, hr⟩

theorem Network.Wired.spread (h : N.Wired L w) (hs : Spread L v w w')
    (hfits : ∀ e ∈ N.ends, (e.value w').Fits N.platform.types N.type) : N.Wired L w' where
  ends := h.ends
  distinct := h.distinct
  fits := hfits
  offers e he := (hs.offers e.object.name).trans (h.offers e he)
  handlers o g hg := by
    unfold World.handlersOf at hg
    rw [hs.handlers] at hg
    exact h.handlers o g hg
  bound k hk := by
    obtain ⟨b, hb, hbound⟩ := h.bound k hk
    obtain ⟨x, hb'⟩ := hs.equality? k.id hb
    refine ⟨_, hb', hbound.dispatcher, hbound.recurring, fun hd e e' hc => ?_⟩
    unfold World.handlersOf
    rw [hs.handlers]
    exact hbound.listens hd e e' hc

theorem Network.Wired.alike (h : N.Wired L w) (ha : w.Alike w') : N.Wired L w' := by
  refine h.spread (v := .null) (.of_alike ha) fun e he => ?_
  unfold Endpoint.value
  rw [ha.slot]
  exact h.fits e he

end

end DataBinding
