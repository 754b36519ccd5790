import Mathlib.Logic.Relation
import DataBinding.Access.Delegate
import DataBinding.Proofs.Access.Cache
import DataBinding.Proofs.Access.Memo
import DataBinding.Proofs.Schema.Declare

/-!
# Lookups through shared caches

The caches of accessors and delegates live as long as the program, and types are declared while they fill. A lookup
through them answers as it does on empty caches, whatever was looked up before; what it has found once is one entry,
which is never replaced and answers the same lookup from then on (`lookups_transparent`).
-/

namespace DataBinding

/-- The two caches, and the types that are declared by then. -/
structure Caches where
  types : TypeTable := {}
  accessors : AccessorCache := {}
  delegates : DelegateCache := {}

inductive Lookup where
  | accessor (m : Member) (t : TypeId)
  | delegate (m : Method) (t : TypeId)

namespace Lookup

/-- What is looked up has been declared, and so has the type of the receivers. -/
def Known (types : TypeTable) : Lookup → Prop
  | accessor m t => m ∈ types.declaredMembers m.id.owner ∧ t.index < types.next.index
  | delegate m t => m ∈ types.declaredMethods m.id.owner ∧ t.index < types.next.index

def run (s : Caches) : Lookup → Except Error (Accessor ⊕ Delegate) × Caches
  | accessor m t =>
    let (a, cache) := s.accessors.find s.types m t
    (.ok (.inl a), { s with accessors := cache })
  | delegate m t =>
    let (d, cache) := s.delegates.find s.types m t
    (d.map .inr, { s with delegates := cache })

theorem run_accessor (s : Caches) (m : Member) (t : TypeId) :
    (accessor m t).run s =
      (.ok (.inl (s.accessors.find s.types m t).1), { s with accessors := (s.accessors.find s.types m t).2 }) :=
  rfl

theorem run_delegate (s : Caches) (m : Method) (t : TypeId) :
    (delegate m t).run s =
      ((s.delegates.find s.types m t).1.map .inr, { s with delegates := (s.delegates.find s.types m t).2 }) :=
  rfl

/-- What a lookup has to find. -/
def made (types : TypeTable) : Lookup → Except Error (Accessor ⊕ Delegate)
  | accessor m t => .ok (.inl (Accessor.on types m t))
  | delegate m t => (Delegate.on types m t).map .inr

end Lookup

namespace Caches

/-- The one entry for a lookup is the one at this place. -/
def Holds (s : Caches) : Lookup → Nat → Accessor ⊕ Delegate → Prop
  | .accessor m t, i, .inl a => s.accessors.entries.At (m.id, t) i a
  | .delegate m t, i, .inr d => s.delegates.entries.At (m.id, t) i d
  | _, _, _ => False

/-- What happens in the course of time: a type is declared, or something is looked up. -/
inductive Step : Caches → Caches → Prop where
  | declare (s : Caches) (info : TypeInfo) : Step s { s with types := s.types.declare info }
  | lookup (s : Caches) (q : Lookup) (hq : q.Known s.types) : Step s (q.run s).2

abbrev Later : Caches → Caches → Prop := Relation.ReflTransGen Step

end Caches

/-! ## Entries are right -/

theorem AccessorCache.memo_eq (types : TypeTable) (cache : AccessorCache) (m : Member) (t : TypeId) :
    cache.entries.memo (m.id, t) (.ok (Accessor.on types m t) : Except Error Accessor) =
      (.ok (cache.find types m t).1, (cache.find types m t).2.entries) := by
  unfold find
  cases hf : cache.entries.find? (m.id, t) with
  | some a => rw [Table.memo_found hf]
  | none => rw [Table.memo_made hf]

theorem DelegateCache.memo_eq (types : TypeTable) (cache : DelegateCache) (m : Method) (t : TypeId) :
    cache.entries.memo (m.id, t) (Delegate.on types m t) =
      ((cache.find types m t).1, (cache.find types m t).2.entries) := by
  unfold find
  cases hf : cache.entries.find? (m.id, t) with
  | some a => rw [Table.memo_found hf]
  | none =>
    cases hd : Delegate.on types m t with
    | ok d => rw [Table.memo_made hf]
    | error e => rw [Table.memo_failed hf]

namespace TypeTable

variable {types : TypeTable} {info : TypeInfo} {m : Member} {f : Method} {t : TypeId} {k : DeclId × TypeId}

def AccessorOf (types : TypeTable) (k : DeclId × TypeId) (a : Accessor) : Prop :=
  ∃ m ∈ types.declaredMembers k.1.owner, m.id = k.1 ∧ k.2.index < types.next.index ∧ Accessor.on types m k.2 = a

def DelegateOf (types : TypeTable) (k : DeclId × TypeId) (d : Delegate) : Prop :=
  ∃ m ∈ types.declaredMethods k.1.owner, m.id = k.1 ∧ k.2.index < types.next.index ∧ Delegate.on types m k.2 = .ok d

theorem accessorOf_iff (hm : m ∈ types.declaredMembers m.id.owner) (ht : t.index < types.next.index) (a : Accessor) :
    types.AccessorOf (m.id, t) a ↔ (.ok (Accessor.on types m t) : Except Error Accessor) = .ok a := by
  constructor
  · rintro ⟨n, hn, hid, -, rfl⟩
    rw [declaredMember_ext hn hm hid]
  · intro h
    exact ⟨m, hm, rfl, ht, Except.ok.inj h⟩

theorem delegateOf_iff (hf : f ∈ types.declaredMethods f.id.owner) (ht : t.index < types.next.index) (d : Delegate) :
    types.DelegateOf (f.id, t) d ↔ Delegate.on types f t = .ok d := by
  constructor
  · rintro ⟨n, hn, hid, -, hd⟩
    rw [← declaredMethod_ext hn hf hid]
    exact hd
  · intro h
    exact ⟨f, hf, rfl, ht, h⟩

theorem AccessorOf.declare {a : Accessor} (h : types.AccessorOf k a) : (types.declare info).AccessorOf k a := by
  obtain ⟨m, hm, hid, ht, rfl⟩ := h
  refine ⟨m, ?_, hid, Nat.lt_succ_of_lt ht, ?_⟩
  · rw [declaredMembers_declare (lt_of_declaredMember hm)]
    exact hm
  · unfold Accessor.on Accessor.resolve
    rw [member?_declare ht, isValueType_declare ht]

theorem DelegateOf.declare {d : Delegate} (h : types.DelegateOf k d) : (types.declare info).DelegateOf k d := by
  obtain ⟨m, hm, hid, ht, hd⟩ := h
  refine ⟨m, ?_, hid, Nat.lt_succ_of_lt ht, ?_⟩
  · rw [declaredMethods_declare (lt_of_declaredMethod hm)]
    exact hm
  · have hresolve : Delegate.resolve (types.declare info) m k.2 = Delegate.resolve types m k.2 := by
      unfold Delegate.resolve
      rw [override_declare ht]
    simp only [Delegate.on, hresolve] at hd ⊢
    split at hd
    · rename_i hs
      rw [if_pos hs]
      exact hd
    · cases hd

end TypeTable

namespace Caches

variable {s s' : Caches} {q : Lookup} {found : Accessor ⊕ Delegate} {i : Nat}

/-- Both caches hold what belongs under their keys. -/
structure Sound (s : Caches) : Prop where
  accessors : s.accessors.entries.Sound s.types.AccessorOf
  delegates : s.delegates.entries.Sound s.types.DelegateOf

theorem sound_empty (types : TypeTable) : Sound { types := types } := ⟨Table.sound_empty, Table.sound_empty⟩

theorem Sound.run (h : s.Sound) (hq : q.Known s.types) :
    (q.run s).1 = q.made s.types ∧ (q.run s).2.Sound ∧
      ∀ found, (q.run s).1 = .ok found → ∃ i, (q.run s).2.Holds q i found := by
  cases q with
  | accessor m t =>
    have hmemo := h.accessors.memo (TypeTable.accessorOf_iff hq.1 hq.2)
    rw [AccessorCache.memo_eq] at hmemo
    obtain ⟨hmade, hsound, hat⟩ := hmemo
    refine ⟨?_, ⟨hsound, h.delegates⟩, fun found hfound => ?_⟩
    · rw [Lookup.run_accessor, Except.ok.inj hmade]
      rfl
    · cases hfound
      exact hat _ hmade.symm
  | delegate m t =>
    have hmemo := h.delegates.memo (TypeTable.delegateOf_iff hq.1 hq.2)
    rw [DelegateCache.memo_eq] at hmemo
    obtain ⟨hmade, hsound, hat⟩ := hmemo
    have hanswer : (Lookup.run s (.delegate m t)).1 = (Lookup.delegate m t).made s.types := by
      rw [Lookup.run_delegate]
      exact congrArg (Except.map Sum.inr) hmade
    refine ⟨hanswer, ⟨h.accessors, hsound⟩, fun found hfound => ?_⟩
    rw [hanswer, Lookup.made] at hfound
    cases hd : Delegate.on s.types m t with
    | error e =>
      rw [hd] at hfound
      cases hfound
    | ok d =>
      rw [hd] at hfound
      cases hfound
      exact hat d hd

theorem Step.sound (h : Step s s') (hs : s.Sound) : s'.Sound := by
  cases h with
  -- What was right for the types that were there is right for one more.
  | declare info =>
    exact ⟨hs.accessors.mono fun _ _ => TypeTable.AccessorOf.declare,
      hs.delegates.mono fun _ _ => TypeTable.DelegateOf.declare⟩
  | lookup q hq => exact (hs.run hq).2.1

theorem Later.sound (h : Later s s') (hs : s.Sound) : s'.Sound := by
  induction h with
  | refl => exact hs
  | tail _ hstep ih => exact hstep.sound ih

/-! ## Entries stay -/

theorem Holds.run (h : s.Holds q i found) (q' : Lookup) : (q'.run s).2.Holds q i found := by
  cases q' with
  | accessor m' t' =>
    cases q with
    | accessor m t =>
      cases found with
      | inl a =>
        have hat := Table.At.memo h (m'.id, t') (.ok (Accessor.on s.types m' t') : Except Error Accessor)
        rw [AccessorCache.memo_eq] at hat
        exact hat
      | inr d => exact h
    | delegate m t => cases found <;> exact h
  | delegate m' t' =>
    cases q with
    | accessor m t => cases found <;> exact h
    | delegate m t =>
      cases found with
      | inl a => exact h
      | inr d =>
        have hat := Table.At.memo h (m'.id, t') (Delegate.on s.types m' t')
        rw [DelegateCache.memo_eq] at hat
        exact hat

theorem Step.holds (h : Step s s') (hs : s.Holds q i found) : s'.Holds q i found := by
  cases h with
  -- Declaring a type does not touch the caches.
  | declare info => cases q <;> cases found <;> exact hs
  | lookup q' hq => exact hs.run q'

theorem Later.holds (h : Later s s') (hs : s.Holds q i found) : s'.Holds q i found := by
  induction h with
  | refl => exact hs
  | tail _ hstep ih => exact hstep.holds ih

theorem Holds.answers (h : s.Holds q i found) : q.run s = (.ok found, s) := by
  cases q with
  | accessor m t =>
    cases found with
    | inl a =>
      have hfind : s.accessors.find s.types m t = (a, s.accessors) := by
        unfold AccessorCache.find
        rw [Table.At.find? h]
      rw [Lookup.run_accessor, hfind]
    | inr d => cases h
  | delegate m t =>
    cases found with
    | inl a => cases h
    | inr d =>
      have hfind : s.delegates.find s.types m t = (.ok d, s.delegates) := by
        unfold DelegateCache.find
        rw [Table.At.find? h]
      rw [Lookup.run_delegate, hfind]
      rfl

theorem run_error {e : Error} (h : (q.run s).1 = .error e) : (q.run s).2 = s := by
  cases q with
  | accessor m t => cases h
  | delegate m t =>
    rw [Lookup.run_delegate] at h ⊢
    cases hf : (s.delegates.find s.types m t).1 with
    | ok d =>
      rw [hf] at h
      cases h
    | error e' =>
      have hmemo := DelegateCache.memo_eq s.types s.delegates m t
      have hsame := Table.memo_error (by rw [hmemo]; exact hf)
      rw [hmemo] at hsame
      rw [show (s.delegates.find s.types m t).2 = s.delegates from congrArg DelegateCache.mk hsame]

end Caches

/-- After any lookups, between which types may have been declared, a lookup gives what it gives on empty caches. One that
fails adds nothing. One that finds something has one entry, which stays at its place and answers the lookup whenever it is
repeated. -/
theorem lookups_transparent {s : Caches} (hs : Caches.Later {} s) {q : Lookup} (hq : q.Known s.types) :
    (q.run s).1 = (q.run { types := s.types }).1 ∧
    (∀ e, (q.run s).1 = .error e → (q.run s).2 = s) ∧
    (∀ found, (q.run s).1 = .ok found →
      ∃ i, ∀ s', Caches.Later (q.run s).2 s' → s'.Holds q i found ∧ q.run s' = (.ok found, s')) := by
  have hsound := hs.sound (Caches.sound_empty {})
  obtain ⟨hanswer, -, hentry⟩ := hsound.run hq
  refine ⟨?_, fun e => Caches.run_error, fun found hfound => ?_⟩
  · rw [hanswer, ((Caches.sound_empty s.types).run hq).1]
  · obtain ⟨i, hi⟩ := hentry found hfound
    exact ⟨i, fun s' hlater => ⟨hlater.holds hi, (hlater.holds hi).answers⟩⟩

/-! ## Mills -/

namespace Mills

def mill : TypeInfo :=
  { name := "Mill", members := [⟨"Speed", .property, .int, false, some (.slot "speed"), none⟩]
    methods := [⟨"Feed", [⟨"grain", .object, true⟩], none, true, .object, {}⟩] }

def slowMill : TypeInfo :=
  { name := "SlowMill", base := some ⟨5⟩, members := [⟨"Speed", .property, .int, false, some (.slot "pace"), none⟩] }

def speed : Member := { mill.members[0] with id := ⟨⟨5⟩, 0⟩ }

def pace : Member := { slowMill.members[0] with id := ⟨⟨6⟩, 0⟩ }

/-- Grain is taken by reference, so there is no delegate. -/
def feed : Method := { mill.methods[0] with id := ⟨⟨5⟩, 0⟩ }

/-- The speed of mills and their feed were looked up, and only then slow mills were declared. -/
def filled : Caches :=
  ((Lookup.delegate feed ⟨5⟩).run ((Lookup.accessor speed ⟨5⟩).run { types := ⟨[mill]⟩ }).2).2

def grown : Caches := { filled with types := filled.types.declare slowMill }

theorem grown_later : Caches.Later {} grown := by
  have hdeclared := Relation.ReflTransGen.single (Caches.Step.declare {} mill)
  have hspeed := hdeclared.tail (.lookup _ (.accessor speed ⟨5⟩) ⟨.head _, by decide⟩)
  have hfeed := hspeed.tail (.lookup _ (.delegate feed ⟨5⟩) ⟨.head _, by decide⟩)
  exact hfeed.tail (.declare _ slowMill)

/-- The speed of slow mills is looked up for them; what was found for mills does not matter. -/
theorem grown_transparent :
    (Lookup.delegate feed ⟨6⟩).Known grown.types ∧ (Lookup.accessor speed ⟨6⟩).Known grown.types ∧
      ((Lookup.delegate feed ⟨6⟩).run grown).2 = grown ∧
      ((Lookup.accessor speed ⟨6⟩).run grown).1 = ((Lookup.accessor speed ⟨6⟩).run { types := grown.types }).1 ∧
      ∃ i, ∀ s', Caches.Later ((Lookup.accessor speed ⟨6⟩).run grown).2 s' →
        s'.Holds (.accessor speed ⟨6⟩) i (.inl ⟨pace, false⟩) ∧
          (Lookup.accessor speed ⟨6⟩).run s' = (.ok (.inl ⟨pace, false⟩), s') := by
  have hfeed : (Lookup.delegate feed ⟨6⟩).Known grown.types := ⟨.head _, by decide⟩
  have hspeed : (Lookup.accessor speed ⟨6⟩).Known grown.types := ⟨.head _, by decide⟩
  obtain ⟨-, hfails, -⟩ := lookups_transparent grown_later hfeed
  obtain ⟨hanswer, -, hentry⟩ := lookups_transparent grown_later hspeed
  exact ⟨hfeed, hspeed, hfails _ rfl, hanswer, hentry _ rfl⟩

end Mills

end DataBinding
