import DataBinding.Trigger.Basic

/-!
# Handler lists

The handlers of an event in the order in which they were added. A handler may be there several times;
removing it takes away its latest occurrence and leaves the others where they are
(`removeLatest?_eq_some_iff`).
-/

namespace DataBinding.HandlerList

/-- The list without the latest occurrence of a handler; `none` if it does not occur. -/
def removeLatest? (id : Nat) : List Handler → Option (List Handler)
  | [] => none
  | h :: hs =>
    -- The rest comes first: the head is the latest occurrence only if none is behind it.
    match removeLatest? id hs with
    | some rest => some (h :: rest)
    | none => if h.id = id then some hs else none

theorem removeLatest?_eq_none_iff (id : Nat) (hs : List Handler) :
    removeLatest? id hs = none ↔ ∀ h ∈ hs, h.id ≠ id := by
  induction hs with
  | nil => simp [removeLatest?]
  | cons h hs ih =>
    rw [removeLatest?]
    cases hr : removeLatest? id hs with
    | some rest => simp [← ih, hr]
    | none => simp [← ih, hr]

/-- What is removed is followed by no other occurrence. -/
theorem removeLatest?_eq_some_iff (id : Nat) (hs rest : List Handler) :
    removeLatest? id hs = some rest ↔
      ∃ pre h post, hs = pre ++ h :: post ∧ h.id = id ∧ (∀ g ∈ post, g.id ≠ id) ∧ rest = pre ++ post := by
  induction hs generalizing rest with
  | nil => simp [removeLatest?]
  | cons g gs ih =>
    rw [removeLatest?]
    cases hr : removeLatest? id gs with
    | some rs =>
      obtain ⟨pre, h, post, rfl, hid, hpost, rfl⟩ := (ih rs).mp hr
      constructor
      · intro e
        exact ⟨g :: pre, h, post, rfl, hid, hpost, (Option.some.inj e).symm⟩
      · rintro ⟨pre', h', post', e, hid', hpost', rfl⟩
        cases pre' with
        | nil =>
          obtain ⟨rfl, rfl⟩ := List.cons.inj e
          exact absurd hid (hpost' h (by simp))
        | cons g' pre' =>
          obtain ⟨rfl, htail⟩ := List.cons.inj e
          rw [(ih (pre' ++ post')).mpr ⟨pre', h', post', htail, hid', hpost', rfl⟩] at hr
          rw [← Option.some.inj hr]
          rfl
    | none =>
      have absent := (removeLatest?_eq_none_iff id gs).mp hr
      constructor
      · intro e
        by_cases hg : g.id = id
        · simp only [if_pos hg] at e
          exact ⟨[], g, gs, rfl, hg, absent, (Option.some.inj e).symm⟩
        · simp [hg] at e
      · rintro ⟨pre', h', post', e, hid', hpost', rfl⟩
        cases pre' with
        | nil =>
          obtain ⟨rfl, rfl⟩ := List.cons.inj e
          simp [hid']
        | cons g' pre' =>
          obtain ⟨rfl, rfl⟩ := List.cons.inj e
          exact absurd hid' (absent h' (by simp))

/-- The latest occurrence is looked for in the second part first. -/
theorem removeLatest?_append (id : Nat) (hs gs : List Handler) :
    removeLatest? id (hs ++ gs) =
      match removeLatest? id gs with
      | some rest => some (hs ++ rest)
      | none => (removeLatest? id hs).map (· ++ gs) := by
  induction hs with
  | nil => cases hg : removeLatest? id gs <;> simp [removeLatest?, hg]
  | cons h hs ih =>
    rw [List.cons_append, removeLatest?, ih, removeLatest?]
    cases hg : removeLatest? id gs with
    | some rest => rfl
    | none =>
      cases hr : removeLatest? id hs with
      | some rest => rfl
      | none =>
        simp only [Option.map_none]
        split <;> rfl

theorem removeLatest?_cons_of_ne {id : Nat} {h : Handler} (hne : h.id ≠ id) (hs : List Handler) :
    removeLatest? id (h :: hs) = (removeLatest? id hs).map (h :: ·) := by
  rw [removeLatest?]
  cases hr : removeLatest? id hs with
  | some rest => rfl
  | none => simp [hne]

end DataBinding.HandlerList
