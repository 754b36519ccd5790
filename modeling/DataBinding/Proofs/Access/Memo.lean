import DataBinding.Proofs.Table

/-!
# Remembered answers

A table remembers what was made for its keys (`memo`). If it holds for its keys what is right for them, it answers as an
empty one does (`Sound.memo`). The entry of a key, once there, stays at its place and is the only one of that key
(`At.memo`).
-/

namespace DataBinding.Table

variable {κ α ε : Type} [DecidableEq κ] {t : Table κ α} {k k' : κ} {a : α} {i : Nat} {made : Except ε α}

/-- The value of a key: the one in the table, or else the one that is made. If one is made, it is added. -/
def memo (t : Table κ α) (k : κ) (made : Except ε α) : Except ε α × Table κ α :=
  match t.find? k with
  | some a => (.ok a, t)
  | none =>
    match made with
    | .ok a => (.ok a, t.insert k a)
    | .error e => (.error e, t)

theorem memo_found (h : t.find? k = some a) (made : Except ε α) : t.memo k made = (.ok a, t) := by
  unfold memo
  rw [h]

theorem memo_made (h : t.find? k = none) (a : α) : t.memo k (.ok a : Except ε α) = (.ok a, t.insert k a) := by
  unfold memo
  rw [h]

theorem memo_failed (h : t.find? k = none) (e : ε) : t.memo k (.error e : Except ε α) = (.error e, t) := by
  unfold memo
  rw [h]

theorem memo_error {e : ε} (h : (t.memo k made).1 = .error e) : (t.memo k made).2 = t := by
  cases hf : t.find? k with
  | some a => rw [memo_found hf]
  | none =>
    cases made with
    | error e' => rw [memo_failed hf]
    | ok a =>
      rw [memo_made hf] at h
      cases h

/-! ## Places -/

/-- The one entry of a key is the one at this place. -/
def At (t : Table κ α) (k : κ) (i : Nat) (a : α) : Prop :=
  ∀ j b, t.entries[j]? = some (k, b) ↔ j = i ∧ b = a

theorem getElem?_insert (h : t.find? k = none) (j : Nat) (e : κ × α) :
    (t.insert k a).entries[j]? = some e ↔ t.entries[j]? = some e ∨ j = t.entries.length ∧ e = (k, a) := by
  have hentries : (t.insert k a).entries = t.entries ++ [(k, a)] := insertEntry_of_none h
  rw [hentries]
  rcases Nat.lt_trichotomy j t.entries.length with hj | hj | hj
  · rw [List.getElem?_append_left hj]
    simp [Nat.ne_of_lt hj]
  · subst hj
    simp [eq_comm]
  · rw [List.getElem?_eq_none (by simp; omega), List.getElem?_eq_none (by omega)]
    simp [Nat.ne_of_gt hj]

theorem not_at_of_none (h : t.find? k = none) (j : Nat) (b : α) : t.entries[j]? ≠ some (k, b) := by
  intro hj
  exact lookup_eq_none.mp h (List.mem_map.mpr ⟨_, List.mem_of_getElem? hj, rfl⟩)

theorem At.find? (h : t.At k i a) : t.find? k = some a := by
  cases hf : t.find? k with
  | none => exact absurd ((h i a).mpr ⟨rfl, rfl⟩) (not_at_of_none hf i a)
  | some b =>
    obtain ⟨j, hj⟩ := List.mem_iff_getElem?.mp (mem_entries hf)
    rw [((h j b).mp hj).2]

theorem at_insert (h : t.find? k = none) (a : α) : (t.insert k a).At k t.entries.length a := by
  intro j b
  rw [getElem?_insert h]
  simp [not_at_of_none h j b]

theorem At.memo (h : t.At k i a) (k' : κ) (made : Except ε α) : (t.memo k' made).2.At k i a := by
  cases hf : t.find? k' with
  | some b =>
    rw [memo_found hf]
    exact h
  | none =>
    cases made with
    | error e =>
      rw [memo_failed hf]
      exact h
    | ok b =>
      rw [memo_made hf]
      have hk : k ≠ k' := by
        rintro rfl
        rw [h.find?] at hf
        cases hf
      intro j c
      rw [getElem?_insert hf, h j c]
      simp [hk]

/-! ## Right entries -/

/-- Each key that is found has one entry, and its value is right for it. -/
def Sound (right : κ → α → Prop) (t : Table κ α) : Prop :=
  ∀ k a, t.find? k = some a → right k a ∧ ∃ i, t.At k i a

variable {right : κ → α → Prop}

theorem sound_empty : Sound right (empty : Table κ α) := fun _ _ h => nomatch h

theorem Sound.mono {right' : κ → α → Prop} (h : t.Sound right) (hr : ∀ k a, right k a → right' k a) :
    t.Sound right' :=
  fun k a hf => ⟨hr k a (h k a hf).1, (h k a hf).2⟩

/-- If what is right for the key is what is made, it does not matter that some answers are remembered. -/
theorem Sound.memo (h : t.Sound right) (hmade : ∀ a, right k a ↔ made = .ok a) :
    (t.memo k made).1 = made ∧ (t.memo k made).2.Sound right ∧
      ∀ a, made = .ok a → ∃ i, (t.memo k made).2.At k i a := by
  cases hf : t.find? k with
  | some a =>
    obtain ⟨hright, hat⟩ := h k a hf
    have hok := (hmade a).mp hright
    rw [memo_found hf, hok]
    refine ⟨rfl, h, fun b hb => ?_⟩
    cases hb
    exact hat
  | none =>
    cases made with
    | error e =>
      rw [memo_failed hf]
      exact ⟨rfl, h, fun a ha => nomatch ha⟩
    | ok a =>
      rw [memo_made hf]
      refine ⟨rfl, ?_, fun b hb => ?_⟩
      · intro k' b hb
        by_cases hk : k = k'
        · subst hk
          rw [find?_insert, if_pos rfl] at hb
          cases hb
          exact ⟨(hmade a).mpr rfl, _, at_insert hf a⟩
        · rw [find?_insert, if_neg hk] at hb
          obtain ⟨hright, i, hi⟩ := h k' b hb
          have hat := hi.memo k (.ok a : Except ε α)
          rw [memo_made hf] at hat
          exact ⟨hright, i, hat⟩
      · cases hb
        exact ⟨_, at_insert hf a⟩

end DataBinding.Table
