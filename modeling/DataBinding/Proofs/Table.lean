import DataBinding.Table

/-!
# Laws of tables

What is in a table after an insertion, entry by entry. A key that was not there goes to the end; one that was there
stays at its place.
-/

namespace DataBinding.Table

variable {κ α β : Type} [DecidableEq κ]

theorem lookup_append (xs ys : List (κ × α)) (u : κ) :
    lookup u (xs ++ ys) = (lookup u xs).or (lookup u ys) := by
  induction xs with
  | nil => simp [lookup]
  | cons x xs ih =>
    obtain ⟨t, s⟩ := x
    by_cases h : t = u <;> simp [lookup, h, ih]

theorem lookup_eq_none {entries : List (κ × α)} {u : κ} : lookup u entries = none ↔ u ∉ entries.map Prod.fst := by
  induction entries with
  | nil => simp [lookup]
  | cons x xs ih =>
    obtain ⟨t, s⟩ := x
    by_cases h : t = u
    · simp [lookup, h]
    · simp [lookup, h, ih, Ne.symm h]

theorem mem_entries {t : Table κ α} {k : κ} {a : α} (h : t.find? k = some a) : (k, a) ∈ t.entries := by
  obtain ⟨es⟩ := t
  unfold find? at h
  induction es with
  | nil => cases h
  | cons e es ih =>
    obtain ⟨k', a'⟩ := e
    unfold lookup at h
    split at h
    · rename_i hk
      cases hk
      cases h
      exact List.mem_cons_self
    · exact List.mem_cons_of_mem _ (ih h)

theorem insertEntry_of_none {k : κ} {a : α} {es : List (κ × α)} (h : lookup k es = none) :
    insertEntry k a es = es ++ [(k, a)] := by
  induction es with
  | nil => rfl
  | cons e es ih =>
    obtain ⟨k', b⟩ := e
    by_cases hk : k' = k
    · simp [lookup, hk] at h
    · simp only [lookup, hk, if_false] at h
      simp [insertEntry, hk, ih h]

theorem insert_insert (t : Table κ α) (k : κ) (a b : α) : (t.insert k a).insert k b = t.insert k b := by
  obtain ⟨es⟩ := t
  unfold insert
  congr 1
  induction es with
  | nil => simp [insertEntry]
  | cons e es ih =>
    obtain ⟨k', c⟩ := e
    by_cases h : k' = k
    · simp [insertEntry, h]
    · simp [insertEntry, h, ih]

theorem insert_find? {t : Table κ α} {k : κ} {a : α} (h : t.find? k = some a) : t.insert k a = t := by
  obtain ⟨es⟩ := t
  unfold insert find? at *
  congr 1
  induction es with
  | nil => cases h
  | cons e es ih =>
    obtain ⟨k', c⟩ := e
    by_cases hk : k' = k
    · simp only [lookup, hk, if_true, Option.some.injEq] at h
      simp [insertEntry, hk, h]
    · simp only [lookup, hk, if_false] at h
      simp [insertEntry, hk, ih h]

theorem size_insert (t : Table κ α) (k : κ) (a : α) : t.size ≤ (t.insert k a).size := by
  obtain ⟨es⟩ := t
  unfold size insert
  induction es with
  | nil => exact Nat.zero_le _
  | cons e es ih =>
    obtain ⟨k', a'⟩ := e
    unfold insertEntry
    split
    · exact Nat.le_refl _
    · exact Nat.succ_le_succ ih

theorem mem_insert {t : Table κ α} {k : κ} {a : α} {e : κ × α} (h : e ∈ (t.insert k a).entries) :
    e = (k, a) ∨ e ∈ t.entries := by
  obtain ⟨es⟩ := t
  unfold insert at h
  induction es with
  | nil => simpa [insertEntry] using h
  | cons e' es ih =>
    obtain ⟨k', a'⟩ := e'
    simp only [insertEntry] at h ih
    split at h
    · rcases List.mem_cons.mp h with h | h
      · exact .inl h
      · exact .inr (List.mem_cons_of_mem _ h)
    · rcases List.mem_cons.mp h with h | h
      · exact .inr (h ▸ List.mem_cons_self)
      · exact (ih h).imp id (List.mem_cons_of_mem _)

theorem insert_flatMap (t : Table κ α) (k : κ) (a : α) (f : α → List β) :
    (((t.insert k a).entries.flatMap fun e => f e.2) ++ ((t.find? k).map f).getD []).Perm
      ((t.entries.flatMap fun e => f e.2) ++ f a) := by
  obtain ⟨es⟩ := t
  unfold insert find?
  induction es with
  | nil => simp [insertEntry, lookup]
  | cons e es ih =>
    obtain ⟨k', a'⟩ := e
    by_cases hk : k' = k
    · simp only [insertEntry, lookup, hk, if_true, List.flatMap_cons, Option.map_some, Option.getD_some]
      rw [List.append_assoc (f a')]
      exact List.perm_append_comm.trans (List.perm_append_comm.append_left _)
    · simp only [insertEntry, lookup, hk, if_false, List.flatMap_cons, List.append_assoc]
      exact ih.append_left _

end DataBinding.Table
