import DataBinding.Event.HandlerList

/-!
# Interleaved handler lists

The list of an event holds the handlers of two parties, each in its own order. Whichever party adds a handler adds it at
the end, and removing a handler that only one party has is no business of the other one.
-/

namespace DataBinding

def HandlerList.remove (hs : List Handler) (g : Handler) : List Handler := (removeLatest? g.id hs).getD hs

theorem HandlerList.remove_subset (hs : List Handler) (g : Handler) : remove hs g ⊆ hs := by
  unfold remove
  cases hr : removeLatest? g.id hs with
  | none => exact List.Subset.refl _
  | some rest =>
    obtain ⟨pre, g', post, rfl, -, -, rfl⟩ := (removeLatest?_eq_some_iff _ _ _).mp hr
    intro x hx
    rcases List.mem_append.mp hx with hx | hx
    · exact List.mem_append_left _ hx
    · exact List.mem_append_right _ (List.mem_cons_of_mem _ hx)

theorem HandlerList.remove_append_cons {pre post : List Handler} {g : Handler} (hpost : ∀ y ∈ post, y.id ≠ g.id) :
    remove (pre ++ g :: post) g = pre ++ post := by
  unfold remove
  rw [(removeLatest?_eq_some_iff g.id _ (pre ++ post)).mpr ⟨pre, g, post, rfl, rfl, hpost, rfl⟩]
  rfl

theorem HandlerList.foldl_remove {pre gs post : List Handler} (hnodup : (gs.map Handler.id).Nodup)
    (hpost : ∀ y ∈ post, ∀ g ∈ gs, y.id ≠ g.id) : gs.foldl remove (pre ++ gs ++ post) = pre ++ post := by
  -- The latest occurrence is removed, so numbers in front of these handlers do not matter.
  induction gs with
  | nil => simp
  | cons g gs ih =>
    rw [List.map_cons, List.nodup_cons] at hnodup
    have hfirst : remove (pre ++ g :: gs ++ post) g = pre ++ gs ++ post := by
      rw [List.append_assoc, List.cons_append, List.append_assoc]
      apply remove_append_cons
      intro y hy he
      rcases List.mem_append.mp hy with hy | hy
      · exact hnodup.1 (List.mem_map.mpr ⟨y, hy, he⟩)
      · exact hpost y hy g List.mem_cons_self he
    rw [List.foldl_cons, hfirst]
    exact ih hnodup.2 fun y hy g' hg' => hpost y hy g' (List.mem_cons_of_mem _ hg')

theorem HandlerList.countP_remove (g : Handler) (hs : List Handler) (i : Nat) :
    (remove hs g).countP (·.id = i) = hs.countP (·.id = i) - [g].countP (·.id = i) := by
  unfold remove
  cases hr : removeLatest? g.id hs with
  | none =>
    have habsent := (removeLatest?_eq_none_iff g.id hs).mp hr
    by_cases hi : g.id = i
    · subst hi
      have hzero : hs.countP (·.id = g.id) = 0 := by simpa [List.countP_eq_zero] using habsent
      simp [hzero]
    · simp [hi]
  | some rest =>
    obtain ⟨pre, g', post, rfl, hid, -, rfl⟩ := (removeLatest?_eq_some_iff g.id hs rest).mp hr
    simp [List.countP_cons, hid]
    omega

/-- Of the handlers with a number, as many go as are taken away. -/
theorem HandlerList.countP_foldl_remove (gs hs : List Handler) (i : Nat) :
    (gs.foldl remove hs).countP (·.id = i) = hs.countP (·.id = i) - gs.countP (·.id = i) := by
  induction gs generalizing hs with
  | nil => simp
  | cons g gs ih =>
    rw [List.foldl_cons, ih, countP_remove, Nat.sub_sub, ← List.countP_append, List.singleton_append]

/-- The last list has the handlers of the first two, each in its order. -/
inductive Interleaves : List Handler → List Handler → List Handler → Prop where
  | nil : Interleaves [] [] []
  | left {xs ys hs : List Handler} (x : Handler) (h : Interleaves xs ys hs) : Interleaves (x :: xs) ys (x :: hs)
  | right {xs ys hs : List Handler} (y : Handler) (h : Interleaves xs ys hs) : Interleaves xs (y :: ys) (y :: hs)

namespace Interleaves

variable {xs ys hs : List Handler}

theorem symm (h : Interleaves xs ys hs) : Interleaves ys xs hs := by
  induction h with
  | nil => exact .nil
  | left x _ ih => exact .right x ih
  | right y _ ih => exact .left y ih

theorem perm (h : Interleaves xs ys hs) : hs.Perm (xs ++ ys) := by
  induction h with
  | nil => exact .nil
  | left x _ ih => exact ih.cons x
  | right y _ ih => exact (ih.cons y).trans List.perm_middle.symm

theorem append_left (h : Interleaves xs ys hs) (x : Handler) : Interleaves (xs ++ [x]) ys (hs ++ [x]) := by
  induction h with
  | nil => exact .left x .nil
  | left x' _ ih => exact .left x' ih
  | right y _ ih => exact .right y ih

theorem append_right (h : Interleaves xs ys hs) (zs : List Handler) : Interleaves xs (ys ++ zs) (hs ++ zs) := by
  induction zs generalizing ys hs with
  | nil => simpa using h
  | cons z zs ih => simpa using ih (h.symm.append_left z).symm

theorem remove_left (h : Interleaves xs ys hs) {g : Handler} (hg : ∀ y ∈ ys, y.id ≠ g.id) :
    Interleaves (HandlerList.remove xs g) ys (HandlerList.remove hs g) := by
  -- What is removed is the latest occurrence, while the interleaving is read from the front; so whether there is one
  -- further back has to be part of what the induction shows.
  suffices hboth : (HandlerList.removeLatest? g.id xs = none ∧ HandlerList.removeLatest? g.id hs = none) ∨
      ∃ xs' hs', HandlerList.removeLatest? g.id xs = some xs' ∧ HandlerList.removeLatest? g.id hs = some hs' ∧
        Interleaves xs' ys hs' by
    unfold HandlerList.remove
    rcases hboth with ⟨hx, hh⟩ | ⟨xs', hs', hx, hh, h'⟩
    · rw [hx, hh]
      exact h
    · rw [hx, hh]
      exact h'
  induction h with
  | nil => exact .inl ⟨rfl, rfl⟩
  | @left xs ys hs x h ih =>
    rcases ih hg with ⟨hx, hh⟩ | ⟨xs', hs', hx, hh, h'⟩
    · by_cases hid : x.id = g.id
      · exact .inr ⟨xs, hs, by simp [HandlerList.removeLatest?, hx, hid], by simp [HandlerList.removeLatest?, hh, hid], h⟩
      · exact .inl ⟨by simp [HandlerList.removeLatest?, hx, hid], by simp [HandlerList.removeLatest?, hh, hid]⟩
    · exact .inr ⟨x :: xs', x :: hs', by simp [HandlerList.removeLatest?, hx], by simp [HandlerList.removeLatest?, hh],
        .left x h'⟩
  | @right xs ys hs y h ih =>
    have hy : y.id ≠ g.id := hg y List.mem_cons_self
    rcases ih (fun z hz => hg z (List.mem_cons_of_mem _ hz)) with ⟨hx, hh⟩ | ⟨xs', hs', hx, hh, h'⟩
    · exact .inl ⟨hx, by simp [HandlerList.removeLatest?, hh, hy]⟩
    · exact .inr ⟨xs', y :: hs', hx, by simp [HandlerList.removeLatest?, hh], .right y h'⟩

end Interleaves

/-- A handler whose number occurs once is what is removed. -/
theorem HandlerList.remove_perm {hs rest : List Handler} {g : Handler} (h : hs.Perm (g :: rest))
    (hg : ∀ y ∈ rest, y.id ≠ g.id) : (HandlerList.remove hs g).Perm rest := by
  unfold HandlerList.remove
  cases hr : removeLatest? g.id hs with
  | none =>
    exact absurd rfl ((removeLatest?_eq_none_iff g.id hs).mp hr g (h.mem_iff.mpr List.mem_cons_self))
  | some hs' =>
    obtain ⟨pre, g', post, rfl, hid, -, rfl⟩ := (removeLatest?_eq_some_iff g.id hs hs').mp hr
    have hsame : g' = g := by
      rcases List.mem_cons.mp (h.mem_iff.mp (by simp : g' ∈ pre ++ g' :: post)) with he | hmem
      · exact he
      · exact absurd hid (hg g' hmem)
    subst hsame
    exact (List.perm_middle.symm.trans h).cons_inv

/-- The list of an event as two parties have it: the first keeps its order, the second does not care. -/
def Shared (xs ys hs : List Handler) : Prop := ∃ zs, Interleaves xs zs hs ∧ zs.Perm ys

namespace Shared

variable {xs ys zs hs : List Handler}

theorem perm (h : Shared xs ys hs) : hs.Perm (xs ++ ys) := by
  obtain ⟨zs, hi, hp⟩ := h
  exact hi.perm.trans (hp.append_left xs)

theorem congr (h : Shared xs ys hs) (hp : ys.Perm zs) : Shared xs zs hs := by
  obtain ⟨us, hi, hp'⟩ := h
  exact ⟨us, hi, hp'.trans hp⟩

theorem append_left (h : Shared xs ys hs) (x : Handler) : Shared (xs ++ [x]) ys (hs ++ [x]) := by
  obtain ⟨us, hi, hp⟩ := h
  exact ⟨us, hi.append_left x, hp⟩

theorem append_right (h : Shared xs ys hs) (zs : List Handler) : Shared xs (ys ++ zs) (hs ++ zs) := by
  obtain ⟨us, hi, hp⟩ := h
  exact ⟨us ++ zs, hi.append_right zs, hp.append_right zs⟩

theorem remove_left (h : Shared xs ys hs) {g : Handler} (hg : ∀ y ∈ ys, y.id ≠ g.id) :
    Shared (HandlerList.remove xs g) ys (HandlerList.remove hs g) := by
  obtain ⟨us, hi, hp⟩ := h
  exact ⟨us, hi.remove_left fun y hy => hg y (hp.mem_iff.mp hy), hp⟩

theorem remove_right {g : Handler} (h : Shared xs (g :: ys) hs) (hx : ∀ x ∈ xs, x.id ≠ g.id)
    (hy : ∀ y ∈ ys, y.id ≠ g.id) : Shared xs ys (HandlerList.remove hs g) := by
  obtain ⟨us, hi, hp⟩ := h
  exact ⟨HandlerList.remove us g, (hi.symm.remove_left hx).symm, HandlerList.remove_perm hp hy⟩

theorem removeAll_right {gs : List Handler} (h : Shared xs (gs ++ ys) hs) (hx : ∀ x ∈ xs, ∀ g ∈ gs, x.id ≠ g.id)
    (hnodup : ((gs ++ ys).map Handler.id).Nodup) : Shared xs ys (gs.foldl HandlerList.remove hs) := by
  induction gs generalizing hs with
  | nil => exact h
  | cons g gs ih =>
    rw [List.cons_append, List.map_cons, List.nodup_cons] at hnodup
    apply ih
    · apply Shared.remove_right h (fun x hm => hx x hm g List.mem_cons_self)
      intro y hy he
      exact hnodup.1 (List.mem_map.mpr ⟨y, hy, he⟩)
    · exact fun x hm g' hg' => hx x hm g' (List.mem_cons_of_mem _ hg')
    · exact hnodup.2

end Shared

end DataBinding
