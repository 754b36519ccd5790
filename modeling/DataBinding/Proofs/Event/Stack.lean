import DataBinding.Event.Raise
import DataBinding.Proofs.Effect

/-!
# Stack discipline of handler lists

An event has its handlers in the order in which they came, and removing a handler takes away the occurrence of it that
came last, so that whatever is added and removed in between does not matter to a handler that it does not mention
(`handlers_stacked`).
-/

namespace DataBinding

open Effect

namespace HandlerList

/-- A handler is added to a list or removed from it. -/
inductive Change where
  | add (h : Handler)
  | remove (h : Handler)

namespace Change

def handler : Change → Handler
  | add h => h
  | remove h => h

def adds (id : Nat) : Change → Bool
  | add h => h.id = id
  | remove _ => false

def removes (id : Nat) : Change → Bool
  | add _ => false
  | remove h => h.id = id

def perform (k : EventKey) : Change → Effect Bool
  | add h => do
    addHandler k h
    return true
  | remove h => removeHandler k h.id

def performAll (k : EventKey) : List Change → Effect (List Bool)
  | [] => pure []
  | c :: cs => do
    let found ← c.perform k
    let answers ← performAll k cs
    return found :: answers

def apply (hs : List Handler) : Change → Bool × List Handler
  | add h => (true, hs ++ [h])
  | remove h =>
    match removeLatest? h.id hs with
    | some rest => (true, rest)
    | none => (false, hs)

def applyAll (hs : List Handler) : List Change → List Bool × List Handler
  | [] => ([], hs)
  | c :: cs => ((c.apply hs).1 :: (applyAll (c.apply hs).2 cs).1, (applyAll (c.apply hs).2 cs).2)

variable {hs rest : List Handler} {h : Handler}

theorem apply_remove_some (hr : removeLatest? h.id hs = some rest) : (remove h).apply hs = (true, rest) := by
  rw [apply, hr]

theorem apply_remove_none (hr : removeLatest? h.id hs = none) : (remove h).apply hs = (false, hs) := by
  rw [apply, hr]

theorem perform_run (c : Change) (k : EventKey) (w : World) :
    ∃ w', c.perform k w = .ok (c.apply (w.handlersOf k)).1 w' ∧
      ∀ k', w'.handlersOf k' = if k = k' then (c.apply (w.handlersOf k)).2 else w.handlersOf k' := by
  cases c with
  | add h => exact ⟨_, rfl, fun k' => World.handlersOf_setHandlers ..⟩
  | remove h =>
    simp only [perform, apply, removeHandler_run]
    cases hr : removeLatest? h.id (w.handlersOf k) with
    | some hs => exact ⟨_, rfl, fun k' => World.handlersOf_setHandlers ..⟩
    | none =>
      refine ⟨w, rfl, fun k' => ?_⟩
      by_cases hk : k = k' <;> simp [hk]

theorem performAll_run (cs : List Change) (k : EventKey) (w : World) :
    ∃ w', performAll k cs w = .ok (applyAll (w.handlersOf k) cs).1 w' ∧
      ∀ k', w'.handlersOf k' = if k = k' then (applyAll (w.handlersOf k) cs).2 else w.handlersOf k' := by
  induction cs generalizing w with
  | nil =>
    refine ⟨w, rfl, fun k' => ?_⟩
    by_cases hk : k = k' <;> simp [hk, applyAll]
  | cons c cs ih =>
    obtain ⟨w₁, hc, hl₁⟩ := c.perform_run k w
    obtain ⟨w₂, hcs, hl₂⟩ := ih w₁
    have hk := hl₁ k
    rw [if_pos rfl] at hk
    rw [hk] at hcs hl₂
    refine ⟨w₂, ?_, fun k' => ?_⟩
    · unfold performAll
      rw [bind_of_ok hc, bind_of_ok hcs]
      rfl
    · rw [hl₂, hl₁]
      by_cases hk' : k = k' <;> simp [hk', applyAll]

/-! ## How often a handler is there -/

theorem countP_apply (c : Change) (hs : List Handler) (id : Nat) :
    (c.apply hs).2.countP (·.id = id) + (if c.removes id && (c.apply hs).1 then 1 else 0) =
      hs.countP (·.id = id) + if c.adds id then 1 else 0 := by
  cases c with
  | add h => simp [apply, adds, removes, List.countP_append, List.countP_singleton]
  | remove h =>
    cases hr : removeLatest? h.id hs with
    | none => simp [apply_remove_none hr, adds]
    | some rest =>
      rw [apply_remove_some hr]
      obtain ⟨pre, g, post, rfl, hg, -, rfl⟩ := (removeLatest?_eq_some_iff h.id hs rest).mp hr
      by_cases hid : h.id = id <;> simp [adds, removes, hg, hid, Nat.add_assoc]

theorem countP_applyAll (cs : List Change) (hs : List Handler) (id : Nat) :
    (applyAll hs cs).2.countP (·.id = id) + (cs.zip (applyAll hs cs).1).countP (fun x => x.1.removes id && x.2) =
      hs.countP (·.id = id) + cs.countP (·.adds id) := by
  induction cs generalizing hs with
  | nil => simp [applyAll]
  | cons c cs ih =>
    have hc := countP_apply c hs id
    have hcs := ih (c.apply hs).2
    simp only [applyAll, List.zip_cons_cons, List.countP_cons]
    omega

/-! ## The order of arrival -/

/-- Of the occurrences of a handler, the one that came last. -/
def IsLatest (id : Nat) (xs : List (Handler × Nat)) (x : Handler × Nat) : Prop :=
  x.1.id = id ∧ ∀ y ∈ xs, y.1.id = id → y.2 ≤ x.2

instance (id : Nat) (xs : List (Handler × Nat)) (x : Handler × Nat) : Decidable (IsLatest id xs x) :=
  inferInstanceAs (Decidable (_ ∧ _))

/-- What a change makes of the occurrences, each of which has the time at which it came. -/
def arrive (now : Nat) (xs : List (Handler × Nat)) : Change → List (Handler × Nat)
  | add h => xs ++ [(h, now)]
  | remove h => xs.filter fun x => ¬ IsLatest h.id xs x

/-- The occurrences that are left after changes, the first of which comes at a given time. -/
def arrivals (now : Nat) (xs : List (Handler × Nat)) : List Change → List (Handler × Nat)
  | [] => xs
  | c :: cs => arrivals (now + 1) (c.arrive now xs) cs

/-- Occurrences in the order in which they came, all before now. -/
structure InOrder (now : Nat) (xs : List (Handler × Nat)) : Prop where
  ordered : xs.Pairwise (·.2 < ·.2)
  past : ∀ x ∈ xs, x.2 < now

variable {now : Nat} {xs : List (Handler × Nat)}

theorem filter_latest {pre post : List (Handler × Nat)} {x : Handler × Nat} {id : Nat}
    (hxs : (pre ++ x :: post).Pairwise (·.2 < ·.2)) (hx : x.1.id = id) (hpost : ∀ y ∈ post, y.1.id ≠ id) :
    (pre ++ x :: post).filter (fun y => ¬ IsLatest id (pre ++ x :: post) y) = pre ++ post := by
  obtain ⟨-, -, hpre⟩ := List.pairwise_append.mp hxs
  have hlatest : IsLatest id (pre ++ x :: post) x := by
    refine ⟨hx, fun y hy hid => ?_⟩
    rcases List.mem_append.mp hy with hy | hy
    · exact Nat.le_of_lt (hpre y hy x List.mem_cons_self)
    · rcases List.mem_cons.mp hy with rfl | hy
      · exact Nat.le_refl _
      · exact absurd hid (hpost y hy)
  rw [List.filter_append, List.filter_cons_of_neg (by simpa using hlatest)]
  congr 1
  · refine List.filter_eq_self.mpr fun y hy => ?_
    have hlt := hpre y hy x List.mem_cons_self
    simp only [decide_not, Bool.not_eq_true', decide_eq_false_iff_not]
    intro h
    have hle := h.2 x (by simp) hx
    omega
  · refine List.filter_eq_self.mpr fun y hy => ?_
    simp only [decide_not, Bool.not_eq_true', decide_eq_false_iff_not]
    exact fun h => hpost y hy h.1

theorem InOrder.arrive (h : InOrder now xs) (c : Change) :
    InOrder (now + 1) (c.arrive now xs) ∧ (c.apply (xs.map Prod.fst)).2 = (c.arrive now xs).map Prod.fst := by
  cases c with
  | add g =>
    refine ⟨⟨?_, ?_⟩, by simp [apply, Change.arrive]⟩
    · refine List.pairwise_append.mpr ⟨h.ordered, List.pairwise_singleton .., fun x hx y hy => ?_⟩
      rw [List.mem_singleton.mp hy]
      exact h.past x hx
    · intro x hx
      rcases List.mem_append.mp hx with hx | hx
      · exact Nat.lt_succ_of_lt (h.past x hx)
      · rw [List.mem_singleton.mp hx]
        exact Nat.lt_succ_self now
  | remove g =>
    refine ⟨⟨h.ordered.filter _, fun x hx => Nat.lt_succ_of_lt (h.past x (List.mem_filter.mp hx).1)⟩, ?_⟩
    cases hr : removeLatest? g.id (xs.map Prod.fst) with
    | none =>
      have habsent := (removeLatest?_eq_none_iff _ _).mp hr
      have hall : xs.filter (fun x => ¬ IsLatest g.id xs x) = xs := by
        refine List.filter_eq_self.mpr fun x hx => ?_
        simp only [decide_not, Bool.not_eq_true', decide_eq_false_iff_not]
        exact fun hl => habsent x.1 (List.mem_map_of_mem hx) hl.1
      rw [apply_remove_none hr, Change.arrive, hall]
    | some rest =>
      rw [apply_remove_some hr]
      obtain ⟨pre, g', post, hl, hid, hpost, rfl⟩ := (removeLatest?_eq_some_iff _ _ _).mp hr
      obtain ⟨xpre, xrest, rfl, rfl, hrest⟩ := List.map_eq_append_iff.mp hl
      obtain ⟨x, xpost, rfl, rfl, rfl⟩ := List.map_eq_cons_iff.mp hrest
      have hfilter := filter_latest h.ordered hid fun y hy => hpost y.1 (List.mem_map_of_mem hy)
      rw [Change.arrive, hfilter, List.map_append]

theorem InOrder.arrivals (h : InOrder now xs) (cs : List Change) :
    (arrivals now xs cs).Pairwise (·.2 < ·.2) ∧
      (applyAll (xs.map Prod.fst) cs).2 = (Change.arrivals now xs cs).map Prod.fst := by
  induction cs generalizing now xs with
  | nil => exact ⟨h.ordered, rfl⟩
  | cons c cs ih =>
    obtain ⟨hnext, hc⟩ := h.arrive c
    obtain ⟨hordered, hcs⟩ := ih hnext
    rw [← hc] at hcs
    exact ⟨hordered, hcs⟩

theorem inOrder_zipIdx (hs : List Handler) : InOrder hs.length hs.zipIdx := by
  constructor
  · rw [List.pairwise_iff_getElem]
    intro i j hi hj hij
    simpa using hij
  · intro x hx
    have hget := List.mem_zipIdx_iff_getElem?.mp hx
    exact (List.getElem?_eq_some_iff.mp hget).1

/-! ## Adding a handler and removing it again -/

/-- The first list has one occurrence of a handler more, and it is the latest one. -/
def Extra (h : Handler) (hs hs' : List Handler) : Prop :=
  ∃ pre post, hs = pre ++ h :: post ∧ hs' = pre ++ post ∧ ∀ g ∈ post, g.id ≠ h.id

theorem extra_add (h : Handler) (hs : List Handler) : Extra h (hs ++ [h]) hs := ⟨hs, [], by simp⟩

theorem Extra.removeLatest? {hs' : List Handler} (he : Extra h hs hs') : removeLatest? h.id hs = some hs' := by
  obtain ⟨pre, post, rfl, rfl, hpost⟩ := he
  exact (removeLatest?_eq_some_iff _ _ _).mpr ⟨pre, h, post, rfl, rfl, hpost, rfl⟩

theorem Extra.apply {c : Change} {hs' : List Handler} (he : Extra h hs hs') (hc : c.handler.id ≠ h.id) :
    (c.apply hs).1 = (c.apply hs').1 ∧ Extra h (c.apply hs).2 (c.apply hs').2 := by
  obtain ⟨pre, post, rfl, rfl, hpost⟩ := he
  cases c with
  | add g =>
    refine ⟨rfl, pre, post ++ [g], by simp [Change.apply], by simp [Change.apply], fun x hx => ?_⟩
    rcases List.mem_append.mp hx with hx | hx
    · exact hpost x hx
    · rw [List.mem_singleton.mp hx]
      exact hc
  | remove g =>
    have hcons := removeLatest?_cons_of_ne (fun e => hc e.symm : h.id ≠ g.id) post
    have hwith := removeLatest?_append g.id pre (h :: post)
    have hwithout := removeLatest?_append g.id pre post
    cases hr : HandlerList.removeLatest? g.id post with
    | some rest =>
      -- The occurrence stands behind the extra one.
      rw [hr] at hcons hwithout
      rw [hcons] at hwith
      rw [apply_remove_some hwith, apply_remove_some hwithout]
      refine ⟨rfl, pre, rest, rfl, rfl, fun x hx => ?_⟩
      obtain ⟨a, y, b, rfl, -, -, rfl⟩ := (removeLatest?_eq_some_iff _ _ _).mp hr
      exact hpost x (by grind)
    | none =>
      rw [hr] at hcons hwithout
      rw [hcons] at hwith
      cases hp : HandlerList.removeLatest? g.id pre with
      | some rest =>
        rw [hp] at hwith hwithout
        rw [apply_remove_some hwith, apply_remove_some hwithout]
        exact ⟨rfl, rest, post, rfl, rfl, hpost⟩
      | none =>
        rw [hp] at hwith hwithout
        rw [apply_remove_none hwith, apply_remove_none hwithout]
        exact ⟨rfl, pre, post, rfl, rfl, hpost⟩

theorem Extra.applyAll {cs : List Change} {hs' : List Handler} (he : Extra h hs hs')
    (hcs : ∀ c ∈ cs, c.handler.id ≠ h.id) :
    (applyAll hs cs).1 = (applyAll hs' cs).1 ∧ Extra h (applyAll hs cs).2 (applyAll hs' cs).2 := by
  induction cs generalizing hs hs' with
  | nil => exact ⟨rfl, he⟩
  | cons c cs ih =>
    rw [List.forall_mem_cons] at hcs
    obtain ⟨hfound, hnext⟩ := he.apply hcs.1
    obtain ⟨hanswers, hlast⟩ := ih hnext hcs.2
    refine ⟨?_, hlast⟩
    simp only [Change.applyAll, hfound, hanswers]

theorem add_remove_run {k : EventKey} {cs : List Change} (hcs : ∀ c ∈ cs, c.handler.id ≠ h.id) (w : World) :
    ∃ w₁ w₂ w₃, addHandler k h w = .ok () w₁ ∧ performAll k cs w₁ = .ok (applyAll (w.handlersOf k) cs).1 w₂ ∧
      removeHandler k h.id w₂ = .ok true w₃ ∧
      ∀ k', w₃.handlersOf k' = if k = k' then (applyAll (w.handlersOf k) cs).2 else w.handlersOf k' := by
  have hadded : (w.setHandlers k (w.handlersOf k ++ [h])).handlersOf k = w.handlersOf k ++ [h] := by
    rw [World.handlersOf_setHandlers, if_pos rfl]
  obtain ⟨w₂, hrun, hl₂⟩ := performAll_run cs k (w.setHandlers k (w.handlersOf k ++ [h]))
  rw [hadded] at hrun hl₂
  obtain ⟨hanswers, hextra⟩ := (extra_add h (w.handlersOf k)).applyAll hcs
  rw [hanswers] at hrun
  have hk := hl₂ k
  rw [if_pos rfl] at hk
  refine ⟨_, w₂, w₂.setHandlers k (applyAll (w.handlersOf k) cs).2, rfl, hrun, ?_, fun k' => ?_⟩
  · rw [removeHandler_run, hk, hextra.removeLatest?]
  · rw [World.handlersOf_setHandlers, hl₂, World.handlersOf_setHandlers]
    by_cases hk' : k = k' <;> simp [hk']

theorem removeHandler_latest (k : EventKey) (id : Nat) (w : World) :
    ∃ found w', removeHandler k id w = .ok found w' ∧ (found = true ↔ ∃ g ∈ w.handlersOf k, g.id = id) ∧
      (found = false → w' = w) ∧
      (found = true → ∃ pre g post, w.handlersOf k = pre ++ g :: post ∧ g.id = id ∧ (∀ x ∈ post, x.id ≠ id) ∧
        w'.handlersOf k = pre ++ post) := by
  rw [removeHandler_run]
  cases hr : HandlerList.removeLatest? id (w.handlersOf k) with
  | none =>
    have habsent := (removeLatest?_eq_none_iff _ _).mp hr
    exact ⟨false, w, rfl, by simpa using habsent, fun _ => rfl, nofun⟩
  | some rest =>
    obtain ⟨pre, g, post, hl, hg, hpost, rfl⟩ := (removeLatest?_eq_some_iff _ _ _).mp hr
    have hafter : (w.setHandlers k (pre ++ post)).handlersOf k = pre ++ post := by
      rw [World.handlersOf_setHandlers, if_pos rfl]
    refine ⟨true, _, rfl, ?_, nofun, fun _ => ⟨pre, g, post, hl, hg, hpost, hafter⟩⟩
    rw [hl]
    exact ⟨fun _ => ⟨g, by simp, hg⟩, fun _ => rfl⟩

end Change

end HandlerList

open HandlerList Change

/-- Whatever is added to an event and removed from it, it has its handlers in the order in which they came. A removal
tells whether the handler is there and takes away the occurrence that came last; a handler is there as often as it was
before, was added since, and was not removed. To add a handler, make changes that do not mention it and remove it again
comes to the same as to make the changes alone. -/
theorem handlers_stacked (k : EventKey) (w : World) (cs : List Change) :
    ∃ answers w', performAll k cs w = .ok answers w' ∧
      (∀ k', k' ≠ k → w'.handlersOf k' = w.handlersOf k') ∧
      w'.handlersOf k = (arrivals (w.handlersOf k).length (w.handlersOf k).zipIdx cs).map Prod.fst ∧
      (arrivals (w.handlersOf k).length (w.handlersOf k).zipIdx cs).Pairwise (·.2 < ·.2) ∧
      (∀ id, ∃ found w'', removeHandler k id w' = .ok found w'' ∧
        (found = true ↔ ∃ g ∈ w'.handlersOf k, g.id = id) ∧ (found = false → w'' = w') ∧
        (found = true → ∃ pre g post, w'.handlersOf k = pre ++ g :: post ∧ g.id = id ∧ (∀ x ∈ post, x.id ≠ id) ∧
          w''.handlersOf k = pre ++ post)) ∧
      (∀ id, (w'.handlersOf k).countP (·.id = id) + (cs.zip answers).countP (fun x => x.1.removes id && x.2) =
        (w.handlersOf k).countP (·.id = id) + cs.countP (·.adds id)) ∧
      (∀ h, (∀ c ∈ cs, c.handler.id ≠ h.id) → ∃ w'',
        (do
          addHandler k h
          let answers ← performAll k cs
          return (answers, ← removeHandler k h.id) : Effect (List Bool × Bool)) w = .ok (answers, true) w'' ∧
        ∀ k', w''.handlersOf k' = w'.handlersOf k') ∧
      (∀ a, (∀ c ∈ cs, c.handler.id ≠ w.next) → ∃ w'',
        (do
          let h ← addUniversal k a
          let answers ← performAll k cs
          return (answers, ← removeUniversal k h) : Effect (List Bool × Bool)) w = .ok (answers, true) w'' ∧
        ∀ k', w''.handlersOf k' = w'.handlersOf k') := by
  obtain ⟨w', hrun, hl⟩ := performAll_run cs k w
  have hk := hl k
  rw [if_pos rfl] at hk
  obtain ⟨hordered, harrived⟩ := (inOrder_zipIdx (w.handlersOf k)).arrivals cs
  rw [List.zipIdx_map_fst, ← hk] at harrived
  refine ⟨_, w', hrun, fun k' hk' => ?_, harrived, hordered, fun id => removeHandler_latest k id w', fun id => ?_,
    fun h hcs => ?_, fun a hcs => ?_⟩
  · rw [hl, if_neg (Ne.symm hk')]
  · rw [hk]
    exact countP_applyAll cs (w.handlersOf k) id
  · obtain ⟨w₁, w₂, w₃, hadd, hall, hremove, hl₃⟩ := add_remove_run hcs w
    refine ⟨w₃, ?_, fun k' => ?_⟩
    · rw [bind_of_ok hadd, bind_of_ok hall, bind_of_ok hremove]
      rfl
    · rw [hl₃, hl]
  -- A universal handler is one more added handler, once its number has been handed out.
  · obtain ⟨w₁, w₂, w₃, hadd, hall, hremove, hl₃⟩ :=
      add_remove_run (h := ⟨w.next, k.payload, .always a⟩) hcs { w with next := w.next + 1 }
    have huniversal : addUniversal k a w = .ok ⟨w.next, k.payload, .always a⟩ w₁ := by
      unfold addUniversal
      rw [bind_of_ok (show fresh w = .ok w.next { w with next := w.next + 1 } from rfl), bind_of_ok hadd]
      rfl
    refine ⟨w₃, ?_, fun k' => ?_⟩
    · rw [bind_of_ok huniversal, bind_of_ok hall, removeUniversal, if_pos rfl, bind_of_ok hremove]
      rfl
    · rw [hl₃, hl]
      rfl

/-! ## Bells -/

namespace Bells

def ring : Handler := ⟨1, .number, .report "ring" []⟩

def chime : Handler := ⟨2, .number, .report "chime" []⟩

def hum : Handler := ⟨3, .number, .report "hum" []⟩

def tower : World := ({ next := 4 } : World).setHandlers (.free "bells") [ring, chime, ring]

def changes : List Change := [.remove ring, .add chime, .remove ring, .remove ring]

/-- The last of three removals finds nothing, whether there is a hum around the changes or not. -/
theorem hum_unnoticed :
    (∀ c ∈ changes, c.handler.id ≠ hum.id) ∧
      ∃ w' w'', performAll (.free "bells") changes tower = .ok [true, true, true, false] w' ∧
        (w'.handlersOf (.free "bells")).map Handler.id = [2, 2] ∧
        (do
          addHandler (.free "bells") hum
          let answers ← performAll (.free "bells") changes
          return (answers, ← removeHandler (.free "bells") hum.id) : Effect (List Bool × Bool)) tower =
            .ok ([true, true, true, false], true) w'' ∧
        ∀ k, w''.handlersOf k = w'.handlersOf k := by
  have hother : ∀ c ∈ changes, c.handler.id ≠ hum.id := by decide
  obtain ⟨answers, w', hrun, -, -, -, -, -, hundone, -⟩ := handlers_stacked (.free "bells") tower changes
  cases hrun
  obtain ⟨w'', hrun'', hlists⟩ := hundone hum hother
  exact ⟨hother, _, w'', rfl, rfl, hrun'', hlists⟩

end Bells

end DataBinding
