import DataBinding.Registration
import DataBinding.Proofs.Table
import DataBinding.Proofs.Effect
import DataBinding.Proofs.Schema.Lineage

/-!
# Registrations for named events

A registration is put in front of the first one for a base type, so that no type ever stands in front of one of its
subtypes (`Ordered`), although types of different branches may stand in any order. The first registration that fits
a type is then the one for the nearest type in its lineage. A whole run of registrations keeps of each pair of a type
and an event the last one (`lookup_addAll`).
-/

namespace DataBinding

namespace EventRegistry

open Table (lookup lookup_append lookup_eq_none)

variable {types : TypeTable} {entries : List (TypeId × ChangeSource)} {t u : TypeId} {s : ChangeSource}

/-- Each type once, and none in front of one of its subtypes. -/
structure Ordered (types : TypeTable) (keys : List TypeId) : Prop where
  nodup : keys.Nodup
  specific : keys.Pairwise fun a b => types.isAssignable a b = false

theorem lookup_replace (t u : TypeId) (s : ChangeSource) (entries : List (TypeId × ChangeSource)) :
    lookup u (entries.map fun entry => if entry.1 = t then (t, s) else entry) =
      if t = u then (lookup u entries).map fun _ => s else lookup u entries := by
  induction entries with
  | nil => simp [lookup]
  | cons x xs ih =>
    obtain ⟨t', s'⟩ := x
    by_cases ht : t' = t
    · subst ht
      by_cases hu : t' = u <;> simp [lookup, hu, ih]
    · by_cases hu : t' = u
      · subst hu
        simp [lookup, ht, Ne.symm ht]
      · simp [lookup, ht, hu, ih]

/-- What a registration does: it replaces the one of its type, or goes in between. -/
theorem register_cases (types : TypeTable) (t : TypeId) (s : ChangeSource) (entries : List (TypeId × ChangeSource)) :
    (t ∈ entries.map Prod.fst ∧
      register types t s entries = entries.map fun entry => if entry.1 = t then (t, s) else entry) ∨
    (t ∉ entries.map Prod.fst ∧ ∃ specific rest, entries = specific ++ rest ∧
      register types t s entries = specific ++ (t, s) :: rest ∧
      (∀ x ∈ specific, types.isAssignable x.1 t = false) ∧
      ∀ y rest', rest = y :: rest' → types.isAssignable y.1 t = true) := by
  unfold register
  by_cases h : t ∈ entries.map Prod.fst
  · refine .inl ⟨h, if_pos ?_⟩
    obtain ⟨x, hx, rfl⟩ := List.mem_map.mp h
    exact List.any_eq_true.mpr ⟨x, hx, decide_eq_true rfl⟩
  · have hno : ¬ (entries.any fun entry => decide (entry.1 = t)) = true := by
      intro ha
      obtain ⟨x, hx, he⟩ := List.any_eq_true.mp ha
      exact h (List.mem_map.mpr ⟨x, hx, of_decide_eq_true he⟩)
    rw [if_neg hno]
    generalize hp : (fun entry : TypeId × ChangeSource => !types.isAssignable entry.1 t) = p
    refine .inr ⟨h, entries.takeWhile p, entries.dropWhile p, List.takeWhile_append_dropWhile.symm, ?_, ?_, ?_⟩
    · have hdrop : (entries.takeWhile p ++ entries.dropWhile p).drop (entries.takeWhile p).length = entries.dropWhile p :=
        List.drop_left
      rw [List.takeWhile_append_dropWhile] at hdrop
      show entries.takeWhile p ++ (t, s) :: entries.drop (entries.takeWhile p).length = _
      rw [hdrop]
    · intro x hx
      have hx := List.all_eq_true.mp List.all_takeWhile x hx
      simpa [← hp] using hx
    · intro y rest' hrest
      have hy := List.head?_dropWhile_not p entries
      rw [hrest] at hy
      simpa [← hp] using hy

theorem lookup_register (types : TypeTable) (t u : TypeId) (s : ChangeSource)
    (entries : List (TypeId × ChangeSource)) :
    lookup u (register types t s entries) = if t = u then some s else lookup u entries := by
  rcases register_cases types t s entries with ⟨ht, hr⟩ | ⟨ht, specific, rest, he, hr, -, -⟩
  · rw [hr, lookup_replace]
    by_cases hu : t = u
    · subst hu
      cases hl : lookup t entries with
      | none => exact absurd ht (lookup_eq_none.mp hl)
      | some _ => simp
    · simp [hu]
  · rw [hr, he, lookup_append, lookup_append]
    by_cases hu : t = u
    · subst hu
      have hnone : lookup t specific = none :=
        lookup_eq_none.mpr fun hm => ht (by rw [he, List.map_append]; exact List.mem_append_left _ hm)
      simp [lookup, hnone]
    · simp [lookup, hu]

/-- The one step of the invariant. What comes behind the new type is a base of it, or comes behind such a base. -/
theorem Ordered.register (h : Ordered types (entries.map Prod.fst)) (t : TypeId) (s : ChangeSource) :
    Ordered types ((register types t s entries).map Prod.fst) := by
  rcases register_cases types t s entries with ⟨ht, hr⟩ | ⟨ht, specific, rest, he, hr, hbefore, hbehind⟩
  · have hkeys : (entries.map fun entry => if entry.1 = t then (t, s) else entry).map Prod.fst =
        entries.map Prod.fst := by
      rw [List.map_map]
      apply List.map_congr_left
      intro x _
      by_cases hx : x.1 = t <;> simp [hx]
    rw [hr, hkeys]
    exact h
  · subst he
    obtain ⟨hnodup, hspecific⟩ := h
    rw [List.map_append] at ht hnodup hspecific
    rw [hr, List.map_append, List.map_cons]
    refine ⟨List.perm_middle.nodup_iff.mpr (List.nodup_cons.mpr ⟨ht, hnodup⟩), ?_⟩
    rw [List.pairwise_append] at hspecific ⊢
    obtain ⟨hs, hrest, hcross⟩ := hspecific
    refine ⟨hs, List.pairwise_cons.mpr ⟨?_, hrest⟩, ?_⟩
    · -- a subtype of `t` behind a base of `t` would be a subtype of that base
      intro y hy
      cases rest with
      | nil => simp at hy
      | cons x xs =>
        have hx := of_decide_eq_true (hbehind x xs rfl)
        rw [List.map_cons] at hy hrest ht
        apply decide_eq_false
        intro hty
        rcases List.mem_cons.mp hy with rfl | hy
        · have hxt := TypeTable.lineage_antisymm hx hty
          simp [hxt] at ht
        · have hxy := of_decide_eq_false (List.rel_of_pairwise_cons hrest hy)
          exact hxy (TypeTable.lineage_trans hx hty)
    · intro a ha b hb
      rcases List.mem_cons.mp hb with rfl | hb
      · obtain ⟨x, hx, rfl⟩ := List.mem_map.mp ha
        exact hbefore x hx
      · exact hcross a ha b hb

/-- In an ordered registry the first registration that fits is the nearest one. -/
theorem Ordered.find?_eq (h : Ordered types (entries.map Prod.fst)) (t : TypeId) :
    (entries.find? fun entry => types.isAssignable entry.1 t).map Prod.snd =
      (types.lineage t).findSome? fun u => lookup u entries := by
  cases hf : entries.find? fun entry => types.isAssignable entry.1 t with
  | none =>
    refine (List.findSome?_eq_none_iff.mpr fun u hu => lookup_eq_none.mpr fun hm => ?_).symm
    obtain ⟨x, hx, rfl⟩ := List.mem_map.mp hm
    exact List.find?_eq_none.mp hf x hx (decide_eq_true hu)
  | some x =>
    obtain ⟨a, s⟩ := x
    obtain ⟨hfits, before, behind, rfl, hbefore⟩ := List.find?_eq_some_iff_append.mp hf
    obtain ⟨pre, post, hl, hpre⟩ := List.eq_append_cons_of_mem (of_decide_eq_true hfits)
    -- a type in front of the fitting one does not fit, so it is not in the lineage
    have hout : ∀ u ∈ types.lineage t, lookup u before = none := fun u hu => lookup_eq_none.mpr fun hm => by
      obtain ⟨x, hx, rfl⟩ := List.mem_map.mp hm
      have hx := hbefore x hx
      simp [TypeTable.isAssignable, hu] at hx
    refine (List.findSome?_eq_some_iff.mpr ⟨pre, a, post, hl, ?_, ?_⟩).symm
    · rw [lookup_append, hout a (of_decide_eq_true hfits)]
      simp [lookup]
    · intro u hu
      have hne : a ≠ u := fun he => hpre (he ▸ hu)
      have hut : u ∈ types.lineage t := by simp [hl, hu]
      rw [lookup_append, hout u hut, Option.none_or, lookup, if_neg hne]
      -- a nearer type behind it has it in its lineage
      refine lookup_eq_none.mpr fun hm => ?_
      have hspecific := h.specific
      rw [List.map_append, List.map_cons, List.pairwise_append] at hspecific
      have hau := of_decide_eq_false (List.rel_of_pairwise_cons hspecific.2.1 hm)
      obtain ⟨pre₁, pre₂, rfl⟩ := List.append_of_mem hu
      have hlt : types.lineage t = pre₁ ++ u :: (pre₂ ++ a :: post) := by
        rw [hl]
        simp
      have hlu := TypeTable.lineage_suffix hlt
      exact hau (by simp [hlu])

/-! ## A run of registrations -/

structure Registration where
  type : TypeId
  event : String
  source : ChangeSource

def addAll (types : TypeTable) (r : EventRegistry) (regs : List Registration) : EventRegistry :=
  regs.foldl (fun r g => r.add types g.type g.event g.source) r

/-- The source of the last registration for the pair. -/
def last? (regs : List Registration) (event : String) (t : TypeId) : Option ChangeSource :=
  (regs.filter fun g => g.event = event ∧ g.type = t).getLast?.map Registration.source

theorem last?_cons (g : Registration) (regs : List Registration) (event : String) (t : TypeId) :
    last? (g :: regs) event t =
      (last? regs event t).or (if g.event = event ∧ g.type = t then some g.source else none) := by
  unfold last?
  by_cases h : g.event = event ∧ g.type = t
  · rw [List.filter_cons_of_pos (by simpa using h), List.getLast?_cons, if_pos h]
    cases (regs.filter fun g => g.event = event ∧ g.type = t).getLast? <;> simp
  · rw [List.filter_cons_of_neg (by simpa using h), if_neg h, Option.or_none]

theorem last?_isSome {regs : List Registration} {event : String} {t : TypeId} :
    (last? regs event t).isSome = true ↔ ∃ g ∈ regs, g.event = event ∧ g.type = t := by
  rw [last?, Option.isSome_map, List.getLast?_isSome, ne_eq, List.filter_eq_nil_iff]
  simp

theorem entries_add (r : EventRegistry) (t : TypeId) (event event' : String) (s : ChangeSource) :
    (r.add types t event s).entries event' =
      if event = event' then register types t s (r.entries event') else r.entries event' := by
  by_cases h : event = event'
  · subst h
    simp [add, entries]
  · simp [add, entries, h]

theorem Ordered.addAll (regs : List Registration) {r : EventRegistry} {event : String}
    (h : Ordered types (r.registered event)) : Ordered types ((addAll types r regs).registered event) := by
  induction regs generalizing r with
  | nil => exact h
  | cons g regs ih =>
    apply ih
    rw [registered, entries_add]
    by_cases he : g.event = event
    · rw [if_pos he]
      exact Ordered.register h g.type g.source
    · rw [if_neg he]
      exact h

theorem lookup_addAll (types : TypeTable) (regs : List Registration) (r : EventRegistry) (event : String)
    (t : TypeId) :
    lookup t ((addAll types r regs).entries event) = (last? regs event t).or (lookup t (r.entries event)) := by
  induction regs generalizing r with
  | nil => rfl
  | cons g regs ih =>
    rw [addAll, List.foldl_cons, ← addAll, ih, last?_cons, entries_add]
    by_cases he : g.event = event
    · by_cases ht : g.type = t <;> simp [he, ht, lookup_register]
    · simp [he]

theorem registerEvent_run (types : TypeTable) (c : ConfigId) (t : TypeId) (event : String) (s : ChangeSource)
    (w : World) : ∃ w', c.registerEvent types t event s w = .ok () w' ∧
      (w'.configuration c).eventSources = (w.configuration c).eventSources.add types t event s := by
  have hrun : c.registerEvent types t event s w =
      (if t ∈ (w.configuration c).eventSources.registered event then
        ConfigId.tellOverridden (types.name t ++ "." ++ event) "trigger" else pure () : Effect Unit)
      (w.setConfiguration c { w.configuration c with
        eventSources := (w.configuration c).eventSources.add types t event s }) := rfl
  rw [hrun]
  by_cases ht : t ∈ (w.configuration c).eventSources.registered event
  · rw [if_pos ht]
    exact ⟨_, rfl, congrArg Configuration.eventSources
      ((World.configuration_setConfiguration w c c _).trans (if_pos rfl))⟩
  · rw [if_neg ht]
    exact ⟨_, rfl, congrArg Configuration.eventSources
      ((World.configuration_setConfiguration w c c _).trans (if_pos rfl))⟩

/-- Programs that register sources one after the other add them to the registry of the configuration. -/
theorem registerEvents_run (types : TypeTable) (c : ConfigId) (regs : List Registration) (w : World) :
    ∃ w', (forM regs fun g => c.registerEvent types g.type g.event g.source) w = .ok () w' ∧
      (w'.configuration c).eventSources = addAll types (w.configuration c).eventSources regs := by
  induction regs generalizing w with
  | nil => exact ⟨w, rfl, rfl⟩
  | cons g regs ih =>
    obtain ⟨w₁, h₁, hr₁⟩ := registerEvent_run types c g.type g.event g.source w
    obtain ⟨w₂, h₂, hr₂⟩ := ih w₁
    refine ⟨w₂, ?_, ?_⟩
    · rw [List.forM_cons, bind_of_ok h₁, h₂]
    · rw [hr₂, hr₁, addAll, addAll, List.foldl_cons]

end EventRegistry

open EventRegistry in
/-- Whatever the order of the registrations, a lookup finds the last one for the nearest type that has any. -/
theorem nearest_registration (types : TypeTable) (regs : List Registration) (event : String) :
    ((addAll types {} regs).registered event).Nodup ∧
    (∀ t, t ∈ (addAll types {} regs).registered event ↔ ∃ g ∈ regs, g.event = event ∧ g.type = t) ∧
    ((addAll types {} regs).registered event).Pairwise (fun a b => types.isAssignable a b = false) ∧
    (∀ t, (addAll types {} regs).find? types event t = (types.lineage t).findSome? (last? regs event)) ∧
    ∀ regs', (∀ t, last? regs' event t = last? regs event t) →
      ∀ t, (addAll types {} regs').find? types event t = (addAll types {} regs).find? types event t := by
  have hordered (regs : List Registration) : Ordered types ((addAll types {} regs).registered event) :=
    Ordered.addAll regs ⟨List.nodup_nil, List.Pairwise.nil⟩
  have hlookup (regs : List Registration) (t : TypeId) :
      Table.lookup t ((addAll types {} regs).entries event) = last? regs event t := by
    rw [lookup_addAll]
    exact Option.or_none
  have hfind (regs : List Registration) (t : TypeId) :
      (addAll types {} regs).find? types event t = (types.lineage t).findSome? (last? regs event) := by
    rw [EventRegistry.find?, (hordered regs).find?_eq]
    exact congrArg (fun f => (types.lineage t).findSome? f) (funext (hlookup regs))
  refine ⟨(hordered regs).nodup, fun t => ?_, (hordered regs).specific, hfind regs, fun regs' h t => ?_⟩
  · rw [← last?_isSome, ← hlookup, Option.isSome_iff_ne_none, Ne, Table.lookup_eq_none, Decidable.not_not]
    rfl
  · rw [hfind, hfind, funext h]

namespace Tiers

def types : TypeTable :=
  ⟨[{ name := "H2", base := some ⟨6⟩ }, { name := "H1", base := some ⟨5⟩ }, { name := "H0" }]⟩

def climbing : List EventRegistry.Registration :=
  [⟨⟨7⟩, "Changed", .direct "h2"⟩, ⟨⟨6⟩, "Changed", .direct "h1"⟩, ⟨⟨5⟩, "Changed", .direct "h0"⟩]

/-- The same in another order, with a registration that is overridden. -/
def mixed : List EventRegistry.Registration :=
  [⟨⟨5⟩, "Changed", .direct "h0"⟩, ⟨⟨6⟩, "Changed", .hidden⟩, ⟨⟨7⟩, "Changed", .direct "h2"⟩,
    ⟨⟨6⟩, "Changed", .direct "h1"⟩]

open EventRegistry in
theorem mixed_found : (∀ t, last? mixed "Changed" t = last? climbing "Changed" t) ∧
    (addAll types {} mixed).find? types "Changed" ⟨6⟩ = some (.direct "h1") := by
  have hlast : ∀ t, last? mixed "Changed" t = last? climbing "Changed" t := by
    intro t
    by_cases h₅ : t = ⟨5⟩
    · subst h₅
      rfl
    by_cases h₆ : t = ⟨6⟩
    · subst h₆
      rfl
    by_cases h₇ : t = ⟨7⟩
    · subst h₇
      rfl
    simp [mixed, climbing, last?, Ne.symm h₅, Ne.symm h₆, Ne.symm h₇]
  exact ⟨hlast, ((nearest_registration types climbing "Changed").2.2.2.2 mixed hlast ⟨6⟩).trans rfl⟩

end Tiers

end DataBinding
