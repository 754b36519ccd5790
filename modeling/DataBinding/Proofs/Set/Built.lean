import DataBinding.Proofs.Run.Inert
import DataBinding.Proofs.Set.Adding
import DataBinding.Proofs.Subscription.Create

/-!
# Building a set from entries

Each entry makes its binding under the flags of the nearest flag entry before it (`creation_yields`), and nothing that
host code does while later entries are added takes that binding away or changes its flags (`Grows.made`). If an entry
fails, the bindings of those before it are disposed in order (`forM_dispose_silent`).
-/

namespace DataBinding

open Effect

def Handler.action? (g : Handler) : Option Action :=
  match g.response with
  | .always a => some a
  | .onProperty _ a => some a
  | .report _ _ => none

namespace EventBinding

/-- The binding of an event performs the action, and disposes itself after that if the flags say so. -/
def Performs (f : Flags) (id : BindingId) (name : String) (a : Action) (b : EventBinding) : Prop :=
  b.event = name ∧ b.handler.bind Handler.action? = some (if f.isOneTime then .once id a else a)

end EventBinding

/-- A new binding of the entry that has these flags. -/
def Entry.Yields (f : Flags) (id : BindingId) : Entry → Binding → Prop
  | .expression (.binary ..), .equality b => b.flags = f
  | .expression (.call ..), .action b => b.flags = f
  | .expression (.typeCall ..), .action b => b.flags = f
  | .event _ name a, .event b => b.Performs f id name a
  | .command _ name c, .event b => b.Performs f id name (.command c)
  | .custom name, .custom name' => name' = name
  | _, _ => False

/-! ## One entry -/

section
variable {host : Host} {config : Configuration} {f : Flags} {entry : Entry} {x : Effect BindingId} {m : Nat}

theorem creation_later (h : host.Lasting (World.Later m)) (hx : entry.creation? host config f = some x) :
    Lasts (World.Later m) x := by
  cases entry with
  | flags f => cases hx
  | expression e =>
    cases hx
    unfold Binding.create
    split
    · exact (later_makes h).create (.equality config f _ _)
    · exact (later_makes h).create (.action config f _)
    · exact (later_makes h).create (.action config f _)
    · exact h.fail _
  | event target name a =>
    cases hx
    exact eventCreate_later h target name a
  | command target name c =>
    cases hx
    exact eventCreate_later h target name (.command c)
  | custom name =>
    cases hx
    apply fresh_bind_later
    intro n hn
    refine h.seq (always_modify fun w => later_setBinding fun s hid => ?_) fun _ => h.pure _
    exact absurd hid (Nat.not_lt.mpr hn)

variable {u v : World} {id : BindingId}

/-- What becomes of a binding while it is built. -/
theorem building_continues {s : Binding} {y : Compile Unit}
    (hy : Lasts (World.Later (u.next + 1)) (building host ⟨u.next⟩ y))
    (h : building host ⟨u.next⟩ y (u.birth s) = .ok id v) :
    id = ⟨u.next⟩ ∧ u.next < v.next ∧ ∃ s', v.bindings.find? id = some s' ∧ s.Continues s' := by
  obtain ⟨rfl, -⟩ := building_eq_ok h
  obtain ⟨hnext, hlater⟩ := hy.ok _ _ _ h (Nat.le_refl _)
  have hborn : (u.birth s).bindings.find? ⟨u.next⟩ = some s := by
    rw [World.birth, World.find?_setBinding, if_pos rfl]
  exact ⟨rfl, hnext, hlater.bindings _ s (Nat.lt_succ_self _) hborn⟩

theorem equality_yields {left right : Expr} (h : host.Lasting (World.Later (u.next + 1)))
    (hid : EqualityBinding.create host config f left right u = .ok id v) :
    id = ⟨u.next⟩ ∧ u.next < v.next ∧ ∃ b, v.bindings.find? id = some (.equality b) ∧ b.flags = f := by
  have hc := later_constructs h ⟨u.next⟩
  obtain ⟨rfl, hnext, s, hs, hcontinues⟩ :=
    building_continues (hc.building (hc.bindSides left right)) (EqualityBinding.building_of_create hid)
  cases s with
  | equality b => exact ⟨rfl, hnext, b, hs, hcontinues.1⟩
  | _ => exact hcontinues.elim

theorem action_yields {e : Expr} (h : host.Lasting (World.Later (u.next + 1)))
    (hid : ActionBinding.create host config f e u = .ok id v) :
    id = ⟨u.next⟩ ∧ u.next < v.next ∧ ∃ b, v.bindings.find? id = some (.action b) ∧ b.flags = f := by
  rw [ActionBinding.create_eq_building] at hid
  have hc := later_constructs h ⟨u.next⟩
  obtain ⟨rfl, hnext, s, hs, hcontinues⟩ := building_continues (hc.building (hc.bindCall e)) hid
  cases s with
  | action b => exact ⟨rfl, hnext, b, hs, hcontinues.1⟩
  | _ => exact hcontinues.elim

theorem event_yields {target : Value} {name : String} {a : Action}
    (h : EventBinding.create host config f target name a u = .ok id v) :
    id = ⟨u.next⟩ ∧ u.next < v.next ∧ ∃ b, v.bindings.find? id = some (.event b) ∧ b.Performs f id name a := by
  obtain ⟨rfl, type, g, w, hattach, log, rfl⟩ := eventCreate_eq_ok h
  obtain ⟨t, htrigger, hg, hattaches, -, -⟩ := eventAttach_eq_ok hattach
  have hresponse := hattaches.made t (List.mem_singleton_self t) g hg
  let source := config.eventSources.find? host.types name type
  refine ⟨rfl, hattaches.next, { event := name, source, target := some target, handler := some g }, ?_, rfl, ?_⟩
  · exact (World.find?_setBinding ..).trans (if_pos rfl)
  · cases hs : t.source <;> simp [Handler.action?, hresponse, hs, ChangeSource.response]

theorem creation_yields (h : host.Lasting (World.Later (u.next + 1))) (hx : entry.creation? host config f = some x)
    (hid : x u = .ok id v) :
    id = ⟨u.next⟩ ∧ u.next < v.next ∧ ∃ b, v.bindings.find? id = some b ∧ entry.Yields f id b := by
  cases entry with
  | flags f => cases hx
  | expression e =>
    cases hx
    unfold Binding.create at hid
    split at hid
    · obtain ⟨rfl, hnext, b, hb, hf⟩ := equality_yields h hid
      exact ⟨rfl, hnext, _, hb, hf⟩
    · obtain ⟨rfl, hnext, b, hb, hf⟩ := action_yields h hid
      exact ⟨rfl, hnext, _, hb, hf⟩
    · obtain ⟨rfl, hnext, b, hb, hf⟩ := action_yields h hid
      exact ⟨rfl, hnext, _, hb, hf⟩
    · cases hid
  | event target name a =>
    cases hx
    obtain ⟨rfl, hnext, b, hb, hperforms⟩ := event_yields hid
    exact ⟨rfl, hnext, _, hb, hperforms⟩
  | command target name c =>
    cases hx
    obtain ⟨rfl, hnext, b, hb, hperforms⟩ := event_yields hid
    exact ⟨rfl, hnext, _, hb, hperforms⟩
  | custom name =>
    cases hx
    cases hid
    exact ⟨rfl, Nat.lt_succ_self _, .custom name, (World.find?_setBinding ..).trans (if_pos rfl), rfl⟩

end

/-! ## Sets -/

def World.Follows (w w' : World) : Prop := ∀ m, World.Later m w w'

theorem follows_chains : Chains World.Follows where
  refl w m := (later_chains m).refl w
  trans h h' m := (later_chains m).trans (h m) (h' m)

namespace World.Follows

variable {w w' : World}

theorem next (h : w.Follows w') : w.next ≤ w'.next := (h w.next (Nat.le_refl _)).1

theorem binding (h : w.Follows w') {id : BindingId} {b : Binding} (hid : id.index < w.next) (hb : w.bindings.find? id = some b) :
    ∃ b', w'.bindings.find? id = some b' ∧ b.Continues b' :=
  (h w.next (Nat.le_refl _)).2.bindings id b hid hb

end World.Follows

/-- Host code can only lead to later worlds. -/
abbrev Host.Follows (host : Host) : Prop := ∀ m, host.Lasting (World.Later m)

theorem running_follows (p : Platform) (scripts : List Act → HostCode) (fuel : Nat) :
    (p.running scripts fuel).Follows := fun m =>
  (later p scripts m).lasting (M := untouched) ((later p scripts m).perform (fun acts => (scripts acts).makes_any) fuel)

section
variable {host : Host} (hhost : host.Follows) {w w' : World} {ids : List BindingId}
include hhost

theorem creation_follows {entry : Entry} {config : Configuration} {f : Flags} {x : Effect BindingId}
    (hx : entry.creation? host config f = some x) : Lasts World.Follows x where
  ok w id w' h m := (creation_later (hhost m) hx).ok w id w' h
  error w e w' h := ⟨trivial, fun m => ((creation_later (hhost m) hx).error w e w' h).2⟩

end

/-- All these bindings exist, and their numbers are not handed out again. -/
def World.Has (w : World) (ids : List BindingId) : Prop :=
  ∀ id ∈ ids, id.index < w.next ∧ ∃ b, w.bindings.find? id = some b

theorem World.Follows.has {w w' : World} {ids : List BindingId} (h : w.Follows w') (hids : w.Has ids) : w'.Has ids := by
  intro id hid
  obtain ⟨hindex, b, hb⟩ := hids id hid
  obtain ⟨b', hb', -⟩ := h.binding hindex hb
  exact ⟨Nat.lt_of_lt_of_le hindex h.next, b', hb'⟩

theorem forM_dispose_silent {host : Host} {ids : List BindingId} {w w' : World} (hids : w.Has ids)
    (h : ids.forM host.dispose w = .ok () w') : w.Follows w' ∧ ∀ id ∈ ids, w'.Silent id := by
  induction ids generalizing w with
  | nil =>
    cases h
    exact ⟨follows_chains.refl _, List.forall_mem_nil _⟩
  | cons id ids ih =>
    obtain ⟨u, w₁, hdispose, h⟩ := bind_eq_ok.mp h
    obtain ⟨hindex, b, hb⟩ := hids id List.mem_cons_self
    have hlater : w.Follows w₁ := fun m => (dispose_later id).ok _ _ _ hdispose
    obtain ⟨hnext, hsilent⟩ := dispose_silent hb hdispose
    obtain ⟨hrest, hall⟩ := ih (hlater.has fun id' hid' => hids id' (List.mem_cons_of_mem _ hid')) h
    refine ⟨follows_chains.trans hlater hrest, List.forall_mem_cons.mpr ⟨?_, hall⟩⟩
    -- Disposing those behind it leads to a later world, where the binding cannot come alive again.
    have hindex₁ : id.index < w₁.next := Nat.lt_of_lt_of_le hindex hlater.next
    exact (silent_later (hrest w₁.next) (Nat.le_refl _) hindex₁ hsilent).2

/-- The entry has made the binding under these flags, and what was made is still there. -/
def Entry.MadeUnder (host : Host) (c : ConfigId) (f : Flags) (entry : Entry) (id : BindingId) (w : World) : Prop :=
  ∃ x u v b b', entry.creation? host (u.configuration c) f = some x ∧ x u = .ok id v ∧
    v.bindings.find? id = some b ∧ entry.Yields f id b ∧ w.bindings.find? id = some b' ∧ b.Continues b'

namespace BindingSet

section
variable {host : Host} (hhost : host.Follows) {s s' : BindingSet} {w w' : World} {entries : List Entry}
include hhost

theorem Adds.has {entry : Entry} (h : s.Adds host w entry (.ok ()) s' w') (hs : w.Has s.bindings) : w'.Has s'.bindings := by
  cases h with
  | flags f => exact hs
  | binding hx hid =>
    obtain ⟨rfl, hnext, b, hb, -⟩ := creation_yields (hhost _) hx hid
    have hold := ((creation_follows hhost hx).ok _ _ _ hid).has hs
    intro id hmem
    rcases List.mem_append.mp hmem with hmem | hmem
    · exact hold id hmem
    · cases List.mem_singleton.mp hmem
      exact ⟨hnext, b, hb⟩

theorem Grows.has (h : Grows host s w entries s' w') (hs : w.Has s.bindings) : w'.Has s'.bindings := by
  induction h with
  | nil => exact hs
  | cons hadd hrest ih => exact ih (hadd.has hhost hs)

theorem Grows.made (h : Grows host s w entries s' w') {i : Nat} {entry : Entry} (hi : entries[i]? = some entry)
    (hentry : entry.flags? = none) :
    ∃ id, s'.bindings[s.bindings.length + bindingsIn (entries.take i)]? = some id ∧
      entry.MadeUnder host s.configuration (flagsAfter s.flags (entries.take i)) id w' := by
  obtain ⟨s₁, w₁, s₂, w₂, hbefore, hadd, hbehind⟩ := h.split hi
  cases hadd with
  | flags f => cases hentry
  | @binding _ x id _ hx hid =>
    obtain ⟨rest, hrest⟩ := hbehind.kept
    refine ⟨id, ?_, ?_⟩
    · rw [← hrest, ← hbefore.length]
      simp
    · rw [hbefore.configuration, hbefore.flags] at hx
      obtain ⟨rfl, hnext, b, hb, hyields⟩ := creation_yields (hhost _) hx hid
      have hfollows := hbehind.related follows_chains (creation_follows hhost)
      obtain ⟨b', hb', hcontinues⟩ := hfollows.binding hnext hb
      exact ⟨x, w₁, w₂, b, b', hx, hid, hb, hyields, hb', hcontinues⟩

end

/-- Building a set from entries, whatever host code runs meanwhile. If it succeeds, the set has one binding for each entry
that is not a flag entry, in the order of the list; each was made under the flags of the nearest flag entry before it, or
else the default flags, and the set is left with those of the last one. If it fails, it fails at some entry, and the
bindings of the entries before it have been disposed in order. Adding an entry that fails to any set leaves the set as
it was. -/
theorem entries_built (p : Platform) (scripts : List Act → HostCode) (fuel : Nat) (c : ConfigId) (entries : List Entry)
    (w : World) :
    (∀ s w', ofEntries (p.running scripts fuel) c entries w = .ok s w' →
      s.flags = flagsAfter (w.configuration c).defaultFlags entries ∧ s.bindings.length = bindingsIn entries ∧
        ∀ i entry, entries[i]? = some entry → entry.flags? = none →
          ∃ id, s.bindings[bindingsIn (entries.take i)]? = some id ∧
            entry.MadeUnder (p.running scripts fuel) c (flagsAfter (w.configuration c).defaultFlags (entries.take i)) id w') ∧
    (∀ err w', ofEntries (p.running scripts fuel) c entries w = .error (.failed err) w' →
      ∃ n entry s w₁ w₂, entries[n]? = some entry ∧
        ofEntries (p.running scripts fuel) c (entries.take n) w = .ok s w₁ ∧
        s.tryAdd (p.running scripts fuel) entry w₁ = .ok (.error err, s) w₂ ∧
        s.bindings.forM (p.running scripts fuel).dispose w₂ = .ok () w' ∧ ∀ id ∈ s.bindings, w'.Silent id) ∧
    (∀ (s : BindingSet) entry e s' w', s.tryAdd (p.running scripts fuel) entry w = .ok (.error e, s') w' →
      s' = s ∧ ∀ id b, id.index < w.next → w.bindings.find? id = some b →
        ∃ b', w'.bindings.find? id = some b' ∧ b.Continues b') := by
  have hhost := running_follows p scripts fuel
  refine ⟨fun s w' h => ?_, fun err w' h => ?_, fun s entry e s' w' h => ?_⟩
  · have hgrows := addAll_grows ((bind_of_ok rfl).symm.trans h)
    refine ⟨hgrows.flags, by simpa using hgrows.length, fun i entry hi hentry => ?_⟩
    simpa using hgrows.made hhost hi hentry
  · obtain ⟨n, entry, s, w₁, w₂, hn, hbefore, hadd, hdispose⟩ := addAll_failed ((bind_of_ok rfl).symm.trans h)
    refine ⟨n, entry, s, w₁, w₂, hn, hbefore, hadd, hdispose, ?_⟩
    have hhas := (addAll_grows hbefore).has hhost (List.forall_mem_nil _)
    cases tryAdd_adds hadd with
    | refused hx he =>
      have hfollows := ((creation_follows hhost hx).error _ _ _ he).2
      exact (forM_dispose_silent (hfollows.has hhas) hdispose).2
  · have hadds := tryAdd_adds h
    refine ⟨hadds.of_error, fun id b hid hb => ?_⟩
    cases hadds with
    | refused hx he => exact ((creation_follows hhost hx).error _ _ _ he).2.binding hid hb

end BindingSet

namespace Clicks

def panel : List Entry :=
  [.custom "x", .flags .oneTime, .event (.object button) "Clicked" (.script []), .expression Constants.pair]

def idle : World := { objects := Table.empty.insert "a" { exposed := ["Clicked"] } }

/-- The first three entries can be added; with the last one, the two bindings before it are disposed in order. -/
theorem panel_built :
    (∃ s w', BindingSet.ofEntries host ⟨0⟩ (panel.take 3) idle = .ok s w' ∧ s.flags = .oneTime ∧ s.bindings.length = 2 ∧
      ∃ id, s.bindings[1]? = some id ∧
        Entry.MadeUnder host ⟨0⟩ .oneTime (.event (.object button) "Clicked" (.script [])) id w') ∧
    (∃ err w', BindingSet.ofEntries host ⟨0⟩ panel idle = .error (.failed err) w' ∧ err.index? = some 2 ∧
      w'.log.take 2 = ["DEBUG Removed handler [Clicked] for Model", "custom dispose x"] ∧
      ∃ n s w₁ w₂, BindingSet.ofEntries host ⟨0⟩ (panel.take n) idle = .ok s w₁ ∧
        s.bindings.forM host.dispose w₂ = .ok () w' ∧ ∀ id ∈ s.bindings, w'.Silent id) := by
  constructor
  · have hok : (result? (BindingSet.ofEntries host ⟨0⟩ (panel.take 3) idle)).isSome = true := by decide +kernel
    obtain ⟨s, hs⟩ := Option.isSome_iff_exists.mp hok
    have h := eq_ok_after hs
    obtain ⟨hflags, hlength, hmade⟩ :=
      (BindingSet.entries_built platform HostCode.ofActs 4 ⟨0⟩ (panel.take 3) idle).1 s _ h
    exact ⟨s, _, h, hflags, hlength, hmade 2 _ rfl rfl⟩
  · have hfails : (failure? (BindingSet.ofEntries host ⟨0⟩ panel idle)).bind Error.index? = some 2 := by decide +kernel
    obtain ⟨err, herr, hindex⟩ := Option.bind_eq_some_iff.mp hfails
    have h := eq_failed_after herr
    obtain ⟨n, entry, s, w₁, w₂, -, hbefore, -, hdispose, hsilent⟩ :=
      (BindingSet.entries_built platform HostCode.ofActs 4 ⟨0⟩ panel idle).2.1 err _ h
    exact ⟨err, _, h, hindex, by decide +kernel, n, s, w₁, w₂, hbefore, hdispose, hsilent⟩

end Clicks

end DataBinding
