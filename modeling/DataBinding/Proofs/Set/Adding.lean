import DataBinding.Binding.Set
import DataBinding.Proofs.Binding.Dispose

/-!
# Adding entries

What an entry does to a binding set hangs on the flags and the number of bindings that the set has come to. After a list of
entries these are the flags of the last flag entry and the number of the other entries (`addAll_ok`). A list that cannot be
added stops at its first failing entry, and the error has the number of bindings before that entry
(`entries_fail_at`), which is less than its position if there are flag entries before it (`index_skips_flags`).
-/

namespace DataBinding

open Effect

namespace Entry

def flags? : Entry → Option Flags
  | .flags f => some f
  | _ => none

def text? (types : TypeTable) : Entry → Option String
  | .expression e => some (e.render types)
  | _ => none

/-- How the entry makes its binding. -/
def creation? (host : Host) (config : Configuration) (f : Flags) : Entry → Option (Effect BindingId)
  | .flags _ => none
  | .expression e => some (Binding.create host config f e)
  | .event target name a => some (EventBinding.create host config f target name a)
  | .command target name c => some (EventBinding.create host config f target name (.command c))
  | .custom name => some do
    let id := BindingId.mk (← fresh)
    modify (·.setBinding id (.custom name))
    return id

theorem flags?_eq_none {host : Host} {config : Configuration} {f : Flags} {entry : Entry} :
    entry.flags? = none ↔ ∃ x, entry.creation? host config f = some x := by
  cases entry <;> simp [creation?, flags?]

end Entry

def flagsAfter (d : Flags) (entries : List Entry) : Flags := (entries.filterMap Entry.flags?).getLast?.getD d

def bindingsIn (entries : List Entry) : Nat := entries.countP (·.flags?.isNone)

theorem flagsAfter_cons (d : Flags) (entry : Entry) (entries : List Entry) :
    flagsAfter d (entry :: entries) = flagsAfter (entry.flags?.getD d) entries := by
  cases h : entry.flags? <;> simp [flagsAfter, h, List.getLast?_cons]

theorem bindingsIn_cons (entry : Entry) (entries : List Entry) :
    bindingsIn (entry :: entries) = (if entry.flags?.isNone then 1 else 0) + bindingsIn entries := by
  simp [bindingsIn, List.countP_cons, Nat.add_comm]

theorem bindingsIn_add_flags (entries : List Entry) :
    bindingsIn entries + entries.countP (·.flags?.isSome) = entries.length := by
  induction entries with
  | nil => rfl
  | cons entry entries ih =>
    rw [bindingsIn_cons, List.countP_cons, List.length_cons]
    cases entry.flags? <;> simp <;> omega

namespace BindingSet

/-! ## One entry -/

/-- All that adding one entry can do. -/
inductive Adds (host : Host) (s : BindingSet) (w : World) : Entry → Except Error Unit → BindingSet → World → Prop where
  | flags (f : Flags) : Adds host s w (.flags f) (.ok ()) { s with flags := f } w
  | binding {entry x id w'} (hx : entry.creation? host (w.configuration s.configuration) s.flags = some x)
      (hid : x w = .ok id w') : Adds host s w entry (.ok ()) { s with bindings := s.bindings ++ [id] } w'
  | refused {entry x e w'} (hx : entry.creation? host (w.configuration s.configuration) s.flags = some x)
      (he : x w = .error (.failed e) w') :
      Adds host s w entry (.error (.entry s.bindings.length (entry.text? host.types) e)) s w'

section
variable {host : Host} {s s' : BindingSet} {w w' : World} {entry : Entry} {r : Except Error Unit}

theorem tryBind_adds {text : Option String} {x : Effect BindingId} (htext : text = entry.text? host.types)
    (hx : entry.creation? host (w.configuration s.configuration) s.flags = some x)
    (h : s.tryBind text x w = .ok (r, s') w') : s.Adds host w entry r s' w' := by
  subst htext
  obtain ⟨outcome, w₁, ha, h⟩ := bind_eq_ok.mp h
  cases outcome with
  | ok id =>
    cases h
    exact .binding hx (attempt_eq_ok.mp ha)
  | error e =>
    cases h
    exact .refused hx (attempt_eq_failed.mp ha)

theorem tryAdd_adds (h : s.tryAdd host entry w = .ok (r, s') w') : s.Adds host w entry r s' w' := by
  obtain ⟨_, _, hget, h⟩ := bind_eq_ok.mp h
  cases hget
  cases entry with
  | flags f =>
    cases h
    exact .flags f
  | expression e => exact tryBind_adds rfl rfl h
  | event target event a => exact tryBind_adds rfl rfl h
  | command target event c => exact tryBind_adds rfl rfl h
  | custom name =>
    cases h
    exact .binding rfl rfl

theorem Adds.of_error {e : Error} (h : s.Adds host w entry (.error e) s' w') : s' = s := by
  cases h
  rfl

theorem tryAdd_error {e : Stop} (h : s.tryAdd host entry w = .error e w') : e = .exhausted := by
  have hbind (text : Option String) (x : Effect BindingId) (h : s.tryBind text x w = .error e w') : e = .exhausted := by
    obtain ha | ⟨outcome, w₁, -, h⟩ := bind_eq_error.mp h
    · exact (attempt_eq_error.mp ha).1
    · cases outcome <;> cases h
  replace h := bind_get.symm.trans h
  cases entry with
  | flags f => cases h
  | expression e => exact hbind _ _ h
  | event target event a => exact hbind _ _ h
  | command target event c => exact hbind _ _ h
  | custom name => cases h

end

/-! ## Many entries -/

/-- Entries that can all be added, one after the other. -/
inductive Grows (host : Host) : BindingSet → World → List Entry → BindingSet → World → Prop where
  | nil (s : BindingSet) (w : World) : Grows host s w [] s w
  | cons {s w entry s₁ w₁ entries s' w'} (hadd : s.Adds host w entry (.ok ()) s₁ w₁)
      (hrest : Grows host s₁ w₁ entries s' w') : Grows host s w (entry :: entries) s' w'

section
variable {host : Host} {s s' : BindingSet} {w w' : World} {entries : List Entry}

theorem addAll_grows (h : addAll host s entries w = .ok s' w') : Grows host s w entries s' w' := by
  induction entries generalizing s w with
  | nil =>
    cases h
    exact .nil _ _
  | cons entry entries ih =>
    obtain ⟨⟨r, s₁⟩, w₁, hadd, h⟩ := bind_eq_ok.mp h
    cases r with
    | ok u => exact .cons (tryAdd_adds hadd) (ih h)
    | error e =>
      obtain ⟨_, _, -, h⟩ := bind_eq_ok.mp h
      cases h

theorem forM_dispose_returns (host : Host) (ids : List BindingId) (w : World) :
    ∃ w', ids.forM host.dispose w = .ok () w' := by
  induction ids generalizing w with
  | nil => exact ⟨w, rfl⟩
  | cons id ids ih =>
    obtain ⟨w₁, h₁⟩ := dispose_returns host id w
    obtain ⟨w', h'⟩ := ih w₁
    exact ⟨w', (bind_of_ok h₁).trans h'⟩

/-- Where entries cannot be added, there is a first of them that cannot, and the bindings before it are disposed. -/
theorem addAll_failed {err : Error} (h : addAll host s entries w = .error (.failed err) w') :
    ∃ n entry s₁ w₁ w₂, entries[n]? = some entry ∧ addAll host s (entries.take n) w = .ok s₁ w₁ ∧
      s₁.tryAdd host entry w₁ = .ok (.error err, s₁) w₂ ∧ s₁.bindings.forM host.dispose w₂ = .ok () w' := by
  -- The disposal never fails, so the error is that of the entry.
  induction entries generalizing s w with
  | nil => cases h
  | cons entry entries ih =>
    obtain hadd | ⟨⟨r, s₁⟩, w₁, hadd, h⟩ := bind_eq_error.mp h
    · cases tryAdd_error hadd
    · cases r with
      | ok u =>
        obtain ⟨n, failing, s₂, w₂, w₃, hn, hbefore, hrest⟩ := ih h
        exact ⟨n + 1, failing, s₂, w₂, w₃, hn, (bind_of_ok hadd).trans hbefore, hrest⟩
      | error e =>
        obtain ⟨w₂, hdispose⟩ := forM_dispose_returns host s₁.bindings w₁
        have hall : s₁.dispose host w₁ = .ok { s₁ with bindings := [] } w₂ := bind_of_ok hdispose
        cases (bind_of_ok hall).symm.trans h
        cases (tryAdd_adds hadd).of_error
        exact ⟨0, entry, s, w, w₁, rfl, rfl, hadd, hdispose⟩

namespace Grows

variable {s : BindingSet} {w : World}

theorem configuration (h : Grows host s w entries s' w') : s'.configuration = s.configuration := by
  induction h with
  | nil => rfl
  | cons hadd hrest ih => cases hadd <;> exact ih

theorem flags (h : Grows host s w entries s' w') : s'.flags = flagsAfter s.flags entries := by
  induction h with
  | nil => rfl
  | cons hadd hrest ih =>
    rw [ih, flagsAfter_cons]
    cases hadd with
    | flags f => rfl
    | binding hx hid => rw [Entry.flags?_eq_none.mpr ⟨_, hx⟩]; rfl

theorem length (h : Grows host s w entries s' w') : s'.bindings.length = s.bindings.length + bindingsIn entries := by
  induction h with
  | nil => rfl
  | cons hadd hrest ih =>
    rw [ih, bindingsIn_cons]
    cases hadd with
    | flags f => simp [Entry.flags?]
    | binding hx hid => simp [Entry.flags?_eq_none.mpr ⟨_, hx⟩, Nat.add_assoc]

theorem kept (h : Grows host s w entries s' w') : s.bindings <+: s'.bindings := by
  induction h with
  | nil => exact List.prefix_rfl
  | cons hadd hrest ih =>
    cases hadd with
    | flags f => exact ih
    | binding hx hid => exact (List.prefix_append _ _).trans ih

theorem related {R : World → World → Prop} (hR : Chains R)
    (hkeeps : ∀ {entry : Entry} {config f x}, entry.creation? host config f = some x → Lasts R x)
    (h : Grows host s w entries s' w') : R w w' := by
  induction h with
  | nil => exact hR.refl _
  | cons hadd hrest ih =>
    cases hadd with
    | flags f => exact ih
    | binding hx hid => exact hR.trans ((hkeeps hx).ok _ _ _ hid) ih

theorem split (h : Grows host s w entries s' w') {i : Nat} {entry : Entry} (hi : entries[i]? = some entry) :
    ∃ s₁ w₁ s₂ w₂, Grows host s w (entries.take i) s₁ w₁ ∧ s₁.Adds host w₁ entry (.ok ()) s₂ w₂ ∧
      Grows host s₂ w₂ (entries.drop (i + 1)) s' w' := by
  induction h generalizing i with
  | nil => cases hi
  | cons hadd hrest ih =>
    cases i with
    | zero =>
      cases hi
      exact ⟨_, _, _, _, .nil _ _, hadd, hrest⟩
    | succ i =>
      obtain ⟨s₁, w₁, s₂, w₂, hbefore, hentry, hbehind⟩ := ih hi
      exact ⟨s₁, w₁, s₂, w₂, .cons hadd hbefore, hentry, hbehind⟩

end Grows

/-- A list of entries that cannot be added stops at its first failing entry. The error names the number of bindings made
before, to which the flag entries before it have to be added for its position, and the text of an expression; its
root is that of the error which making the binding has ended with. -/
theorem entries_fail_at {c : ConfigId} {err : Error} (h : ofEntries host c entries w = .error (.failed err) w') :
    ∃ n entry s₁ w₁ w₂ x e, entries[n]? = some entry ∧ ofEntries host c (entries.take n) w = .ok s₁ w₁ ∧
      entry.creation? host (w₁.configuration c) (flagsAfter (w.configuration c).defaultFlags (entries.take n)) = some x ∧
      x w₁ = .error (.failed e) w₂ ∧
      err = .entry (bindingsIn (entries.take n)) (entry.text? host.types) e ∧
      bindingsIn (entries.take n) + (entries.take n).countP (·.flags?.isSome) = n ∧
      err.root = e.root ∧ ((∀ i text e', e ≠ .entry i text e') → err.root = e) := by
  replace h := (bind_of_ok rfl).symm.trans h
  obtain ⟨n, entry, s₁, w₁, w₂, hn, hbefore, hadd, -⟩ := addAll_failed h
  have hgrows := addAll_grows hbefore
  have hlength := hgrows.length
  have hflags := hgrows.flags
  have hc := hgrows.configuration
  simp only [List.length_nil, Nat.zero_add] at hlength
  have htake : (entries.take n).length = n := by
    have hlt := (List.getElem?_eq_some_iff.mp hn).1
    rw [List.length_take]
    omega
  cases tryAdd_adds hadd with
  | @refused _ x e _ hx he =>
    rw [hc, hflags] at hx
    refine ⟨n, entry, s₁, w₁, w₂, x, e, hn, hbefore, hx, he, by rw [hlength], ?_, rfl, ?_⟩
    · rw [bindingsIn_add_flags, htake]
    · intro hplain
      cases e with
      | entry i text e' => exact absurd rfl (hplain i text e')
      | _ => rfl

end

end BindingSet

def Error.index? : Error → Option Nat
  | .entry i _ _ => some i
  | _ => none

namespace Constants

def host : Host := ⟨⟨⟨[]⟩, fun _ => "", none⟩, fun _ => pure ()⟩

def number (n : Int64) : Expr := .constant (.integer n) .int none

def pair : Expr := .binary .equal (number 1) (number 2) .bool

def entries : List Entry := [.flags .twoWay, .expression pair]

/-- The second entry fails, but the error says `0`, as the flag entry has made no binding. -/
theorem flag_entry_not_counted :
    (failure? (BindingSet.ofEntries host ⟨0⟩ entries {})).bind Error.index? = some 0 ∧
      (∃ s w, BindingSet.ofEntries host ⟨0⟩ (entries.take 1) {} = .ok s w) ∧ entries.length = 2 :=
  ⟨by decide +kernel, ⟨_, _, rfl⟩, rfl⟩

theorem constants_refused :
    ∃ err w', BindingSet.ofEntries host ⟨0⟩ entries {} = .error (.failed err) w' ∧
      ∃ e, err = .entry 0 (some "1 == 2") e ∧ err.root = e.root := by
  have hfails : (failure? (BindingSet.ofEntries host ⟨0⟩ entries {})).isSome = true := by decide +kernel
  obtain ⟨err, herr⟩ := Option.isSome_iff_exists.mp hfails
  have h := eq_failed_after herr
  obtain ⟨n, entry, s₁, w₁, w₂, x, e, hn, -, hx, -, hentry, -, hroot, -⟩ := BindingSet.entries_fail_at h
  refine ⟨err, _, h, e, ?_, hroot⟩
  have htext : (Entry.expression pair).text? host.types = some "1 == 2" := by decide +kernel
  rw [hentry]
  cases n with
  | zero =>
    cases hn
    cases hx
  | succ n =>
    cases n with
    | zero =>
      cases hn
      rw [htext]
      rfl
    | succ n => cases hn

end Constants

end DataBinding
