import DataBinding.Value.Convert
import DataBinding.Proofs.Schema.Lineage

/-!
# Conversions deliver

A conversion that succeeds gives null for null and otherwise a value that the wanted type takes (`change_delivers`).
Then there is nothing left to convert, and a cast that succeeds too gives the same. Scalars are what makes this more
than a look at the lineage: they are made anew, while a value of any other type passes as it is.
-/

namespace DataBinding

/-- The types that have conversions of their own. -/
def TypeId.isScalar (t : TypeId) : Bool := t.isPrimitive || t = .string

theorem TypeTable.isAssignable_scalar {types : TypeTable} {s t : TypeId} (hs : s.isScalar = true)
    (h : types.isAssignable t s = true) : t = s ∨ t = .object := by
  have hbuiltin : s.index < builtin.length ∧ s ≠ .object := by
    simp only [TypeId.isScalar, TypeId.isPrimitive, Bool.or_eq_true, decide_eq_true_eq] at hs
    rcases hs with ((rfl | rfl) | rfl) | rfl <;> decide
  rw [isAssignable, lineage_builtin hbuiltin.1, builtinLineage, if_neg hbuiltin.2, if_pos hbuiltin.1] at h
  simpa using h

namespace Value

section

variable {types : TypeTable} {target source : TypeId} {v w : Value}

theorem toBool?_eq_some (h : v.toBool? = some w) :
    w.type? = some .bool ∧ ∃ s, v.type? = some s ∧ s.isScalar = true := by
  cases v <;> simp only [toBool?, Option.map_eq_some_iff, Option.some.injEq, reduceCtorEq] at h
  case integer => exact ⟨h ▸ rfl, _, rfl, rfl⟩
  case number => exact ⟨h ▸ rfl, _, rfl, rfl⟩
  case text =>
    obtain ⟨b, -, rfl⟩ := h
    exact ⟨rfl, _, rfl, rfl⟩

theorem toInt?_eq_some (h : v.toInt? = some w) :
    w.type? = some .int ∧ ∃ s, v.type? = some s ∧ s.isScalar = true := by
  cases v <;> simp only [toInt?, Option.map_eq_some_iff, Option.some.injEq, reduceCtorEq] at h
  case boolean => exact ⟨h ▸ rfl, _, rfl, rfl⟩
  case number =>
    obtain ⟨i, -, rfl⟩ := h
    exact ⟨rfl, _, rfl, rfl⟩
  case text =>
    obtain ⟨i, -, rfl⟩ := h
    exact ⟨rfl, _, rfl, rfl⟩

theorem toFloat?_eq_some (h : v.toFloat? = some w) :
    w.type? = some .float ∧ ∃ s, v.type? = some s ∧ s.isScalar = true := by
  cases v <;> simp only [toFloat?, Option.map_eq_some_iff, Option.some.injEq, reduceCtorEq] at h
  case boolean => exact ⟨h ▸ rfl, _, rfl, rfl⟩
  case integer => exact ⟨h ▸ rfl, _, rfl, rfl⟩
  case text =>
    obtain ⟨x, -, rfl⟩ := h
    exact ⟨rfl, _, rfl, rfl⟩

theorem toText?_eq_some (h : v.toText? types = some w) :
    w.type? = some .string ∧ ∃ s, v.type? = some s ∧ s.isScalar = true := by
  cases v <;> simp only [toText?, Option.some.injEq, reduceCtorEq] at h
  case boolean => exact ⟨h ▸ rfl, _, rfl, rfl⟩
  case integer => exact ⟨h ▸ rfl, _, rfl, rfl⟩
  case number => exact ⟨h ▸ rfl, _, rfl, rfl⟩

/-- A conversion makes a scalar out of a scalar, or lets the value pass. -/
theorem convert?_eq_some (h : v.convert? types target source = some w) :
    (target.isScalar = true ∧ w.type? = some target ∧ ∃ s, v.type? = some s ∧ s.isScalar = true) ∨
      (types.isAssignable target source = true ∧ w = v) := by
  unfold convert? at h
  split at h
  next ht => exact .inl ⟨ht ▸ rfl, ht ▸ toBool?_eq_some h⟩
  split at h
  next ht => exact .inl ⟨ht ▸ rfl, ht ▸ toInt?_eq_some h⟩
  split at h
  next ht => exact .inl ⟨ht ▸ rfl, ht ▸ toFloat?_eq_some h⟩
  split at h
  next ht => exact .inl ⟨ht ▸ rfl, ht ▸ toText?_eq_some h⟩
  split at h
  next hassign =>
    cases h
    exact .inr ⟨hassign, rfl⟩
  next => cases h

theorem change_eq_ok :
    v.change types target = .ok w ↔
      (v = null ∧ w = null ∧ types.isValueType target = false) ∨
        ∃ s, v.type? = some s ∧ (if s = target then w = v else v.convert? types target s = some w) := by
  unfold change
  cases hv : v.type? with
  | none =>
    rw [(type?_eq_none_iff v).mp hv]
    cases types.isValueType target <;> simp [eq_comm]
  | some s =>
    have hne : v ≠ null := by
      rintro rfl
      cases hv
    simp only [hne, false_and, false_or, Option.some.injEq, exists_eq_left']
    split
    · simp [eq_comm]
    · cases v.convert? types target s <;> simp [eq_comm]

theorem change_of_type (h : v.type? = some target) : v.change types target = .ok v :=
  change_eq_ok.mpr (.inr ⟨target, h, by rw [if_pos rfl]⟩)

theorem null_change : (∃ w, null.change types target = .ok w) ↔ types.isValueType target = false := by
  simp [change_eq_ok, type?]

theorem cast_eq_ok {u : Value} (h : v.cast types target = .ok u) :
    u = v ∧ ∀ s, v.type? = some s → types.isAssignable target s = true := by
  unfold cast at h
  cases hv : v.type? with
  | none =>
    simp only [hv, Except.ok.injEq] at h
    exact ⟨h.symm, nofun⟩
  | some s =>
    simp only [hv] at h
    split at h
    next hassign =>
      cases h
      refine ⟨rfl, ?_⟩
      rintro s' hs
      cases hs
      exact hassign
    next => cases h

theorem change_type? (ht : target.index < types.next.index) (h : v.change types target = .ok w) :
    (v = null ∧ w = null ∧ types.isValueType target = false) ∨
      ∃ t, w.type? = some t ∧ types.isAssignable target t = true := by
  have hself : types.isAssignable target target = true := decide_eq_true (TypeTable.mem_lineage_self ht)
  rcases change_eq_ok.mp h with hnull | ⟨s, hs, hw⟩
  · exact .inl hnull
  · split at hw
    next heq => exact .inr ⟨target, by rw [hw, hs, heq], hself⟩
    next =>
      rcases convert?_eq_some hw with ⟨-, htype, -⟩ | ⟨hassign, rfl⟩
      · exact .inr ⟨target, htype, hself⟩
      · exact .inr ⟨s, hs, hassign⟩

theorem change_change (h : v.change types target = .ok w) : w.change types target = .ok w := by
  rcases change_eq_ok.mp h with ⟨rfl, rfl, -⟩ | ⟨s, hs, hw⟩
  · exact h
  · split at hw
    next =>
      rw [hw] at h ⊢
      exact h
    next =>
      rcases convert?_eq_some hw with ⟨-, htype, -⟩ | ⟨-, rfl⟩
      · exact change_of_type htype
      · exact h

theorem cast_eq_change {u : Value} (h : v.change types target = .ok w) (hcast : v.cast types target = .ok u) :
    u = w := by
  obtain ⟨rfl, hassign⟩ := cast_eq_ok hcast
  rcases change_eq_ok.mp h with ⟨rfl, rfl, -⟩ | ⟨s, hs, hw⟩
  · rfl
  · split at hw
    next => exact hw.symm
    next hne =>
      rcases convert?_eq_some hw with ⟨hscalar, -, s', hs', hsource⟩ | ⟨-, hw⟩
      · -- a scalar of another type is not assignable to the one that is wanted
        rw [hs] at hs'
        cases hs'
        rcases TypeTable.isAssignable_scalar hsource (hassign s hs) with rfl | rfl
        · exact absurd rfl hne
        · cases hscalar
      · exact hw.symm

/-- A conversion delivers the wanted type: null, if that was null and the type is one of references, or a value that
the type takes. Converted once more it stays as it is, and a cast of the same value to the same type gives nothing
else. Null goes where references go. -/
theorem change_delivers (ht : target.index < types.next.index) (v : Value) :
    (∀ w, v.change types target = .ok w →
      ((v = null ∧ w = null ∧ types.isValueType target = false) ∨
        ∃ t, w.type? = some t ∧ types.isAssignable target t = true) ∧
      w.change types target = .ok w ∧ ∀ u, v.cast types target = .ok u → u = w) ∧
      ((∃ w, null.change types target = .ok w) ↔ types.isValueType target = false) :=
  ⟨fun _ h => ⟨change_type? ht h, change_change h, fun _ hcast => cast_eq_change h hcast⟩, null_change⟩

end

end Value

namespace Depots

open Value

def depot : TypeInfo := { name := "Depot" }

def harbor : TypeInfo := { name := "Harbor", base := some ⟨5⟩ }

def types : TypeTable := ⟨[harbor, depot]⟩

def port : Value := .object ⟨"port", ⟨6⟩, .model⟩

/-- A harbor passes for a depot, a text of blanks and digits becomes an integer that no cast makes of it. -/
theorem port_delivered :
    (port.change types ⟨5⟩ = .ok port ∧ (∃ t, port.type? = some t ∧ types.isAssignable ⟨5⟩ t = true) ∧
        ∀ u, port.cast types ⟨5⟩ = .ok u → u = port) ∧
      ((text " 7 ").change types .int = .ok (integer 7) ∧ (integer 7).change types .int = .ok (integer 7)) := by
  have hport : port.change types ⟨5⟩ = .ok port := rfl
  have htext : (text " 7 ").change types .int = .ok (integer 7) := rfl
  have hdepot : (⟨5⟩ : TypeId).index < types.next.index := by decide
  have hint : TypeId.int.index < types.next.index := by decide
  obtain ⟨hdelivered, -, hcast⟩ := (change_delivers hdepot port).1 port hport
  obtain ⟨-, hagain, -⟩ := (change_delivers hint (text " 7 ")).1 _ htext
  refine ⟨⟨hport, ?_, hcast⟩, htext, hagain⟩
  rcases hdelivered with ⟨hnull, -⟩ | htype
  · cases hnull
  · exact htype

end Depots

end DataBinding
