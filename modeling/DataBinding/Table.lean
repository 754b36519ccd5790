/-!
# Tables

Finite maps as lists of pairs in the order in which the keys first came in. Looking up after an insertion
or a removal is described by `find?_insert` and `find?_erase`.
-/

namespace DataBinding

/-- A finite map that remembers the order of its keys. -/
structure Table (κ α : Type) where
  entries : List (κ × α) := []

namespace Table

variable {κ α : Type} [DecidableEq κ]

def empty : Table κ α := ⟨[]⟩

instance : Inhabited (Table κ α) := ⟨empty⟩

def lookup (k : κ) : List (κ × α) → Option α
  | [] => none
  | (k', a) :: rest => if k' = k then some a else lookup k rest

def find? (t : Table κ α) (k : κ) : Option α := lookup k t.entries

def contains (t : Table κ α) (k : κ) : Bool := (t.find? k).isSome

def size (t : Table κ α) : Nat := t.entries.length

/-- Replaces the value of `k` at its place, or adds the key at the end. -/
def insertEntry (k : κ) (a : α) : List (κ × α) → List (κ × α)
  | [] => [(k, a)]
  | (k', a') :: rest => if k' = k then (k, a) :: rest else (k', a') :: insertEntry k a rest

def insert (t : Table κ α) (k : κ) (a : α) : Table κ α := ⟨insertEntry k a t.entries⟩

def eraseEntry (k : κ) : List (κ × α) → List (κ × α)
  | [] => []
  | (k', a') :: rest => if k' = k then eraseEntry k rest else (k', a') :: eraseEntry k rest

def erase (t : Table κ α) (k : κ) : Table κ α := ⟨eraseEntry k t.entries⟩

@[simp] theorem find?_empty (k : κ) : (empty : Table κ α).find? k = none := rfl

theorem lookup_insertEntry (k k' : κ) (a : α) (es : List (κ × α)) :
    lookup k' (insertEntry k a es) = if k = k' then some a else lookup k' es := by
  induction es with
  | nil => simp [insertEntry, lookup]
  | cons e es ih => grind [insertEntry, lookup]

@[simp] theorem find?_insert (t : Table κ α) (k k' : κ) (a : α) :
    (t.insert k a).find? k' = if k = k' then some a else t.find? k' :=
  lookup_insertEntry k k' a t.entries

theorem lookup_eraseEntry (k k' : κ) (es : List (κ × α)) :
    lookup k' (eraseEntry k es) = if k = k' then none else lookup k' es := by
  induction es with
  | nil => simp [eraseEntry, lookup]
  | cons e es ih => grind [eraseEntry, lookup]

@[simp] theorem find?_erase (t : Table κ α) (k k' : κ) :
    (t.erase k).find? k' = if k = k' then none else t.find? k' :=
  lookup_eraseEntry k k' t.entries

end Table

end DataBinding
