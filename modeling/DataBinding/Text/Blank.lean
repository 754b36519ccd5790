/-!
# Blank characters

The characters of the Unicode property White_Space, and trimming of a text at both ends.
-/

namespace DataBinding.Text

/-- The 25 characters with the property White_Space. -/
def isBlank (c : Char) : Bool :=
  let n := c.toNat
  (9 ≤ n && n ≤ 13) || n == 0x20 || n == 0x85 || n == 0xA0 || n == 0x1680 ||
    (0x2000 ≤ n && n ≤ 0x200A) || n == 0x2028 || n == 0x2029 || n == 0x202F || n == 0x205F || n == 0x3000

def trimLeft (cs : List Char) : List Char := cs.dropWhile isBlank

def trim (cs : List Char) : List Char := (trimLeft (trimLeft cs).reverse).reverse

/-- The blanks of ASCII are among them. -/
theorem isBlank_of_isWhitespace {c : Char} (h : c.isWhitespace = true) : isBlank c = true := by
  simp only [Char.isWhitespace, Bool.or_eq_true, decide_eq_true_eq] at h
  rcases h with ((h | h) | h) | h <;> subst h <;> decide

theorem trimLeft_eq_self {cs : List Char} (h : ∀ c ∈ cs.head?, isBlank c = false) : trimLeft cs = cs := by
  cases cs with
  | nil => rfl
  | cons c cs => simp [trimLeft, h c (by simp)]

theorem trimLeft_append {lead cs : List Char} (h : ∀ c ∈ lead, isBlank c = true) :
    trimLeft (lead ++ cs) = trimLeft cs :=
  List.dropWhile_append_of_pos h

/-- Blanks around a text that neither begins nor ends with one are what trimming takes away. -/
theorem trim_surrounded {lead cs trail : List Char} (hblank : ∀ c ∈ lead ++ trail, isBlank c = true)
    (hd : ∀ c ∈ cs.head?, isBlank c = false) (hl : ∀ c ∈ cs.getLast?, isBlank c = false) :
    trim (lead ++ cs ++ trail) = cs := by
  rw [List.forall_mem_append] at hblank
  have hreversed : ∀ c ∈ trail.reverse, isBlank c = true := fun c hc => hblank.2 c (List.mem_reverse.mp hc)
  rw [trim, List.append_assoc, trimLeft_append hblank.1]
  cases cs with
  | nil =>
    have htrail : trimLeft (trail ++ []) = [] := trimLeft_append hblank.2
    rw [List.append_nil] at htrail
    rw [List.nil_append, htrail]
    rfl
  | cons c cs =>
    have hfront : trimLeft (c :: cs ++ trail) = c :: cs ++ trail := trimLeft_eq_self hd
    have hback : trimLeft (c :: cs).reverse = (c :: cs).reverse := by
      refine trimLeft_eq_self ?_
      rwa [List.head?_reverse]
    rw [hfront, List.reverse_append, trimLeft_append hreversed, hback, List.reverse_reverse]

/-- What trimming takes away is blank. -/
theorem exists_trim (cs : List Char) :
    ∃ lead trail, cs = lead ++ trim cs ++ trail ∧ ∀ c ∈ lead ++ trail, isBlank c = true := by
  have htaken : ∀ ds : List Char, ∀ c ∈ ds.takeWhile isBlank, isBlank c = true :=
    fun _ => List.all_eq_true.mp List.all_takeWhile
  have hkept : ∀ ds : List Char, ds.takeWhile isBlank ++ trimLeft ds = ds := fun _ => List.takeWhile_append_dropWhile
  refine ⟨cs.takeWhile isBlank, ((trimLeft cs).reverse.takeWhile isBlank).reverse, ?_, ?_⟩
  · rw [List.append_assoc, trim, ← List.reverse_append, hkept, List.reverse_reverse, hkept]
  · rw [List.forall_mem_append]
    exact ⟨htaken cs, fun c hc => htaken _ c (List.mem_reverse.mp hc)⟩

end DataBinding.Text
