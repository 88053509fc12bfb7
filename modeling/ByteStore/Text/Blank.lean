/-!
# Blanks

The characters that Unicode calls `White_Space`, and texts without them at their ends.
-/

namespace ByteStore.Text

/-- The `White_Space` characters of Unicode, as ranges of code points. -/
def blankRanges : List (Nat × Nat) :=
  [(0x09, 0x0D), (0x20, 0x20), (0x85, 0x85), (0xA0, 0xA0), (0x1680, 0x1680), (0x2000, 0x200A),
    (0x2028, 0x2029), (0x202F, 0x202F), (0x205F, 0x205F), (0x3000, 0x3000)]

/-- Whether a character is white space. -/
def isBlank (c : Char) : Bool :=
  blankRanges.any fun r => decide (r.1 ≤ c.toNat) && decide (c.toNat ≤ r.2)

theorem isBlank_of_isWhitespace {c : Char} (h : c.isWhitespace = true) : isBlank c = true := by
  simp only [Char.isWhitespace, Bool.or_eq_true, decide_eq_true_eq] at h
  rcases h with ((rfl | rfl) | rfl) | rfl <;> decide

/-- The text without the blanks it starts with. -/
def trimStart (s : List Char) : List Char := s.dropWhile isBlank

/-- The text without the blanks it ends with. -/
def trimEnd (s : List Char) : List Char := (s.reverse.dropWhile isBlank).reverse

/-- The text without the blanks at its ends. -/
def trim (s : List Char) : List Char := trimEnd (trimStart s)

@[simp] theorem trim_nil : trim [] = [] := rfl

theorem dropWhile_isBlank_eq_self {s : List Char} (h : ∀ c ∈ s.head?, isBlank c = false) :
    s.dropWhile isBlank = s := by
  cases s with
  | nil => rfl
  | cons c s => simp [h c rfl]

theorem trim_eq_self {s : List Char} (hfirst : ∀ c ∈ s.head?, isBlank c = false)
    (hlast : ∀ c ∈ s.getLast?, isBlank c = false) : trim s = s := by
  have hreverse : ∀ c ∈ s.reverse.head?, isBlank c = false := by rwa [List.head?_reverse]
  rw [trim, trimStart, trimEnd, dropWhile_isBlank_eq_self hfirst,
    dropWhile_isBlank_eq_self hreverse, List.reverse_reverse]

end ByteStore.Text
