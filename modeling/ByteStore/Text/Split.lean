/-!
# Splitting texts

A text is split at each occurrence of a character; what stands between two of them may be empty.
-/

namespace ByteStore.Text

/-- The parts of a text between the occurrences of `sep`. -/
def split (sep : Char) : List Char → List (List Char)
  | [] => [[]]
  | c :: s =>
    if c = sep then [] :: split sep s
    else
      match split sep s with
      | [] => [[c]]
      | w :: ws => (c :: w) :: ws

theorem split_ne_nil (sep : Char) (s : List Char) : split sep s ≠ [] := by
  cases s with
  | nil => simp [split]
  | cons c s =>
    rw [split]
    split
    · simp
    · split <;> simp

theorem notMem_of_mem_split {sep : Char} {s w : List Char} (h : w ∈ split sep s) : sep ∉ w := by
  induction s generalizing w with
  | nil =>
    simp only [split, List.mem_singleton] at h
    simp [h]
  | cons c s ih =>
    rw [split] at h
    split at h
    · rcases List.mem_cons.1 h with rfl | h
      · simp
      · exact ih h
    · rename_i hc
      split at h
      · rw [List.mem_singleton.1 h]
        simpa using Ne.symm hc
      · rename_i v vs hs
        rcases List.mem_cons.1 h with rfl | h
        · simp only [List.mem_cons, not_or]
          exact ⟨Ne.symm hc, ih (hs ▸ List.mem_cons_self)⟩
        · exact ih (hs ▸ List.mem_cons_of_mem _ h)

theorem split_of_notMem {sep : Char} {w : List Char} (h : sep ∉ w) : split sep w = [w] := by
  induction w with
  | nil => rfl
  | cons c w ih =>
    simp only [List.mem_cons, not_or] at h
    rw [split, if_neg (Ne.symm h.1), ih h.2]

/-- A part without separators at the end is the last part. -/
theorem split_append {sep : Char} {w : List Char} (h : sep ∉ w) (s : List Char) :
    split sep (s ++ sep :: w) = split sep s ++ [w] := by
  induction s with
  | nil => simp [split, split_of_notMem h]
  | cons c s ih =>
    rw [List.cons_append, split, split, ih]
    split
    · rfl
    · cases hs : split sep s with
      | nil => exact absurd hs (split_ne_nil sep s)
      | cons v vs => rfl

end ByteStore.Text
