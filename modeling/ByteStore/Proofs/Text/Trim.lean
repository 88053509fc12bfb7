import ByteStore.Text.Blank
import Mathlib.Data.List.TakeWhile
import Mathlib.Tactic.Common

/-!
# Trimming

Trimming takes blanks off the ends of a text (`exists_eq_append_trim`) and is not changed by blanks
that are put there (`trim_append`). It stops at the first character that can be seen.
-/

namespace ByteStore.Text

/-- A text of blanks only. -/
def AllBlank (s : List Char) : Prop := ∀ c ∈ s, isBlank c = true

instance (s : List Char) : Decidable (AllBlank s) := List.decidableBAll _ s

/-- A text that does not start with a blank. -/
def StartsVisibly (s : List Char) : Prop := ∀ c ∈ s.head?, isBlank c = false

/-- A text that does not end with a blank. -/
def EndsVisibly (s : List Char) : Prop := ∀ c ∈ s.getLast?, isBlank c = false

variable {a b s t : List Char}

lemma allBlank_nil : AllBlank [] := List.forall_mem_nil _

lemma AllBlank.append (ha : AllBlank a) (hb : AllBlank b) : AllBlank (a ++ b) :=
  List.forall_mem_append.2 ⟨ha, hb⟩

lemma AllBlank.reverse (ha : AllBlank a) : AllBlank a.reverse :=
  fun c hc => ha c (List.mem_reverse.1 hc)

lemma EndsVisibly.reverse (hs : EndsVisibly s) : StartsVisibly s.reverse := by
  intro c hc
  rw [List.head?_reverse] at hc
  exact hs c hc

lemma StartsVisibly.of_isPrefix (hs : StartsVisibly s) (ht : t <+: s) : StartsVisibly t := by
  obtain ⟨u, rfl⟩ := ht
  intro c hc
  apply hs
  rw [Option.mem_def, List.head?_append, Option.mem_def.1 hc, Option.some_or]

/-! ### One end -/

lemma trimStart_append_left (ha : AllBlank a) (s : List Char) : trimStart (a ++ s) = trimStart s :=
  List.dropWhile_append_of_pos ha

lemma trimEnd_append_right (hb : AllBlank b) (s : List Char) : trimEnd (s ++ b) = trimEnd s := by
  rw [trimEnd, List.reverse_append, List.dropWhile_append_of_pos hb.reverse, trimEnd]

lemma trimStart_eq_nil (ha : AllBlank a) : trimStart a = [] := List.dropWhile_eq_nil_iff.2 ha

lemma trimStart_eq_self (hs : StartsVisibly s) : trimStart s = s := dropWhile_isBlank_eq_self hs

lemma startsVisibly_trimStart (s : List Char) : StartsVisibly (trimStart s) := by
  intro c hc
  have hvisible := List.head?_dropWhile_not isBlank s
  rwa [show (s.dropWhile isBlank).head? = some c from hc] at hvisible

lemma endsVisibly_trimEnd (s : List Char) : EndsVisibly (trimEnd s) := by
  intro c hc
  rw [trimEnd, List.getLast?_reverse] at hc
  exact startsVisibly_trimStart s.reverse c hc

lemma exists_eq_append_trimStart (s : List Char) : ∃ a, AllBlank a ∧ s = a ++ trimStart s :=
  ⟨s.takeWhile isBlank, fun _ => List.mem_takeWhile_imp, List.takeWhile_append_dropWhile.symm⟩

lemma exists_eq_trimEnd_append (s : List Char) : ∃ b, AllBlank b ∧ s = trimEnd s ++ b := by
  obtain ⟨a, ha, hs⟩ := exists_eq_append_trimStart s.reverse
  refine ⟨a.reverse, ha.reverse, ?_⟩
  rw [← List.reverse_inj, trimEnd, List.reverse_append, List.reverse_reverse, List.reverse_reverse]
  exact hs

/-- What comes after a visible character is trimmed on its own. -/
lemma trimEnd_append (hs : EndsVisibly s) (t : List Char) : trimEnd (s ++ t) = s ++ trimEnd t := by
  rw [trimEnd, List.reverse_append, List.dropWhile_append, trimEnd]
  split_ifs with hempty
  · rw [List.isEmpty_iff.1 hempty, dropWhile_isBlank_eq_self hs.reverse]
    simp
  · simp

/-! ### Both ends -/

lemma startsVisibly_trim (s : List Char) : StartsVisibly (trim s) := by
  obtain ⟨b, -, hb⟩ := exists_eq_trimEnd_append (trimStart s)
  exact (startsVisibly_trimStart s).of_isPrefix ⟨b, hb.symm⟩

lemma endsVisibly_trim (s : List Char) : EndsVisibly (trim s) := endsVisibly_trimEnd _

/-- Blanks around a text are trimmed. -/
theorem trim_append (ha : AllBlank a) (hb : AllBlank b) (s : List Char) :
    trim (a ++ s ++ b) = trim s := by
  have hstart : trimStart (s ++ b) = if (trimStart s).isEmpty then [] else trimStart s ++ b := by
    rw [← trimStart_eq_nil hb]
    exact List.dropWhile_append
  rw [trim, List.append_assoc, trimStart_append_left ha, hstart, trim]
  split_ifs with hempty
  · rw [List.isEmpty_iff.1 hempty]
  · exact trimEnd_append_right hb _

lemma trim_append_left (ha : AllBlank a) (s : List Char) : trim (a ++ s) = trim s := by
  have htrim := trim_append ha allBlank_nil s
  rwa [List.append_nil] at htrim

/-- Only blanks are trimmed. -/
theorem exists_eq_append_trim (s : List Char) :
    ∃ a b, AllBlank a ∧ AllBlank b ∧ s = a ++ trim s ++ b := by
  obtain ⟨a, ha, hs⟩ := exists_eq_append_trimStart s
  obtain ⟨b, hb, ht⟩ := exists_eq_trimEnd_append (trimStart s)
  refine ⟨a, b, ha, hb, ?_⟩
  rw [List.append_assoc, trim, ← ht]
  exact hs

lemma trim_trimEnd (s : List Char) : trim (trimEnd s) = trim s := by
  obtain ⟨b, hb, hs⟩ := exists_eq_trimEnd_append s
  have htrim := trim_append allBlank_nil hb (trimEnd s)
  rwa [List.nil_append, ← hs, eq_comm] at htrim

/-- Trimming leaves a word in front alone that starts and ends visibly. -/
lemma trim_append_of_visible (hne : s ≠ []) (hstart : StartsVisibly s) (hend : EndsVisibly s)
    (t : List Char) : trim (s ++ t) = s ++ trimEnd t := by
  have hvisible : StartsVisibly (s ++ t) := by
    obtain ⟨c, s, rfl⟩ := List.exists_cons_of_ne_nil hne
    exact hstart
  rw [trim, trimStart_eq_self hvisible, trimEnd_append hend]

end ByteStore.Text
