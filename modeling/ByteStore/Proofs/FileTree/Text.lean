import ByteStore.FileTree
import Mathlib.Data.List.Chain
import Mathlib.Tactic.Common

/-!
# Texts of places

The text of a place is a path: it starts at the root and takes the names on the way, one after the
other. Read as a path it leads back to the place, so different places have different texts, and it
has no step that a shorter text would spare (`Place.isCanonical_text`).
-/

namespace ByteStore

/-! ### Canonical paths -/

/--
Whether a path starts at the root, without two slashes in a row, without a step that leads nowhere
or to the parent, and without a slash behind its last name.
-/
structure Path.IsCanonical (s : List Char) : Prop where
  fromRoot : s.head? = some '/'
  single : s.IsChain fun a b => a = '/' → b ≠ '/'
  plain : ∀ word ∈ Text.split '/' s, word ≠ ['.'] ∧ word ≠ ['.', '.']
  bare : s = ['/'] ∨ s.getLast? ≠ some '/'

lemma Step.ofWord?_chars (n : Name) : ofWord? n.chars = some (.name n) := by
  obtain ⟨hempty, hhere, hup, -⟩ := n.isName
  rw [ofWord?, if_neg hempty, if_neg hhere, if_neg hup, dif_pos n.isName]

lemma Name.slash_notMem (n : Name) : '/' ∉ n.chars := n.isName.2.2.2.1

lemma Name.nul_notMem (n : Name) : '\x00' ∉ n.chars := n.isName.2.2.2.2.1

namespace Place

variable {p q : Place}

/-! ### Reading a text back -/

lemma split_chars (p : Place) : Text.split '/' p.chars = [] :: p.reverse.map Name.chars := by
  induction p with
  | nil => rfl
  | cons n p ih =>
    rw [chars, Text.split_append n.slash_notMem, ih]
    simp

lemma exists_chars_eq_cons (hp : p ≠ []) : ∃ s, p.chars = '/' :: s := by
  induction p with
  | nil => exact absurd rfl hp
  | cons n p ih =>
    cases p with
    | nil => exact ⟨n.chars, rfl⟩
    | cons m p =>
      obtain ⟨s, hs⟩ := ih (List.cons_ne_nil m p)
      exact ⟨s ++ '/' :: n.chars, by rw [chars, hs, List.cons_append]⟩

lemma toList_text (p : Place) : p.text.toList = if p = [] then ['/'] else p.chars := by
  cases p with
  | nil => rfl
  | cons n p => simp [text]

lemma steps_text (p : Place) : (Path.ofChars p.text.toList).steps = p.reverse.map .name := by
  rw [toList_text]
  split_ifs with hp
  · subst hp
    rfl
  · have hwords : (p.reverse.map Name.chars).filterMap Step.ofWord? = p.reverse.map .name := by
      rw [List.filterMap_map, ← List.filterMap_eq_map]
      congr 1
      funext n
      exact Step.ofWord?_chars n
    simp only [Path.ofChars]
    rw [split_chars, List.filterMap_cons, hwords]
    rfl

lemma start_text (p workingDirectory : Place) :
    (Path.ofChars p.text.toList).start workingDirectory = [] := by
  have hroot : p.text.toList.head? = some '/' := by
    rw [toList_text]
    split_ifs with hp
    · rfl
    · obtain ⟨s, hs⟩ := exists_chars_eq_cons hp
      rw [hs, List.head?_cons]
  simp [Path.start, Path.ofChars, hroot]

/-- Different places have different texts. -/
theorem text_injective : Function.Injective text := by
  intro p q h
  have hsteps : p.reverse.map Step.name = q.reverse.map .name := by
    rw [← steps_text, ← steps_text, h]
  have hinjective : Function.Injective Step.name := fun _ _ h => Step.name.inj h
  exact List.reverse_injective (hinjective.list_map hsteps)

lemma text_ne_empty (p : Place) : p.text ≠ "" := by
  intro h
  have hempty : p.text.toList = [] := by rw [h]; rfl
  rw [toList_text] at hempty
  split_ifs at hempty with hp
  obtain ⟨s, hs⟩ := exists_chars_eq_cons hp
  rw [hs] at hempty
  cases hempty

lemma nul_notMem_text (p : Place) : '\x00' ∉ p.text.toList := by
  have hchars : '\x00' ∉ p.chars := by
    induction p with
    | nil => exact List.not_mem_nil
    | cons n p ih =>
      simp only [chars, List.mem_append, List.mem_cons, not_or]
      exact ⟨ih, by decide, n.nul_notMem⟩
  rw [toList_text]
  split_ifs
  · decide
  · exact hchars

/-! ### The text is canonical -/

lemma getLast?_chars_ne (p : Place) : p.chars.getLast? ≠ some '/' := by
  cases p with
  | nil => simp [chars]
  | cons n p =>
    obtain hempty | ⟨w, c, hw⟩ := List.eq_nil_or_concat' n.chars
    · exact absurd hempty n.isName.1
    · have hc : c ≠ '/' := by
        rintro rfl
        exact n.slash_notMem (by simp [hw])
      have hlast : (chars (n :: p)).getLast? = some c := by
        rw [chars, hw, ← List.cons_append, ← List.append_assoc, List.getLast?_concat]
      rw [hlast]
      exact fun h => hc (Option.some.inj h)

lemma isChain_chars (p : Place) : p.chars.IsChain fun a b => a = '/' → b ≠ '/' := by
  induction p with
  | nil => exact .nil
  | cons n p ih =>
    have hne : ∀ c ∈ n.chars, c ≠ '/' := fun c hc heq => n.slash_notMem (heq ▸ hc)
    have hname : n.chars.IsChain fun a b => a = '/' → b ≠ '/' := by
      apply List.Pairwise.isChain
      exact List.pairwise_of_forall_mem_list fun _ _ b hb _ => hne b hb
    have hslash : ('/' :: n.chars).IsChain fun a b => a = '/' → b ≠ '/' := by
      rw [List.isChain_cons]
      exact ⟨fun c hc _ => hne c (List.mem_of_mem_head? hc), hname⟩
    rw [chars, List.isChain_append]
    refine ⟨ih, hslash, fun c hc _ _ heq => ?_⟩
    subst heq
    exact absurd hc (getLast?_chars_ne p)

theorem isCanonical_text (p : Place) : Path.IsCanonical p.text.toList := by
  rw [toList_text]
  split_ifs with hp
  · exact ⟨rfl, .singleton '/', by decide, .inl rfl⟩
  · obtain ⟨s, hs⟩ := exists_chars_eq_cons hp
    refine ⟨by rw [hs, List.head?_cons], isChain_chars p, fun word hword => ?_,
      .inr (getLast?_chars_ne p)⟩
    rw [split_chars, List.mem_cons, List.mem_map] at hword
    rcases hword with rfl | ⟨n, -, rfl⟩
    · exact ⟨by decide, by decide⟩
    · exact ⟨n.isName.2.1, n.isName.2.2.1⟩

end Place

end ByteStore
