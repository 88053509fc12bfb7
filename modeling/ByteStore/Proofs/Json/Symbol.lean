import ByteStore.Proofs.Json.Literal
import Mathlib.Data.List.Chain
import Mathlib.Data.List.Forall2

/-!
# Symbols

The text of a document is a row of symbols with spaces around them (`Spaced`). Its lexemes stand for
the symbols one by one (`stands_of_spaced`), if no two literals follow each other. A literal that
cannot be read is a symbol all the same, since it can still be passed.
-/

namespace ByteStore.Json

/-- The text of a literal that is no string. -/
inductive IsAtom : List Char → Prop
  | null : IsAtom ['n', 'u', 'l', 'l']
  | true : IsAtom ['t', 'r', 'u', 'e']
  | false : IsAtom ['f', 'a', 'l', 's', 'e']
  | number {t : List Char} (h : Numeral.IsNumber t) : IsAtom t

/-- A smallest part of a text. -/
inductive Symbol
  | openBrace
  | closeBrace
  | openBracket
  | closeBracket
  | colon
  | comma
  | string (body : List Char)
  | atom (text : List Char)

namespace Symbol

/-- How a symbol is written. -/
def text : Symbol → List Char
  | .openBrace => ['\x7b']
  | .closeBrace => ['\x7d']
  | .openBracket => ['[']
  | .closeBracket => [']']
  | .colon => [':']
  | .comma => [',']
  | .string body => '"' :: (body ++ ['"'])
  | .atom text => text

/-- Whether a symbol is no literal. -/
def IsMark : Symbol → Prop
  | .string _ | .atom _ => False
  | _ => True

/-- Whether a symbol keeps to the grammar of literals. -/
def Valid : Symbol → Prop
  | .string body => Quoted.Body body
  | .atom text => IsAtom text
  | _ => True

/-- Whether a lexeme stands for a symbol: what reading it answers, and that it can be passed. -/
def Stands : Symbol → Lexeme → Prop
  | .openBrace, l => l.token = .openBrace
  | .closeBrace, l => l.token = .closeBrace
  | .openBracket, l => l.token = .openBracket
  | .closeBracket, l => l.token = .closeBracket
  | .colon, l => l.token = .colon
  | .comma, l => l.token = .comma
  | .string body, l => ∃ read, l.token = .string read (.ok ()) ∧
      ∀ s : String, read = .ok s ↔ Quoted.Spells s.toList body
  | .atom text, l => ∃ read, l.token = .atom read (.ok ()) ∧
      (read = .ok .null ↔ text = ['n', 'u', 'l', 'l'])

end Symbol

/-! ### Lexemes of symbols -/

lemma mark?_of_number {c : Char} (hc : c = '-' ∨ c.isDigit = true) :
    Lexeme.mark? c = none ∧ Lexeme.word? c = none ∧ c ≠ '"' ∧ Lexeme.isSpace c = false := by
  have hne {d : Char} (hminus : d ≠ '-') (hdigit : d.isDigit = false) : c ≠ d := by
    rintro rfl
    rcases hc with rfl | hc
    · exact hminus rfl
    · rw [hdigit] at hc
      cases hc
  refine ⟨?_, ?_, hne (by decide) (by decide), ?_⟩
  · simp only [Lexeme.mark?]
    repeat rw [if_neg (hne (by decide) (by decide))]
  · simp only [Lexeme.word?]
    repeat rw [if_neg (hne (by decide) (by decide))]
  · simp only [Lexeme.isSpace, Bool.or_eq_false_iff, beq_eq_false_iff_ne]
    refine ⟨⟨⟨?_, ?_⟩, ?_⟩, ?_⟩ <;> exact hne (by decide) (by decide)

lemma Numeral.IsNumber.exists_cons {t : List Char} (h : Numeral.IsNumber t) :
    ∃ c s, t = c :: s ∧ (c = '-' ∨ c.isDigit = true) := by
  obtain ⟨rfl | rfl, hwhole, -, -⟩ := h
  · obtain ⟨c, s, rfl, hc⟩ := hwhole.exists_cons
    exact ⟨_, _, rfl, .inr hc⟩
  · exact ⟨_, _, rfl, .inl rfl⟩

/-- A lexeme that is read as a number stands for one, and not for a null. -/
lemma Numeral.IsNumber.stands {t : List Char} (h : Numeral.IsNumber t) {l : Lexeme}
    {read : Except Fault Number} (hl : l.token = .atom (read.map .number) (.ok ())) :
    (Symbol.atom t).Stands l := by
  obtain ⟨c, s, rfl, hc⟩ := h.exists_cons
  refine ⟨_, hl, ?_⟩
  constructor
  · intro hnull
    cases read <;> cases hnull
  · intro hnull
    cases hnull
    rcases hc with hc | hc <;> cases hc

/-- A number is one lexeme, up to where it stops. -/
lemma Numeral.IsNumber.exists_lexemes {t rest : List Char} (h : Numeral.IsNumber t)
    (hrest : Numeral.Stops rest) :
    ∃ l, lexemes (t ++ rest) = l :: lexemes rest ∧ (Symbol.atom t).Stands l := by
  obtain ⟨n, hn⟩ := h.exists_scan hrest
  obtain ⟨c, s, rfl, hc⟩ := h.exists_cons
  obtain ⟨hmark, hword, hquote, hspace⟩ := mark?_of_number hc
  have hfirst : Lexeme.first c (s ++ rest)
      = ⟨.atom ((n.value rest).map .number) (.ok ()), c :: (s ++ rest), rest⟩ := by
    rw [List.cons_append] at hn
    rw [Lexeme.first, hmark, hword]
    simp only [if_neg hquote, if_pos hc, Lexeme.number, hn]
  refine ⟨_, ?_, h.stands (congrArg Lexeme.token hfirst)⟩
  rw [List.cons_append, lexemes_cons hspace (by rw [hfirst]; rfl), hfirst]

/-- A symbol is one lexeme, and so is a literal in front of a text that it cannot go on with. -/
lemma Symbol.Valid.exists_lexemes {x : Symbol} (h : x.Valid) {rest : List Char}
    (hrest : x.IsMark ∨ Numeral.Stops rest) :
    ∃ l, lexemes (x.text ++ rest) = l :: lexemes rest ∧ x.Stands l := by
  cases x with
  | openBrace | closeBrace | openBracket | closeBracket | colon | comma =>
    exact ⟨_, lexemes_cons rfl rfl, rfl⟩
  | string body =>
    obtain ⟨read, hfirst, hread⟩ := Quoted.Body.exists_first h rest
    refine ⟨⟨.string read (.ok ()), '"' :: (body ++ '"' :: rest), rest⟩, ?_, read, rfl, hread⟩
    rw [Symbol.text, List.cons_append, List.append_assoc, List.singleton_append,
      lexemes_cons rfl (by rw [hfirst]; rfl), hfirst]
  | atom text =>
    cases h with
    | null => exact ⟨_, lexemes_cons rfl rfl, .ok .null, rfl, by simp⟩
    | true => exact ⟨_, lexemes_cons rfl rfl, .ok (.bool true), rfl, by simp⟩
    | false => exact ⟨_, lexemes_cons rfl rfl, .ok (.bool false), rfl, by simp⟩
    | number h => exact h.exists_lexemes (hrest.resolve_left id)

/-! ### Rows of symbols -/

/-- The ways to write a row of symbols, with spaces around them. -/
inductive Spaced : List Symbol → List Char → Prop
  | nil {space : List Char} (hspace : ∀ c ∈ space, Lexeme.isSpace c = true) : Spaced [] space
  | cons {space text : List Char} {x : Symbol} {xs : List Symbol}
      (hspace : ∀ c ∈ space, Lexeme.isSpace c = true) (h : Spaced xs text) :
      Spaced (x :: xs) (space ++ (x.text ++ text))

/-- Whether two symbols may follow each other. -/
def Symbol.Apart (x y : Symbol) : Prop := x.IsMark ∨ y.IsMark

lemma Spaced.stops {xs : List Symbol} {text : List Char} (h : Spaced xs text)
    (hfirst : ∀ x ∈ xs.head?, x.IsMark) : Numeral.Stops text := by
  have hspace {c : Char} (hc : Lexeme.isSpace c = true) :
      c.isDigit = false ∧ c ≠ '.' ∧ c ≠ 'e' ∧ c ≠ 'E' := by
    simp only [Lexeme.isSpace, Bool.or_eq_true, beq_iff_eq] at hc
    rcases hc with ((rfl | rfl) | rfl) | rfl <;> decide
  intro c hc
  cases h with
  | nil h => exact hspace (h c (List.mem_of_mem_head? hc))
  | @cons space text x xs h _ =>
    cases space with
    | cons d space =>
      cases hc
      exact hspace (h _ List.mem_cons_self)
    | nil =>
      have hx := hfirst x rfl
      cases x with
      | string | atom => exact hx.elim
      | openBrace | closeBrace | openBracket | closeBracket | colon | comma =>
        cases hc
        decide

/-- The lexemes of a text stand for its symbols. -/
theorem stands_of_spaced {xs : List Symbol} {text : List Char} (h : Spaced xs text)
    (hvalid : ∀ x ∈ xs, x.Valid) (hapart : xs.IsChain Symbol.Apart) :
    xs.Forall₂ Symbol.Stands (lexemes text) := by
  induction h with
  | nil hspace =>
    have hnil := lexemes_append_space hspace []
    rw [List.append_nil] at hnil
    rw [hnil, lexemes]
    exact .nil
  | @cons space text x xs hspace h ih =>
    rw [List.forall_mem_cons] at hvalid
    obtain ⟨hhead, htail⟩ := List.isChain_cons.1 hapart
    have hrest : x.IsMark ∨ Numeral.Stops text := by
      by_cases hx : x.IsMark
      · exact .inl hx
      · exact .inr (h.stops fun y hy => (hhead y hy).resolve_left hx)
    obtain ⟨l, hl, hstands⟩ := hvalid.1.exists_lexemes hrest
    rw [lexemes_append_space hspace, hl]
    exact .cons hstands (ih hvalid.2 htail)

end ByteStore.Json
