import ByteStore.Json.Lexeme
import Mathlib.Tactic.Common

/-!
# Spellings

A string of a document has many spellings, since a character may stand for itself or be escaped.
`Quoted.Spells` says which spellings there are, and reading any of them yields the string. A row of
tokens is spelled token by token, with spaces between them, and its lexemes are these tokens again
(`tokens_of_spelled`).
-/

namespace ByteStore.Json

/-! ### Strings -/

namespace Quoted

/-- The letters that may stand after a backslash, with the characters that they stand for there. -/
def escapes : List (Char × Char) :=
  [('"', '"'), ('\\', '\\'), ('/', '/'), ('b', '\x08'), ('f', '\x0c'), ('n', '\n'), ('r', '\r'),
    ('t', '\t')]

/-- The ways to spell a string between quotation marks. -/
inductive Spells : List Char → List Char → Prop
  | nil : Spells [] []
  /-- A character that stands for itself. -/
  | plain {c : Char} {s t : List Char} (hspace : ' ' ≤ c) (hquote : c ≠ '"') (hslash : c ≠ '\\')
      (h : Spells s t) : Spells (c :: s) (c :: t)
  /-- A character that a letter stands for. -/
  | escaped {c e : Char} {s t : List Char} (hc : (e, c) ∈ escapes) (h : Spells s t) :
      Spells (c :: s) ('\\' :: e :: t)
  /-- A character given by its number. -/
  | unit {c h₁ h₂ h₃ h₄ : Char} {s t : List Char}
      (hc : Text.number? 16 [h₁, h₂, h₃, h₄] = some c.toNat) (h : Spells s t) :
      Spells (c :: s) ('\\' :: 'u' :: h₁ :: h₂ :: h₃ :: h₄ :: t)
  /-- A character given by the two halves of its surrogate pair. -/
  | pair {c h₁ h₂ h₃ h₄ k₁ k₂ k₃ k₄ : Char} {u v : Nat} {s t : List Char}
      (hu : Text.number? 16 [h₁, h₂, h₃, h₄] = some (0xD800 + u)) (hu' : u < 0x400)
      (hv : Text.number? 16 [k₁, k₂, k₃, k₄] = some (0xDC00 + v)) (hv' : v < 0x400)
      (hc : c.toNat = 0x10000 + u * 0x400 + v) (h : Spells s t) :
      Spells (c :: s)
        ('\\' :: 'u' :: h₁ :: h₂ :: h₃ :: h₄ :: '\\' :: 'u' :: k₁ :: k₂ :: k₃ :: k₄ :: t)

/-! ### Reading -/

lemma scan_quote (s : List Char) : scan ('"' :: s) = ([], .closed s) := by
  rw [scan.eq_def]
  rfl

lemma scan_plain {c : Char} (hspace : ' ' ≤ c) (hquote : c ≠ '"') (hslash : c ≠ '\\')
    (s : List Char) : scan (c :: s) = (.plain c :: (scan s).1, (scan s).2) := by
  rw [scan.eq_def]
  simp only [if_neg hquote, if_neg hslash, if_neg (Char.not_lt.2 hspace)]

lemma scan_escaped {c e : Char} (hc : (e, c) ∈ escapes) (s : List Char) :
    scan ('\\' :: e :: s) = (.escaped c :: (scan s).1, (scan s).2) := by
  rw [scan.eq_def]
  simp only [escapes, List.mem_cons, Prod.mk.injEq, List.not_mem_nil, or_false] at hc
  rcases hc with ⟨rfl, rfl⟩ | ⟨rfl, rfl⟩ | ⟨rfl, rfl⟩ | ⟨rfl, rfl⟩ | ⟨rfl, rfl⟩ | ⟨rfl, rfl⟩ |
    ⟨rfl, rfl⟩ | ⟨rfl, rfl⟩ <;> rfl

lemma unit?_of_number? {h₁ h₂ h₃ h₄ : Char} {n : Nat}
    (hn : Text.number? 16 [h₁, h₂, h₃, h₄] = some n) : unit? h₁ h₂ h₃ h₄ = some n := by
  simp only [Text.number?, List.isEmpty_cons, Bool.false_eq_true, if_false, List.foldlM_cons,
    List.foldlM_nil, Option.bind_eq_bind, Option.bind_eq_some_iff, Option.map_eq_some_iff,
    Text.digitOf?, Option.filter_eq_some_iff, Option.pure_def, Option.some.injEq] at hn
  obtain ⟨_, ⟨a, ⟨ha, -⟩, rfl⟩, _, ⟨b, ⟨hb, -⟩, rfl⟩, _, ⟨c, ⟨hc, -⟩, rfl⟩, _, ⟨d, ⟨hd, -⟩, rfl⟩,
    rfl⟩ := hn
  simp only [unit?, ha, hb, hc, hd, Option.bind_eq_bind, Option.bind_some, Option.pure_def,
    Option.some.injEq]
  omega

lemma scan_unit {h₁ h₂ h₃ h₄ : Char} {n : Nat}
    (hn : Text.number? 16 [h₁, h₂, h₃, h₄] = some n) (s : List Char) :
    scan ('\\' :: 'u' :: h₁ :: h₂ :: h₃ :: h₄ :: s) = (.unit n s :: (scan s).1, (scan s).2) := by
  rw [scan.eq_def]
  simp only [unit?_of_number? hn]
  rfl

/-- The number of a character is no half of a surrogate pair. -/
lemma not_half (c : Char) : isFirstHalf c.toNat = false ∧ isSecondHalf c.toNat = false := by
  have hvalid : c.toNat < 0xD800 ∨ 0xDFFF < c.toNat ∧ c.toNat < 0x110000 := c.valid
  simp only [isFirstHalf, isSecondHalf, Bool.and_eq_false_iff, decide_eq_false_iff_not]
  omega

lemma join_unit (c : Char) (rest : List Char) (ps : List Piece) (ending : Ending) :
    join (.unit c.toNat rest :: ps) ending = (join ps ending).map (c :: ·) := by
  obtain ⟨hfirst, hsecond⟩ := not_half c
  rw [join.eq_def]
  simp only [hfirst, hsecond, Char.ofNat_toNat, Bool.false_eq_true, if_false]

lemma join_pair {c : Char} {u v : Nat} (hu : u < 0x400) (hv : v < 0x400)
    (hc : c.toNat = 0x10000 + u * 0x400 + v) (rest rest' : List Char) (ps : List Piece)
    (ending : Ending) :
    join (.unit (0xD800 + u) rest :: .unit (0xDC00 + v) rest' :: ps) ending
      = (join ps ending).map (c :: ·) := by
  have hfirst : isFirstHalf (0xD800 + u) = true := by
    simp only [isFirstHalf, Bool.and_eq_true, decide_eq_true_eq]
    omega
  have hsecond : isSecondHalf (0xD800 + u) = false ∧ isSecondHalf (0xDC00 + v) = true := by
    simp only [isSecondHalf, Bool.and_eq_false_iff, Bool.and_eq_true, decide_eq_true_eq,
      decide_eq_false_iff_not]
    omega
  have hpair : pair (0xD800 + u) (0xDC00 + v) = c := by
    rw [pair, Nat.add_sub_cancel_left, Nat.add_sub_cancel_left, ← hc, Char.ofNat_toNat]
  rw [join.eq_def]
  simp only [hfirst, hsecond, hpair, Bool.false_eq_true, if_false, if_true]

/-- Every spelling of a string is split into pieces that make up the string. -/
theorem Spells.join_scan {s t : List Char} (h : Spells s t) (rest : List Char) :
    (Quoted.scan (t ++ '"' :: rest)).2 = .closed rest ∧
      Quoted.join (Quoted.scan (t ++ '"' :: rest)).1 (.closed rest) = .ok s := by
  induction h with
  | nil =>
    rw [List.nil_append, scan_quote]
    exact ⟨rfl, rfl⟩
  | plain hspace hquote hslash h ih =>
    rw [List.cons_append, scan_plain hspace hquote hslash]
    refine ⟨ih.1, ?_⟩
    rw [Quoted.join, ih.2]
    rfl
  | escaped hc h ih =>
    rw [List.cons_append, List.cons_append, scan_escaped hc]
    refine ⟨ih.1, ?_⟩
    rw [Quoted.join, ih.2]
    rfl
  | unit hc h ih =>
    simp only [List.cons_append, scan_unit hc]
    refine ⟨ih.1, ?_⟩
    rw [join_unit, ih.2]
    rfl
  | pair hu hu' hv hv' hc h ih =>
    simp only [List.cons_append, scan_unit hu, scan_unit hv]
    refine ⟨ih.1, ?_⟩
    rw [join_pair hu' hv' hc, ih.2]
    rfl

/-! ### Writing -/

lemma number?_hexDigit : ∀ n < 32, Text.number? 16 ['0', '0', hexDigit (n / 16), hexDigit (n % 16)]
    = some n := by decide

lemma Spells.encodeChar_append (c : Char) {s t : List Char} (h : Spells s t) :
    Spells (c :: s) (encodeChar c ++ t) := by
  rw [encodeChar]
  split_ifs with hquote hslash hb hf hn hr ht hspace
  · exact .escaped (by simp [hquote, escapes]) h
  · exact .escaped (by simp [hslash, escapes]) h
  · exact .escaped (by simp [hb, escapes]) h
  · exact .escaped (by simp [hf, escapes]) h
  · exact .escaped (by simp [hn, escapes]) h
  · exact .escaped (by simp [hr, escapes]) h
  · exact .escaped (by simp [ht, escapes]) h
  · exact .unit (number?_hexDigit _ hspace) h
  · exact .plain (Char.not_lt.1 hspace) hquote hslash h

/-- What is written for a string is one of its spellings. -/
lemma spells_encode (s : List Char) : Spells s (encode s) := by
  induction s with
  | nil => exact .nil
  | cons c s ih => exact ih.encodeChar_append c

end Quoted

/-! ### Tokens -/

/-- The token of a string that can be read. -/
def Token.text (s : String) : Token := .string (.ok s) (.ok ())

/-- The ways to spell a token, of those that documents of strings and objects are made of. -/
inductive Token.Spells : Token → List Char → Prop
  | openBrace : Spells .openBrace ['\x7b']
  | closeBrace : Spells .closeBrace ['\x7d']
  | colon : Spells .colon [':']
  | comma : Spells .comma [',']
  | text {s : String} {t : List Char} (h : Quoted.Spells s.toList t) :
      Spells (.text s) ('"' :: t ++ ['"'])

/-- The ways to spell a row of tokens, with spaces between them but not around them. -/
inductive Spelled : List Token → List Char → Prop
  | one {token : Token} {t : List Char} (h : token.Spells t) : Spelled [token] t
  | cons {token : Token} {t space u : List Char} {tokens : List Token} (h : token.Spells t)
      (hspace : ∀ c ∈ space, Lexeme.isSpace c = true) (hu : Spelled tokens u) :
      Spelled (token :: tokens) (t ++ space ++ u)

lemma Spelled.append {ts us : List Token} {t u : List Char} (ht : Spelled ts t)
    (hu : Spelled us u) : Spelled (ts ++ us) (t ++ u) := by
  induction ht with
  | @one token t h =>
    have hspelled := Spelled.cons h (List.forall_mem_nil _) hu
    rwa [List.append_nil] at hspelled
  | cons h hspace _ ih =>
    rw [List.append_assoc]
    exact .cons h hspace ih

/-! ### Lexemes -/

lemma lexemes_cons {c : Char} {s : List Char} (hc : Lexeme.isSpace c = false)
    (hpassable : (Lexeme.first c s).token.isPassable = true) :
    lexemes (c :: s) = Lexeme.first c s :: lexemes (Lexeme.first c s).rest := by
  rw [lexemes, hc]
  simp only [hpassable, Bool.false_eq_true, if_false, if_true]

lemma lexemes_append_space {space : List Char} (hspace : ∀ c ∈ space, Lexeme.isSpace c = true)
    (s : List Char) : lexemes (space ++ s) = lexemes s := by
  induction space with
  | nil => rfl
  | cons c space ih =>
    rw [List.forall_mem_cons] at hspace
    rw [List.cons_append, lexemes, if_pos hspace.1]
    exact ih hspace.2

/-- A string that is spelled is one lexeme. -/
lemma Quoted.Spells.first {s t : List Char} (h : Spells s t) (rest : List Char) :
    Lexeme.first '"' (t ++ '"' :: rest)
      = ⟨.text (String.ofList s), '"' :: (t ++ '"' :: rest), rest⟩ := by
  obtain ⟨hending, hjoin⟩ := h.join_scan rest
  change Lexeme.string (t ++ '"' :: rest) = _
  simp only [Lexeme.string, hending, hjoin, Ending.skip]
  rfl

/-- A token that is spelled is one lexeme, whatever comes after it. -/
lemma Token.Spells.lexemes {token : Token} {t : List Char} (h : token.Spells t)
    (rest : List Char) :
    ∃ l, Json.lexemes (t ++ rest) = l :: Json.lexemes rest ∧ l.token = token := by
  cases h with
  | openBrace | closeBrace | colon | comma => exact ⟨_, lexemes_cons rfl rfl, rfl⟩
  | @text s t h =>
    have hfirst := h.first rest
    rw [String.ofList_toList] at hfirst
    refine ⟨⟨.text s, '"' :: (t ++ '"' :: rest), rest⟩, ?_, rfl⟩
    rw [List.cons_append, List.cons_append, List.append_assoc, List.singleton_append,
      lexemes_cons rfl (by rw [hfirst]; rfl), hfirst]

/-- The lexemes of a text are the tokens that it spells. -/
theorem tokens_of_spelled {tokens : List Token} {s : List Char} (h : Spelled tokens s) :
    (lexemes s).map Lexeme.token = tokens := by
  induction h with
  | one h =>
    obtain ⟨l, hl, rfl⟩ := h.lexemes []
    rw [List.append_nil] at hl
    rw [hl, lexemes]
    rfl
  | cons h hspace _ ih =>
    rw [List.append_assoc]
    obtain ⟨l, hl, rfl⟩ := h.lexemes _
    rw [hl, List.map_cons, lexemes_append_space hspace, ih]

end ByteStore.Json
