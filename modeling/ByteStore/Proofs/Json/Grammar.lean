import ByteStore.Proofs.Json.Symbol
import Mathlib.Data.List.TakeWhile

/-!
# Lexemes and the grammar

What can be passed keeps to the grammar of literals: a string that is closed
(`Quoted.exists_body_of_scan`), a number that is taken apart (`Numeral.exists_isNumber_of_scan`). So
a lexeme stands for a symbol, or nobody can get past it (`first_cases`).
-/

namespace ByteStore.Json

/-! ### Strings -/

namespace Quoted

lemma mem_escapes_of_letter? {e c : Char} (h : letter? e = some c) : (e, c) ∈ escapes := by
  rw [letter?] at h
  split_ifs at h with hself hb hf hn hr ht
  all_goals cases h
  · obtain rfl | rfl | rfl := hself <;> decide
  all_goals
    subst_vars
    decide

/-- Digits that are cut short close nothing. -/
lemma cutDigits_ne_closed (s rest : List Char) : cutDigits s ≠ .closed rest := by
  rw [cutDigits]
  split_ifs <;> exact Ending.noConfusion

/-- What is split up to a closing quotation mark keeps to the grammar. -/
theorem exists_body_of_scan {s rest : List Char} (h : (scan s).2 = .closed rest) :
    ∃ t, Body t ∧ s = t ++ '"' :: rest := by
  fun_induction scan s with
  | case1 | case3 | case8 | case9 => cases h
  | case2 s =>
    cases h
    exact ⟨[], .nil, rfl⟩
  | case4 h₁ h₂ h₃ h₄ s u hu _ ih =>
    obtain ⟨t, ht, rfl⟩ := ih h
    exact ⟨'\\' :: 'u' :: h₁ :: h₂ :: h₃ :: h₄ :: t, .unit (isHexDigit_of_unit? hu) ht, rfl⟩
  | case5 => exact absurd h (cutDigits_ne_closed _ _)
  | case6 => exact absurd h (cutDigits_ne_closed _ _)
  | case7 e s he x hx _ ih =>
    obtain ⟨t, ht, rfl⟩ := ih h
    exact ⟨'\\' :: e :: t, .escaped (mem_escapes_of_letter? hx) ht, rfl⟩
  | case10 c s hquote hslash hspace ih =>
    obtain ⟨t, ht, rfl⟩ := ih h
    exact ⟨c :: t, .plain (Char.not_lt.1 hspace) hquote hslash ht, rfl⟩

/-- Only what is closed can be read. -/
lemma exists_closed_of_join {ps : List Piece} {ending : Ending} {s : List Char}
    (h : join ps ending = .ok s) : ∃ rest, ending = .closed rest := by
  fun_induction join ps ending generalizing s with
  | case1 ending hending =>
    cases ending with
    | closed rest => exact ⟨rest, rfl⟩
    | unfinished | badLetter | badDigits | control => cases hending
  | case2 | case5 | case7 | case8 | case9 | case10 => cases h
  | case3 _ _ _ ih | case4 _ _ _ ih =>
    obtain ⟨s', hs', -⟩ := exists_of_join_cons h
    exact ih hs'
  | case6 _ _ _ _ _ _ _ _ _ ih =>
    obtain ⟨s', hs', -⟩ := exists_of_join_cons h
    exact ih hs'
  | case11 _ _ _ _ _ _ ih =>
    obtain ⟨s', hs', -⟩ := exists_of_join_cons h
    exact ih hs'

end Quoted

/-! ### Numbers -/

namespace Numeral

variable {s rest ds : List Char}

lemma eq_append_of_digits (h : digits s = (ds, rest)) :
    s = ds ++ rest ∧ ∀ c ∈ ds, c.isDigit = true := by
  cases h
  exact ⟨List.takeWhile_append_dropWhile.symm, fun c hc => List.mem_takeWhile_imp hc⟩

lemma exists_isWhole_of_scanWhole (h : scanWhole s = .ok (ds, rest)) :
    IsWhole ds ∧ s = ds ++ rest := by
  cases s with
  | nil => cases h
  | cons c s =>
    rw [scanWhole] at h
    split_ifs at h with hzero hdigit hc
    · cases h
      rw [hzero]
      exact ⟨.zero, rfl⟩
    · cases h
      obtain ⟨hs, hds⟩ := eq_append_of_digits (s := s) rfl
      exact ⟨.digits hc hzero hds, congrArg (c :: ·) hs⟩

lemma exists_isFraction_of_scanFraction {f : Option (List Char)}
    (h : scanFraction s = .ok (f, rest)) : ∃ t, IsFraction t ∧ s = t ++ rest := by
  rw [scanFraction.eq_def] at h
  split at h
  · rename_i s
    split at h
    · cases h
    · rename_i ds rest hne hdigits
      cases h
      obtain ⟨rfl, hds⟩ := eq_append_of_digits hdigits
      exact ⟨'.' :: ds, .digits ⟨hne, hds⟩, rfl⟩
  · cases h
    exact ⟨[], .none, rfl⟩

lemma exists_sign_of_scanSign (s : List Char) :
    ∃ sign, (sign = [] ∨ sign = ['+'] ∨ sign = ['-']) ∧ s = sign ++ (scanSign s).2 := by
  rw [scanSign.eq_def]
  split
  · exact ⟨['+'], .inr (.inl rfl), rfl⟩
  · exact ⟨['-'], .inr (.inr rfl), rfl⟩
  · exact ⟨[], .inl rfl, rfl⟩

lemma exists_isExponent_of_scanExponent {e : Option Exponent}
    (h : scanExponent s = .ok (e, rest)) : ∃ t, IsExponent t ∧ s = t ++ rest := by
  cases s with
  | nil =>
    cases h
    exact ⟨[], .none, rfl⟩
  | cons c s =>
    obtain ⟨sign, hsign, hs⟩ := exists_sign_of_scanSign s
    simp only [scanExponent] at h
    split_ifs at h with hc
    · split at h
      · cases h
      · rename_i ds rest hne hdigits
        cases h
        obtain ⟨hrest, hds⟩ := eq_append_of_digits hdigits
        refine ⟨c :: (sign ++ ds), .digits hc hsign ⟨hne, hds⟩, ?_⟩
        rw [List.cons_append, List.append_assoc, ← hrest, ← hs]
    · cases h
      exact ⟨[], .none, rfl⟩

lemma exists_of_scanUnsigned {negative : Bool} {n : Numeral}
    (h : scanUnsigned negative s = .ok (n, rest)) :
    ∃ whole fraction exponent, IsWhole whole ∧ IsFraction fraction ∧ IsExponent exponent ∧
      s = whole ++ (fraction ++ exponent) ++ rest := by
  rw [scanUnsigned] at h
  cases hwhole : scanWhole s with
  | error m => simp [hwhole, bind, Except.bind] at h
  | ok whole =>
    obtain ⟨hwhole', hs⟩ := exists_isWhole_of_scanWhole hwhole
    cases hfraction : scanFraction whole.2 with
    | error m => simp [hwhole, hfraction, bind, Except.bind] at h
    | ok fraction =>
      obtain ⟨tf, hfraction', hrest⟩ := exists_isFraction_of_scanFraction hfraction
      cases hexponent : scanExponent fraction.2 with
      | error m => simp [hwhole, hfraction, hexponent, bind, Except.bind] at h
      | ok exponent =>
        obtain ⟨te, hexponent', hrest'⟩ := exists_isExponent_of_scanExponent hexponent
        simp only [hwhole, hfraction, hexponent, bind, Except.bind, pure, Except.pure,
          Except.ok.injEq, Prod.mk.injEq] at h
        refine ⟨whole.1, tf, te, hwhole', hfraction', hexponent', ?_⟩
        rw [hs, hrest, hrest', ← h.2]
        simp only [List.append_assoc]

/-- What is taken apart as a number keeps to the grammar. -/
theorem exists_isNumber_of_scan {n : Numeral} (h : scan s = .ok (n, rest)) :
    ∃ t, IsNumber t ∧ s = t ++ rest := by
  rw [scan.eq_def] at h
  split at h
  · obtain ⟨whole, fraction, exponent, hwhole, hfraction, hexponent, rfl⟩ :=
      exists_of_scanUnsigned h
    exact ⟨_, .intro (.inr rfl) hwhole hfraction hexponent, rfl⟩
  · obtain ⟨whole, fraction, exponent, hwhole, hfraction, hexponent, rfl⟩ :=
      exists_of_scanUnsigned h
    exact ⟨_, .intro (.inl rfl) hwhole hfraction hexponent, rfl⟩

end Numeral

/-! ### Lexemes -/

/-- A lexeme that nobody can get past. -/
def Lexeme.IsStuck (l : Lexeme) : Prop :=
  l.token = .stray ∨ (∃ e e', l.token = .string (.error e) (.error e')) ∨
    ∃ e e', l.token = .atom (.error e) (.error e')

lemma Symbol.Stands.isPassable {x : Symbol} {l : Lexeme} (h : x.Stands l) :
    l.token.isPassable = true := by
  cases x with
  | openBrace | closeBrace | openBracket | closeBracket | colon | comma =>
    have hl : l.token = _ := h
    rw [hl]
    rfl
  | string | atom =>
    obtain ⟨read, hl, -⟩ := h
    rw [hl]
    rfl

lemma Lexeme.IsStuck.not_isPassable {l : Lexeme} (h : l.IsStuck) : l.token.isPassable = false := by
  obtain hl | ⟨e, e', hl⟩ | ⟨e, e', hl⟩ := h <;> rw [hl] <;> rfl

lemma scanWord_eq_ok {letters s rest : List Char} (h : Lexeme.scanWord letters s = .ok rest) :
    s = letters ++ rest := by
  induction letters generalizing s with
  | nil =>
    cases h
    rfl
  | cons l letters ih =>
    cases s with
    | nil => cases h
    | cons c s =>
      rw [Lexeme.scanWord] at h
      split_ifs at h with hc
      rw [hc, ih h, List.cons_append]

/-- A word is a symbol, or it cannot be passed. -/
lemma word_cases {c : Char} {letters : List Char} {value : Atom} (hvalid : IsAtom (c :: letters))
    (hnull : value = .null ↔ c :: letters = ['n', 'u', 'l', 'l']) (s : List Char) :
    (∃ x : Symbol, x.Valid ∧ x.Stands (Lexeme.word c letters value s) ∧
      c :: s = x.text ++ (Lexeme.word c letters value s).rest) ∨
    (Lexeme.word c letters value s).IsStuck := by
  rw [Lexeme.word]
  cases hscan : Lexeme.scanWord letters s with
  | error f => exact .inr (.inr (.inr ⟨f, f, rfl⟩))
  | ok rest =>
    refine .inl ⟨.atom (c :: letters), hvalid, ⟨.ok value, rfl, ?_⟩, ?_⟩
    · rw [← hnull, Except.ok.injEq]
    · rw [scanWord_eq_ok hscan]
      rfl

/-- A string is a symbol, or it cannot be passed. -/
lemma string_cases (s : List Char) :
    (∃ x : Symbol, x.Valid ∧ x.Stands (Lexeme.string s) ∧
      '"' :: s = x.text ++ (Lexeme.string s).rest) ∨
    (Lexeme.string s).IsStuck := by
  by_cases hclosed : ∃ rest, (Quoted.scan s).2 = .closed rest
  · obtain ⟨rest, hrest⟩ := hclosed
    obtain ⟨body, hbody, rfl⟩ := Quoted.exists_body_of_scan hrest
    obtain ⟨read, hfirst, hread⟩ := hbody.exists_first rest
    have hstring : Lexeme.string (body ++ '"' :: rest) = _ := hfirst
    rw [hstring]
    refine .inl ⟨.string body, hbody, ⟨read, rfl, hread⟩, ?_⟩
    rw [Symbol.text, List.cons_append, List.append_assoc, List.singleton_append]
  · obtain ⟨f, hskip⟩ : ∃ f, (Quoted.scan s).2.skip = .error f := by
      cases hending : (Quoted.scan s).2 with
      | closed rest => exact absurd ⟨rest, hending⟩ hclosed
      | unfinished | badLetter | badDigits | control => exact ⟨_, rfl⟩
    obtain ⟨e, hread⟩ : ∃ e, Quoted.join (Quoted.scan s).1 (Quoted.scan s).2 = .error e := by
      cases hjoin : Quoted.join (Quoted.scan s).1 (Quoted.scan s).2 with
      | error e => exact ⟨e, rfl⟩
      | ok t => exact absurd (Quoted.exists_closed_of_join hjoin) hclosed
    refine .inr (.inr (.inl ⟨e, f, ?_⟩))
    simp only [Lexeme.string, hskip, hread]
    rfl

/-- What starts like a number is a symbol, or it cannot be passed. -/
lemma number_cases (s : List Char) :
    (∃ x : Symbol, x.Valid ∧ x.Stands (Lexeme.number s) ∧
      s = x.text ++ (Lexeme.number s).rest) ∨
    (Lexeme.number s).IsStuck := by
  cases hscan : Numeral.scan s with
  | error m =>
    refine .inr (.inr (.inr ⟨m.fault .eofForValue, m.fault .invalidNumber, ?_⟩))
    simp only [Lexeme.number, hscan]
  | ok scanned =>
    obtain ⟨n, rest⟩ := scanned
    obtain ⟨t, ht, rfl⟩ := Numeral.exists_isNumber_of_scan hscan
    have hnumber : Lexeme.number (t ++ rest)
        = ⟨.atom ((n.value rest).map .number) (.ok ()), t ++ rest, rest⟩ := by
      simp only [Lexeme.number, hscan]
    rw [hnumber]
    exact .inl ⟨.atom t, .number ht, ht.stands rfl, rfl⟩

lemma exists_mark_of_mark? {c : Char} {t : Token} (h : Lexeme.mark? c = some t) :
    ∃ x : Symbol, x.IsMark ∧ x.text = [c] ∧ ∀ l : Lexeme, l.token = t → x.Stands l := by
  rw [Lexeme.mark?] at h
  split_ifs at h with h₁ h₂ h₃ h₄ h₅ h₆
  all_goals cases h
  · exact ⟨.openBrace, trivial, by rw [h₁, Symbol.text], fun _ hl => hl⟩
  · exact ⟨.closeBrace, trivial, by rw [h₂, Symbol.text], fun _ hl => hl⟩
  · exact ⟨.openBracket, trivial, by rw [h₃, Symbol.text], fun _ hl => hl⟩
  · exact ⟨.closeBracket, trivial, by rw [h₄, Symbol.text], fun _ hl => hl⟩
  · exact ⟨.colon, trivial, by rw [h₅, Symbol.text], fun _ hl => hl⟩
  · exact ⟨.comma, trivial, by rw [h₆, Symbol.text], fun _ hl => hl⟩

/-- The first lexeme stands for a symbol, or it cannot be passed. -/
lemma first_cases (c : Char) (s : List Char) :
    (∃ x : Symbol, x.Valid ∧ x.Stands (Lexeme.first c s) ∧
      c :: s = x.text ++ (Lexeme.first c s).rest) ∨
    (Lexeme.first c s).IsStuck := by
  rw [Lexeme.first]
  cases hmark : Lexeme.mark? c with
  | some t =>
    obtain ⟨x, hx, htext, hstands⟩ := exists_mark_of_mark? hmark
    refine .inl ⟨x, ?_, hstands _ rfl, by rw [htext, List.singleton_append]⟩
    cases x with
    | string | atom => exact hx.elim
    | _ => trivial
  | none =>
    cases hword : Lexeme.word? c with
    | some word =>
      rw [Lexeme.word?] at hword
      split_ifs at hword with hn ht hf
      all_goals
        cases hword
        subst_vars
      · exact word_cases .null (by simp) s
      · exact word_cases .true (by simp) s
      · exact word_cases .false (by simp) s
    | none =>
      simp only
      split_ifs with hquote hnumber
      · subst hquote
        exact string_cases s
      · exact number_cases (c :: s)
      · exact .inr (.inl rfl)

end ByteStore.Json
