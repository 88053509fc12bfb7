import ByteStore.Proofs.Json.Spelling

/-!
# Literals

The grammar of the strings and numbers of a document, whether or not they can be read: a string may
name no text, because half of a surrogate pair stands alone, and a number may be too large. A string
is read to the text that it spells and to nothing else (`Body.join_eq_ok_iff`), and a number is
passed up to where it stops (`IsNumber.exists_scan`).
-/

namespace ByteStore.Json

lemma toNat_of_isDigit {c : Char} (hc : c.isDigit = true) : 48 ≤ c.toNat ∧ c.toNat ≤ 57 := by
  simpa [Char.isDigit, Char.le_def, UInt32.le_iff_toNat_le] using hc

/-! ### Strings -/

namespace Quoted

/-- A hexadecimal digit. -/
def IsHexDigit (c : Char) : Prop := c.isDigit = true ∨ 'a' ≤ c ∧ c ≤ 'f' ∨ 'A' ≤ c ∧ c ≤ 'F'

/-- What may stand between the quotation marks of a string. -/
inductive Body : List Char → Prop
  | nil : Body []
  | plain {c : Char} {t : List Char} (hspace : ' ' ≤ c) (hquote : c ≠ '"') (hslash : c ≠ '\\')
      (h : Body t) : Body (c :: t)
  | escaped {c e : Char} {t : List Char} (hc : (e, c) ∈ escapes) (h : Body t) :
      Body ('\\' :: e :: t)
  | unit {h₁ h₂ h₃ h₄ : Char} {t : List Char} (hdigits : ∀ c ∈ [h₁, h₂, h₃, h₄], IsHexDigit c)
      (h : Body t) : Body ('\\' :: 'u' :: h₁ :: h₂ :: h₃ :: h₄ :: t)

lemma IsHexDigit.exists_digitOf? {c : Char} (hc : IsHexDigit c) :
    ∃ n < 16, Text.digitOf? 16 c = some n := by
  have hdigit : ∃ n < 16, Text.digit? c = some n := by
    rw [Text.digit?]
    split_ifs with hdecimal hsmall hlarge
    · obtain ⟨hlow, hhigh⟩ := toNat_of_isDigit hdecimal
      refine ⟨_, ?_, rfl⟩
      change c.toNat - 48 < 16
      omega
    · have hhigh : c.toNat ≤ 102 := hsmall.2
      refine ⟨_, ?_, rfl⟩
      change c.toNat - 97 + 10 < 16
      omega
    · have hhigh : c.toNat ≤ 70 := hlarge.2
      refine ⟨_, ?_, rfl⟩
      change c.toNat - 65 + 10 < 16
      omega
    · exact absurd hc (by rw [IsHexDigit]; tauto)
  obtain ⟨n, hn, hdigit⟩ := hdigit
  refine ⟨n, hn, ?_⟩
  rw [Text.digitOf?, hdigit, Option.filter_some_pos]
  exact decide_eq_true hn

lemma exists_number? {h₁ h₂ h₃ h₄ : Char} (h : ∀ c ∈ [h₁, h₂, h₃, h₄], IsHexDigit c) :
    ∃ n < 0x10000, Text.number? 16 [h₁, h₂, h₃, h₄] = some n := by
  obtain ⟨a, ha, hd₁⟩ := (h h₁ (by simp)).exists_digitOf?
  obtain ⟨b, hb, hd₂⟩ := (h h₂ (by simp)).exists_digitOf?
  obtain ⟨c, hc, hd₃⟩ := (h h₃ (by simp)).exists_digitOf?
  obtain ⟨d, hd, hd₄⟩ := (h h₄ (by simp)).exists_digitOf?
  refine ⟨((a * 16 + b) * 16 + c) * 16 + d, by omega, ?_⟩
  simp [Text.number?, hd₁, hd₂, hd₃, hd₄]

lemma isHexDigit_of_digit? {c : Char} {n : Nat} (h : Text.digit? c = some n) : IsHexDigit c := by
  rw [Text.digit?] at h
  split_ifs at h with hdecimal hsmall hlarge
  · exact .inl hdecimal
  · exact .inr (.inl hsmall)
  · exact .inr (.inr hlarge)

lemma isHexDigit_of_unit? {h₁ h₂ h₃ h₄ : Char} {u : Nat} (h : unit? h₁ h₂ h₃ h₄ = some u) :
    ∀ c ∈ [h₁, h₂, h₃, h₄], IsHexDigit c := by
  simp only [unit?, Option.bind_eq_bind, Option.bind_eq_some_iff] at h
  obtain ⟨a, ha, b, hb, c, hc, d, hd, -⟩ := h
  simp only [List.forall_mem_cons, List.not_mem_nil, false_implies, implies_true, and_true]
  exact ⟨isHexDigit_of_digit? ha, isHexDigit_of_digit? hb, isHexDigit_of_digit? hc,
    isHexDigit_of_digit? hd⟩

lemma isHexDigit_of_number? {h₁ h₂ h₃ h₄ : Char} {n : Nat}
    (h : Text.number? 16 [h₁, h₂, h₃, h₄] = some n) : ∀ c ∈ [h₁, h₂, h₃, h₄], IsHexDigit c :=
  isHexDigit_of_unit? (unit?_of_number? h)

/-- What spells a text may stand between quotation marks. -/
lemma Spells.body {s t : List Char} (h : Spells s t) : Body t := by
  induction h with
  | nil => exact .nil
  | plain hspace hquote hslash _ ih => exact .plain hspace hquote hslash ih
  | escaped hc _ ih => exact .escaped hc ih
  | unit hc _ ih => exact .unit (isHexDigit_of_number? hc) ih
  | pair hu _ hv _ _ _ ih =>
    exact .unit (isHexDigit_of_number? hu) (.unit (isHexDigit_of_number? hv) ih)

/-- A string in front of anything is split up to its closing quotation mark. -/
lemma Body.scan {t : List Char} (h : Body t) (rest : List Char) :
    (Quoted.scan (t ++ '"' :: rest)).2 = .closed rest := by
  induction h with
  | nil => rw [List.nil_append, scan_quote]
  | plain hspace hquote hslash h ih => rwa [List.cons_append, scan_plain hspace hquote hslash]
  | escaped hc h ih => rwa [List.cons_append, List.cons_append, scan_escaped hc]
  | unit hdigits h ih =>
    obtain ⟨n, -, hn⟩ := exists_number? hdigits
    simpa only [List.cons_append, scan_unit hn] using ih

lemma exists_of_join_cons {c : Char} {ps : List Piece} {ending : Ending} {s : List Char}
    (h : (join ps ending).map (c :: ·) = .ok s) : ∃ s', join ps ending = .ok s' ∧ s = c :: s' := by
  cases hjoin : join ps ending with
  | error f =>
    rw [hjoin] at h
    cases h
  | ok s' =>
    rw [hjoin] at h
    cases h
    exact ⟨s', rfl, rfl⟩

lemma toNat_ofNat {n : Nat} (h : n < 0xD800 ∨ 0xDFFF < n ∧ n < 0x110000) :
    (Char.ofNat n).toNat = n := by
  rw [Char.ofNat, dif_pos h]
  rfl

/--
What is read of a string is what it spells. A unit that is the first half of a surrogate pair is
read together with the piece after it, hence the second part.
-/
lemma Body.spells_of_join {t : List Char} (h : Body t) (rest : List Char) :
    (∀ s, join (Quoted.scan (t ++ '"' :: rest)).1 (.closed rest) = .ok s → Spells s t) ∧
    ∀ (h₁ h₂ h₃ h₄ : Char) (u : Nat) (r s : List Char), u < 0x400 →
      Text.number? 16 [h₁, h₂, h₃, h₄] = some (0xD800 + u) →
      join (.unit (0xD800 + u) r :: (Quoted.scan (t ++ '"' :: rest)).1) (.closed rest) = .ok s →
        Spells s ('\\' :: 'u' :: h₁ :: h₂ :: h₃ :: h₄ :: t) := by
  have hhalf {u : Nat} (hu : u < 0x400) :
      isFirstHalf (0xD800 + u) = true ∧ isSecondHalf (0xD800 + u) = false := by
    simp only [isFirstHalf, isSecondHalf, Bool.and_eq_true, Bool.and_eq_false_iff,
      decide_eq_true_eq, decide_eq_false_iff_not]
    omega
  induction h with
  | nil =>
    rw [List.nil_append, scan_quote]
    refine ⟨fun s hs => ?_, fun h₁ h₂ h₃ h₄ u r s hu _ hs => ?_⟩
    · cases hs
      exact .nil
    · simp [join, hhalf hu] at hs
  | plain hspace hquote hslash h ih =>
    rw [List.cons_append, scan_plain hspace hquote hslash]
    refine ⟨fun s hs => ?_, fun h₁ h₂ h₃ h₄ u r s hu _ hs => ?_⟩
    · obtain ⟨s', hs', rfl⟩ := exists_of_join_cons hs
      exact .plain hspace hquote hslash (ih.1 s' hs')
    · simp [join, hhalf hu] at hs
  | escaped hc h ih =>
    rw [List.cons_append, List.cons_append, scan_escaped hc]
    refine ⟨fun s hs => ?_, fun h₁ h₂ h₃ h₄ u r s hu _ hs => ?_⟩
    · obtain ⟨s', hs', rfl⟩ := exists_of_join_cons hs
      exact .escaped hc (ih.1 s' hs')
    · simp [join, hhalf hu] at hs
  | @unit k₁ k₂ k₃ k₄ t hdigits h ih =>
    obtain ⟨n, hlt, hn⟩ := exists_number? hdigits
    simp only [List.cons_append, scan_unit hn]
    refine ⟨fun s hs => ?_, fun h₁ h₂ h₃ h₄ u r s hu hfirst hs => ?_⟩
    · by_cases hn' : n < 0xD800 ∨ 0xDFFF < n
      · have hchar : (Char.ofNat n).toNat = n := toNat_ofNat (by omega)
        rw [← hchar, join_unit] at hs
        obtain ⟨s', hs', rfl⟩ := exists_of_join_cons hs
        exact .unit (hchar.symm ▸ hn) (ih.1 s' hs')
      · by_cases hsecond : n < 0xDC00
        · obtain ⟨u, rfl⟩ : ∃ u, n = 0xD800 + u := ⟨n - 0xD800, by omega⟩
          exact ih.2 k₁ k₂ k₃ k₄ u _ s (by omega) hn hs
        · have hsecond' : isSecondHalf n = true := by
            simp only [isSecondHalf, Bool.and_eq_true, decide_eq_true_eq]
            omega
          rw [join.eq_def] at hs
          simp [hsecond'] at hs
    · by_cases hsecond : 0xDC00 ≤ n ∧ n ≤ 0xDFFF
      · obtain ⟨v, rfl⟩ : ∃ v, n = 0xDC00 + v := ⟨n - 0xDC00, by omega⟩
        have hv : v < 0x400 := by omega
        have hchar : (Char.ofNat (0x10000 + u * 0x400 + v)).toNat = 0x10000 + u * 0x400 + v :=
          toNat_ofNat (by omega)
        rw [join_pair hu hv hchar] at hs
        obtain ⟨s', hs', rfl⟩ := exists_of_join_cons hs
        exact .pair hfirst hu hn hv hchar (ih.1 s' hs')
      · have hsecond' : isSecondHalf n = false := by
          simp only [isSecondHalf, Bool.and_eq_false_iff, decide_eq_false_iff_not]
          omega
        simp [join, hhalf hu, hsecond'] at hs

/-- A string is read to the text that it spells, if there is any. -/
theorem Body.join_eq_ok_iff {t : List Char} (h : Body t) (rest s : List Char) :
    join (Quoted.scan (t ++ '"' :: rest)).1 (.closed rest) = .ok s ↔ Spells s t :=
  ⟨(h.spells_of_join rest).1 s, fun hs => (hs.join_scan rest).2⟩

lemma Spells.unique {s s' t : List Char} (h : Spells s t) (h' : Spells s' t) : s = s' := by
  have hjoin := (h.join_scan []).2
  rw [(h'.join_scan []).2] at hjoin
  exact (Except.ok.inj hjoin).symm

/-- A string is one lexeme, and it is read to the text that it spells. -/
lemma Body.exists_first {t : List Char} (h : Body t) (rest : List Char) :
    ∃ read, Lexeme.first '"' (t ++ '"' :: rest)
        = ⟨.string read (.ok ()), '"' :: (t ++ '"' :: rest), rest⟩ ∧
      ∀ s : String, read = .ok s ↔ Spells s.toList t := by
  have hending := h.scan rest
  refine ⟨(join (Quoted.scan (t ++ '"' :: rest)).1 (.closed rest)).map String.ofList, ?_,
    fun s => ?_⟩
  · change Lexeme.string (t ++ '"' :: rest) = _
    simp only [Lexeme.string, hending, Ending.skip]
  · rw [← h.join_eq_ok_iff rest]
    cases join (Quoted.scan (t ++ '"' :: rest)).1 (.closed rest) with
    | error f =>
      constructor
      · intro hf
        cases hf
      · intro hf
        cases hf
    | ok s' =>
      constructor
      · intro hs
        rw [← Except.ok.inj hs, String.toList_ofList]
      · intro hs
        rw [Except.ok.inj hs]
        exact congrArg Except.ok String.ofList_toList

end Quoted

/-! ### Numbers -/

namespace Numeral

/-- At least one digit. -/
def IsDigits (s : List Char) : Prop := s ≠ [] ∧ ∀ c ∈ s, c.isDigit = true

/-- The whole part of a number: a zero, or digits that do not start with one. -/
inductive IsWhole : List Char → Prop
  | zero : IsWhole ['0']
  | digits {c : Char} {ds : List Char} (hc : c.isDigit = true) (hzero : c ≠ '0')
      (hds : ∀ d ∈ ds, d.isDigit = true) : IsWhole (c :: ds)

/-- The fraction of a number, if there is one. -/
inductive IsFraction : List Char → Prop
  | none : IsFraction []
  | digits {ds : List Char} (hds : IsDigits ds) : IsFraction ('.' :: ds)

/-- The exponent of a number, if there is one. -/
inductive IsExponent : List Char → Prop
  | none : IsExponent []
  | digits {e : Char} {sign ds : List Char} (he : e = 'e' ∨ e = 'E')
      (hsign : sign = [] ∨ sign = ['+'] ∨ sign = ['-']) (hds : IsDigits ds) :
      IsExponent (e :: (sign ++ ds))

/-- The text of a number. -/
inductive IsNumber : List Char → Prop
  | intro {sign whole fraction exponent : List Char} (hsign : sign = [] ∨ sign = ['-'])
      (hwhole : IsWhole whole) (hfraction : IsFraction fraction) (hexponent : IsExponent exponent) :
      IsNumber (sign ++ (whole ++ (fraction ++ exponent)))

/-- A text that no number goes on with. -/
def Stops (s : List Char) : Prop :=
  ∀ c ∈ s.head?, c.isDigit = false ∧ c ≠ '.' ∧ c ≠ 'e' ∧ c ≠ 'E'

variable {s t rest : List Char}

lemma digits_append (hs : ∀ c ∈ s, c.isDigit = true)
    (hrest : ∀ c ∈ rest.head?, c.isDigit = false) : digits (s ++ rest) = (s, rest) := by
  have htake : rest.takeWhile Char.isDigit = [] ∧ rest.dropWhile Char.isDigit = rest := by
    cases rest with
    | nil => exact ⟨rfl, rfl⟩
    | cons c rest => simp [hrest c rfl]
  rw [digits, List.takeWhile_append_of_pos hs, List.dropWhile_append_of_pos hs, htake.1, htake.2,
    List.append_nil]

lemma scanWhole_append (h : IsWhole t) (hrest : ∀ c ∈ rest.head?, c.isDigit = false) :
    scanWhole (t ++ rest) = .ok (t, rest) := by
  cases h with
  | zero =>
    have hany : rest.head?.any Char.isDigit = false := by
      cases rest with
      | nil => rfl
      | cons c rest => exact hrest c rfl
    simp [scanWhole, hany]
  | digits hc hzero hds => simp [scanWhole, hc, hzero, digits_append hds hrest]

lemma exists_scanFraction (h : IsFraction t)
    (hrest : ∀ c ∈ rest.head?, c.isDigit = false ∧ c ≠ '.') :
    ∃ f, scanFraction (t ++ rest) = .ok (f, rest) := by
  cases h with
  | none =>
    refine ⟨none, ?_⟩
    rw [List.nil_append, scanFraction.eq_def]
    split
    · exact absurd rfl (hrest '.' rfl).2
    · rfl
  | @digits ds hds =>
    obtain ⟨d, ds', rfl⟩ := List.exists_cons_of_ne_nil hds.1
    refine ⟨some (d :: ds'), ?_⟩
    rw [List.cons_append, scanFraction, digits_append hds.2 fun c hc => (hrest c hc).1]

lemma exists_scanExponent (h : IsExponent t) (hrest : Stops rest) :
    ∃ e, scanExponent (t ++ rest) = .ok (e, rest) := by
  cases h with
  | none =>
    refine ⟨none, ?_⟩
    cases rest with
    | nil => rfl
    | cons c rest =>
      have hc := (hrest c rfl).2.2
      simp [scanExponent, hc]
  | @digits e sign ds he hsign hds =>
    obtain ⟨d, ds', rfl⟩ := List.exists_cons_of_ne_nil hds.1
    have hdigits := digits_append hds.2 fun c hc => (hrest c hc).1
    have hdigit := hds.2 d List.mem_cons_self
    have hscan :
        ∃ negative, scanSign (sign ++ (d :: ds' ++ rest)) = (negative, d :: ds' ++ rest) := by
      rcases hsign with rfl | rfl | rfl
      · refine ⟨false, ?_⟩
        rw [List.nil_append, List.cons_append, scanSign.eq_def]
        split
        · rename_i heq
          cases heq
          exact absurd hdigit (by decide)
        · rename_i heq
          cases heq
          exact absurd hdigit (by decide)
        · rfl
      · exact ⟨false, rfl⟩
      · exact ⟨true, rfl⟩
    obtain ⟨negative, hscan⟩ := hscan
    refine ⟨some ⟨negative, d :: ds'⟩, ?_⟩
    rw [List.cons_append, List.append_assoc, scanExponent]
    simp only [he, if_true, hscan, hdigits]

lemma IsWhole.exists_cons (h : IsWhole t) : ∃ c s, t = c :: s ∧ c.isDigit = true := by
  cases h with
  | zero => exact ⟨_, _, rfl, rfl⟩
  | digits hc => exact ⟨_, _, rfl, hc⟩

/-- A number is passed up to where it stops. -/
theorem IsNumber.exists_scan (h : IsNumber t) (hrest : Stops rest) :
    ∃ n, scan (t ++ rest) = .ok (n, rest) := by
  obtain ⟨hsign, hwhole, hfraction, hexponent⟩ := h
  rename_i sign whole fraction exponent
  have hexponent' : ∀ c ∈ (exponent ++ rest).head?, c.isDigit = false ∧ c ≠ '.' := by
    intro c hc
    cases hexponent with
    | none => exact ⟨(hrest c hc).1, (hrest c hc).2.1⟩
    | digits he => rcases he with rfl | rfl <;> cases hc <;> decide
  have hfraction' : ∀ c ∈ (fraction ++ (exponent ++ rest)).head?, c.isDigit = false := by
    intro c hc
    cases hfraction with
    | none => exact (hexponent' c hc).1
    | digits => cases hc; rfl
  obtain ⟨f, hf⟩ := exists_scanFraction hfraction hexponent'
  obtain ⟨e, he⟩ := exists_scanExponent hexponent hrest
  have hunsigned (negative : Bool) :
      scanUnsigned negative (whole ++ (fraction ++ (exponent ++ rest)))
        = .ok (⟨negative, whole, f, e⟩, rest) := by
    simp [scanUnsigned, scanWhole_append hwhole hfraction', hf, he, bind, Except.bind, pure,
      Except.pure]
  rcases hsign with rfl | rfl
  · refine ⟨_, Eq.trans ?_ (hunsigned false)⟩
    obtain ⟨c, s, rfl, hc⟩ := hwhole.exists_cons
    simp only [List.nil_append, List.cons_append, List.append_assoc]
    rw [scan.eq_def]
    split
    · rename_i heq
      cases heq
      exact absurd hc (by decide)
    · rfl
  · refine ⟨_, Eq.trans ?_ (hunsigned true)⟩
    simp only [List.cons_append, List.nil_append, List.append_assoc, scan]

end Numeral

end ByteStore.Json
