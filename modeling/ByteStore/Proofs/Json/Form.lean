import ByteStore.Proofs.Json.Symbol

/-!
# Forms

A form is what is left of the text of a value without the spaces between its symbols: the literals
as they are spelled, the items of arrays and the members of objects in their order. Whichever spaces
a text of a form has (`Form.Written`), its lexemes stand for the form (`Form.Written.hasLexemes`).
-/

namespace ByteStore.Json

/-- What a text says, apart from spaces. Strings and keys are what is between quotation marks. -/
inductive Form
  | string (body : List Char)
  | atom (text : List Char)
  | array (items : List Form)
  | object (members : List (List Char × Form))

namespace Form

/-- The form of a null. -/
def null : Form := .atom ['n', 'u', 'l', 'l']

/-! ### Symbols of forms -/

mutual

/-- The symbols of a form. -/
def symbols : Form → List Symbol
  | .string body => [.string body]
  | .atom text => [.atom text]
  | .array items => .openBracket :: itemSymbols items
  | .object members => .openBrace :: memberSymbols members

/-- The symbols of an array from its first item on. -/
def itemSymbols : List Form → List Symbol
  | [] => [.closeBracket]
  | f :: fs => f.symbols ++ moreItemSymbols fs

/-- The symbols of an array from the comma after an item on. -/
def moreItemSymbols : List Form → List Symbol
  | [] => [.closeBracket]
  | f :: fs => .comma :: (f.symbols ++ moreItemSymbols fs)

/-- The symbols of an object from its first key on. -/
def memberSymbols : List (List Char × Form) → List Symbol
  | [] => [.closeBrace]
  | (key, f) :: ms => .string key :: .colon :: (f.symbols ++ moreMemberSymbols ms)

/-- The symbols of an object from the comma after a member on. -/
def moreMemberSymbols : List (List Char × Form) → List Symbol
  | [] => [.closeBrace]
  | (key, f) :: ms => .comma :: .string key :: .colon :: (f.symbols ++ moreMemberSymbols ms)

end

/-- A form whose literals keep to the grammar. -/
inductive Valid : Form → Prop
  | string {body : List Char} (h : Quoted.Body body) : Valid (.string body)
  | atom {text : List Char} (h : IsAtom text) : Valid (.atom text)
  | array {items : List Form} (h : ∀ f ∈ items, Valid f) : Valid (.array items)
  | object {members : List (List Char × Form)} (hkeys : ∀ m ∈ members, Quoted.Body m.1)
      (h : ∀ m ∈ members, Valid m.2) : Valid (.object members)

/-- The texts of a form. -/
def Written (f : Form) (text : List Char) : Prop := Spaced f.symbols text

/-- The rows of lexemes that stand for a form. -/
def HasLexemes (f : Form) (ls : List Lexeme) : Prop := f.symbols.Forall₂ Symbol.Stands ls

lemma valid_null : null.Valid := .atom .null

lemma valid_array_nil : (array []).Valid := .array (List.forall_mem_nil _)

lemma valid_object_nil : (object []).Valid := .object (List.forall_mem_nil _) (List.forall_mem_nil _)

lemma valid_object_middle (front : List (List Char × Form)) {back : List (List Char × Form)}
    {key : List Char} {f : Form} :
    (object (front ++ (key, f) :: back)).Valid ↔
      (object (front ++ back)).Valid ∧ Quoted.Body key ∧ f.Valid := by
  constructor
  · rintro (_ | _ | _ | ⟨hkeys, hvalues⟩)
    rw [List.forall_mem_append, List.forall_mem_cons] at hkeys hvalues
    exact ⟨.object (List.forall_mem_append.2 ⟨hkeys.1, hkeys.2.2⟩)
      (List.forall_mem_append.2 ⟨hvalues.1, hvalues.2.2⟩), hkeys.2.1, hvalues.2.1⟩
  · rintro ⟨_ | _ | _ | ⟨hkeys, hvalues⟩, hkey, hf⟩
    rw [List.forall_mem_append] at hkeys hvalues
    exact .object (List.forall_mem_append.2 ⟨hkeys.1, List.forall_mem_cons.2 ⟨hkey, hkeys.2⟩⟩)
      (List.forall_mem_append.2 ⟨hvalues.1, List.forall_mem_cons.2 ⟨hf, hvalues.2⟩⟩)

lemma valid_array_middle (front : List Form) {back : List Form} {f : Form} :
    (array (front ++ f :: back)).Valid ↔ (array (front ++ back)).Valid ∧ f.Valid := by
  constructor
  · rintro (_ | _ | hitems | _)
    rw [List.forall_mem_append, List.forall_mem_cons] at hitems
    exact ⟨.array (List.forall_mem_append.2 ⟨hitems.1, hitems.2.2⟩), hitems.2.1⟩
  · rintro ⟨_ | _ | hitems | _, hf⟩
    rw [List.forall_mem_append] at hitems
    exact .array (List.forall_mem_append.2 ⟨hitems.1, List.forall_mem_cons.2 ⟨hf, hitems.2⟩⟩)

/-! ### Lexemes of texts -/

/-- A row of symbols that can be written with any spaces. -/
structure Readable (xs : List Symbol) : Prop where
  valid : ∀ x ∈ xs, x.Valid
  apart : xs.IsChain Symbol.Apart

variable {x : Symbol} {xs ys : List Symbol} {f : Form} {text : List Char}

lemma readable_singleton (hx : x.Valid) : Readable [x] :=
  ⟨List.forall_mem_singleton.2 hx, .singleton x⟩

/-- A mark may stand in front of anything. -/
lemma Readable.cons (h : Readable xs) (hvalid : x.Valid) (hmark : x.IsMark) : Readable (x :: xs) :=
  ⟨List.forall_mem_cons.2 ⟨hvalid, h.valid⟩, List.isChain_cons.2 ⟨fun _ _ => .inl hmark, h.apart⟩⟩

/-- Anything may stand in front of a mark. -/
lemma Readable.append (h : Readable xs) (h' : Readable ys) (hmark : ∀ y ∈ ys.head?, y.IsMark) :
    Readable (xs ++ ys) :=
  ⟨List.forall_mem_append.2 ⟨h.valid, h'.valid⟩,
    List.isChain_append.2 ⟨h.apart, h'.apart, fun _ _ y hy => .inr (hmark y hy)⟩⟩

lemma isMark_of_moreItemSymbols (fs : List Form) :
    ∀ y ∈ (moreItemSymbols fs).head?, y.IsMark := by
  cases fs <;> simp [moreItemSymbols, Symbol.IsMark]

lemma isMark_of_moreMemberSymbols (ms : List (List Char × Form)) :
    ∀ y ∈ (moreMemberSymbols ms).head?, y.IsMark := by
  cases ms <;> simp [moreMemberSymbols, Symbol.IsMark]

lemma readable_moreItemSymbols {fs : List Form} (h : ∀ f ∈ fs, Readable f.symbols) :
    Readable (moreItemSymbols fs) := by
  induction fs with
  | nil => exact readable_singleton trivial
  | cons f fs ih =>
    rw [List.forall_mem_cons] at h
    rw [moreItemSymbols]
    exact (h.1.append (ih h.2) (isMark_of_moreItemSymbols fs)).cons trivial trivial

lemma readable_member {key : List Char} {ms : List (List Char × Form)} (hkey : Quoted.Body key)
    (hf : Readable f.symbols) (hms : Readable (moreMemberSymbols ms)) :
    Readable (.string key :: .colon :: (f.symbols ++ moreMemberSymbols ms)) := by
  have hvalue := (hf.append hms (isMark_of_moreMemberSymbols ms)).cons (x := .colon) trivial trivial
  exact (readable_singleton (x := .string key) hkey).append hvalue (by simp [Symbol.IsMark])

lemma readable_moreMemberSymbols {ms : List (List Char × Form)} (hkeys : ∀ m ∈ ms, Quoted.Body m.1)
    (h : ∀ m ∈ ms, Readable m.2.symbols) : Readable (moreMemberSymbols ms) := by
  induction ms with
  | nil => exact readable_singleton trivial
  | cons m ms ih =>
    obtain ⟨key, f⟩ := m
    rw [List.forall_mem_cons] at hkeys h
    rw [moreMemberSymbols]
    exact (readable_member hkeys.1 h.1 (ih hkeys.2 h.2)).cons trivial trivial

lemma Valid.readable (h : f.Valid) : Readable f.symbols := by
  induction h with
  | string h =>
    rw [symbols]
    exact readable_singleton h
  | atom h =>
    rw [symbols]
    exact readable_singleton h
  | @array items _ ih =>
    rw [symbols]
    refine Readable.cons ?_ trivial trivial
    cases items with
    | nil => exact readable_singleton trivial
    | cons f fs =>
      rw [List.forall_mem_cons] at ih
      exact ih.1.append (readable_moreItemSymbols ih.2) (isMark_of_moreItemSymbols fs)
  | @object members hkeys _ ih =>
    rw [symbols]
    refine Readable.cons ?_ trivial trivial
    cases members with
    | nil => exact readable_singleton trivial
    | cons m ms =>
      obtain ⟨key, f⟩ := m
      rw [List.forall_mem_cons] at hkeys ih
      exact readable_member hkeys.1 ih.1 (readable_moreMemberSymbols hkeys.2 ih.2)

/-- The lexemes of a text stand for its form. -/
theorem Written.hasLexemes (hvalid : f.Valid) (h : f.Written text) :
    f.HasLexemes (lexemes text) :=
  stands_of_spaced h hvalid.readable.valid hvalid.readable.apart

/-! ### Lexemes of forms -/

lemma exists_of_forall₂_append {α β : Type} {R : α → β → Prop} {as bs : List α} {ls : List β}
    (h : (as ++ bs).Forall₂ R ls) :
    ∃ us vs, ls = us ++ vs ∧ as.Forall₂ R us ∧ bs.Forall₂ R vs := by
  induction as generalizing ls with
  | nil => exact ⟨[], ls, rfl, .nil, h⟩
  | cons a as ih =>
    obtain ⟨l, ls, ha, htail, rfl⟩ := List.forall₂_cons_left_iff.1 h
    obtain ⟨us, vs, rfl, has, hbs⟩ := ih htail
    exact ⟨l :: us, vs, rfl, .cons ha has, hbs⟩

variable {body key : List Char} {items : List Form} {ms : List (List Char × Form)}
  {ls : List Lexeme}

lemma exists_of_forall₂_singleton (h : [x].Forall₂ Symbol.Stands ls) :
    ∃ l, ls = [l] ∧ x.Stands l := by
  obtain ⟨l, ls, hl, htail, rfl⟩ := List.forall₂_cons_left_iff.1 h
  obtain rfl := List.forall₂_nil_left_iff.1 htail
  exact ⟨l, rfl, hl⟩

lemma HasLexemes.exists_string (h : (string body).HasLexemes ls) :
    ∃ l, ls = [l] ∧ (Symbol.string body).Stands l := by
  rw [HasLexemes, symbols] at h
  exact exists_of_forall₂_singleton h

lemma HasLexemes.exists_atom (h : (atom text).HasLexemes ls) :
    ∃ l, ls = [l] ∧ (Symbol.atom text).Stands l := by
  rw [HasLexemes, symbols] at h
  exact exists_of_forall₂_singleton h

lemma HasLexemes.exists_array (h : (array items).HasLexemes ls) :
    ∃ l ls', ls = l :: ls' ∧ l.token = .openBracket ∧
      (itemSymbols items).Forall₂ Symbol.Stands ls' := by
  rw [HasLexemes, symbols] at h
  obtain ⟨l, ls', hl, htail, rfl⟩ := List.forall₂_cons_left_iff.1 h
  exact ⟨l, ls', rfl, hl, htail⟩

lemma HasLexemes.exists_object (h : (object ms).HasLexemes ls) :
    ∃ l ls', ls = l :: ls' ∧ l.token = .openBrace ∧
      (memberSymbols ms).Forall₂ Symbol.Stands ls' := by
  rw [HasLexemes, symbols] at h
  obtain ⟨l, ls', hl, htail, rfl⟩ := List.forall₂_cons_left_iff.1 h
  exact ⟨l, ls', rfl, hl, htail⟩

/-- No value starts with what ends an array, or with what stands between its items. -/
lemma HasLexemes.exists_cons (h : f.HasLexemes ls) :
    ∃ l ls', ls = l :: ls' ∧ l.token ≠ .closeBracket ∧ l.token ≠ .comma := by
  cases f with
  | string body =>
    obtain ⟨l, rfl, read, hl, -⟩ := h.exists_string
    exact ⟨l, [], rfl, by simp [hl]⟩
  | atom text =>
    obtain ⟨l, rfl, read, hl, -⟩ := h.exists_atom
    exact ⟨l, [], rfl, by simp [hl]⟩
  | array items =>
    obtain ⟨l, ls', rfl, hl, -⟩ := h.exists_array
    exact ⟨l, ls', rfl, by simp [hl]⟩
  | object ms =>
    obtain ⟨l, ls', rfl, hl, -⟩ := h.exists_object
    exact ⟨l, ls', rfl, by simp [hl]⟩

/-- Lexemes with the same tokens stand for the same symbols. -/
lemma forall₂_stands_congr {ls' : List Lexeme} (h : xs.Forall₂ Symbol.Stands ls)
    (htokens : ls'.map Lexeme.token = ls.map Lexeme.token) : xs.Forall₂ Symbol.Stands ls' := by
  have hstands {x : Symbol} {l l' : Lexeme} (hl : l'.token = l.token) (h : x.Stands l) :
      x.Stands l' := by
    cases x <;> simpa only [Symbol.Stands, hl] using h
  induction h generalizing ls' with
  | nil =>
    obtain rfl := List.map_eq_nil_iff.1 htokens
    exact .nil
  | cons hx _ ih =>
    obtain ⟨l', ls', rfl, hl, htail⟩ := List.map_eq_cons_iff.1 htokens
    exact .cons (hstands hl hx) (ih htail)

/-- The lexemes of a member, and of what comes after it. -/
lemma exists_of_member {xs : List Symbol}
    (h : (.string key :: .colon :: (f.symbols ++ xs)).Forall₂ Symbol.Stands ls) :
    ∃ k c us vs, ls = k :: c :: (us ++ vs) ∧ (Symbol.string key).Stands k ∧ c.token = .colon ∧
      f.HasLexemes us ∧ xs.Forall₂ Symbol.Stands vs := by
  obtain ⟨k, ls, hk, hcolon, rfl⟩ := List.forall₂_cons_left_iff.1 h
  obtain ⟨c, ls, hc, hvalue, rfl⟩ := List.forall₂_cons_left_iff.1 hcolon
  obtain ⟨us, vs, rfl, hf, hxs⟩ := exists_of_forall₂_append hvalue
  exact ⟨k, c, us, vs, rfl, hk, hc, hf, hxs⟩

/-! ### Writing -/

/-- A form with a space, or none, in front of each symbol. -/
def spread (space : List Char) (f : Form) : List Char :=
  f.symbols.flatMap fun x => space ++ x.text

lemma written_spread (space : List Char) (hspace : ∀ c ∈ space, Lexeme.isSpace c = true)
    (f : Form) : f.Written (f.spread space) := by
  rw [Written, spread]
  induction f.symbols with
  | nil => exact .nil (List.forall_mem_nil _)
  | cons x xs ih =>
    rw [List.flatMap_cons, List.append_assoc]
    exact .cons hspace ih

end Form

end ByteStore.Json
