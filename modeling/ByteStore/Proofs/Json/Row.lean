import ByteStore.Proofs.Json.Form
import ByteStore.Proofs.Json.Grammar

/-!
# Rows of lexemes

The lexemes of any text stand for symbols, up to one that nobody can get past (`exists_row`), and
there is no such lexeme only if the text is these symbols and spaces. The symbols of a row that are
gone over are known from their tokens, and put together to arrays, objects and values
(`Form.IsValue`).
-/

namespace ByteStore.Json

/-! ### Rows of texts -/

/-- Rows of lexemes that stand for symbols, up to a tail that nobody can get past. -/
inductive Row (tail : List Lexeme) : List Symbol → List Lexeme → Prop
  | nil (h : ∀ l ∈ tail, l.IsStuck) : Row tail [] tail
  | cons {x : Symbol} {xs : List Symbol} {l : Lexeme} {ls : List Lexeme} (hx : x.Valid)
      (hl : x.Stands l) (h : Row tail xs ls) : Row tail (x :: xs) (l :: ls)

lemma Spaced.cons_space {xs : List Symbol} {text : List Char} {c : Char} (h : Spaced xs text)
    (hc : Lexeme.isSpace c = true) : Spaced xs (c :: text) := by
  cases h with
  | nil hspace => exact .nil (List.forall_mem_cons.2 ⟨hc, hspace⟩)
  | cons hspace h => exact .cons (List.forall_mem_cons.2 ⟨hc, hspace⟩) h

/--
The lexemes of a text stand for symbols, up to one that cannot be passed. If there is none, the text
is these symbols with spaces.
-/
theorem exists_row (text : List Char) :
    ∃ tail xs, Row tail xs (lexemes text) ∧ (tail = [] → Spaced xs text) := by
  fun_induction lexemes text with
  | case1 =>
    exact ⟨[], [], .nil (List.forall_mem_nil _), fun _ => .nil (List.forall_mem_nil _)⟩
  | case2 c s hc ih =>
    obtain ⟨tail, xs, hrow, hspaced⟩ := ih
    exact ⟨tail, xs, hrow, fun hnil => (hspaced hnil).cons_space hc⟩
  | case3 c s hc l hl ih =>
    obtain ⟨tail, xs, hrow, hspaced⟩ := ih
    obtain ⟨x, hx, hstands, htext⟩ | hstuck := first_cases c s
    · refine ⟨tail, x :: xs, .cons hx hstands hrow, fun hnil => ?_⟩
      rw [htext]
      exact .cons (List.forall_mem_nil _) (hspaced hnil)
    · rw [hstuck.not_isPassable] at hl
      cases hl
  | case4 c s hc l hl =>
    obtain ⟨x, hx, hstands, htext⟩ | hstuck := first_cases c s
    · exact absurd hstands.isPassable hl
    · refine ⟨[l], [], .nil (List.forall_mem_singleton.2 hstuck), fun hnil => ?_⟩
      cases hnil

/-! ### Taking rows apart -/

variable {tail : List Lexeme} {xs : List Symbol} {l : Lexeme} {ls : List Lexeme}

/-- A mark is told by its token. -/
lemma Symbol.Stands.eq_of_isMark {x y : Symbol} (hy : y.IsMark) (hx : x.Stands l)
    (hl : y.Stands l) : x = y := by
  cases y with
  | string | atom => exact hy.elim
  | _ =>
    have hl : l.token = _ := hl
    cases x <;> simp_all [Symbol.Stands]

namespace Row

lemma exists_cons (h : Row tail xs (l :: ls)) (hl : ¬ l.IsStuck) :
    ∃ x xs', xs = x :: xs' ∧ x.Valid ∧ x.Stands l ∧ Row tail xs' ls := by
  cases h with
  | nil hstuck => exact absurd (hstuck l List.mem_cons_self) hl
  | cons hx hstands h => exact ⟨_, _, rfl, hx, hstands, h⟩

lemma exists_of_mark {y : Symbol} (h : Row tail xs (l :: ls)) (hl : y.Stands l)
    (hy : y.IsMark) : ∃ xs', xs = y :: xs' ∧ Row tail xs' ls := by
  have hstuck : ¬ l.IsStuck := fun hstuck => by
    have hpass := hl.isPassable
    rw [hstuck.not_isPassable] at hpass
    cases hpass
  obtain ⟨x, xs', rfl, -, hx, hrest⟩ := h.exists_cons hstuck
  rw [hx.eq_of_isMark hy hl]
  exact ⟨xs', rfl, hrest⟩

lemma exists_of_string {read : Except Fault String} {skip : Except Fault Unit}
    (h : Row tail xs (l :: ls)) (hl : l.token = .string read skip)
    (hread : (∃ s, read = .ok s) ∨ skip = .ok ()) :
    ∃ body xs', xs = .string body :: xs' ∧ Quoted.Body body ∧ Row tail xs' ls := by
  have hstuck : ¬ l.IsStuck := by
    rintro (hl' | ⟨e, e', hl'⟩ | ⟨e, e', hl'⟩)
    all_goals
      rw [hl] at hl'
      cases hl'
    obtain ⟨s, hs⟩ | hs := hread <;> cases hs
  obtain ⟨x, xs', rfl, hvalid, hx, hrest⟩ := h.exists_cons hstuck
  cases x with
  | string body => exact ⟨body, xs', rfl, hvalid, hrest⟩
  | _ => simp [Symbol.Stands, hl] at hx

lemma exists_of_atom {read : Except Fault Atom} {skip : Except Fault Unit}
    (h : Row tail xs (l :: ls)) (hl : l.token = .atom read skip)
    (hread : (∃ a, read = .ok a) ∨ skip = .ok ()) :
    ∃ text xs', xs = .atom text :: xs' ∧ IsAtom text ∧ Row tail xs' ls := by
  have hstuck : ¬ l.IsStuck := by
    rintro (hl' | ⟨e, e', hl'⟩ | ⟨e, e', hl'⟩)
    all_goals
      rw [hl] at hl'
      cases hl'
    obtain ⟨s, hs⟩ | hs := hread <;> cases hs
  obtain ⟨x, xs', rfl, hvalid, hx, hrest⟩ := h.exists_cons hstuck
  cases x with
  | atom text => exact ⟨text, xs', rfl, hvalid, hrest⟩
  | _ => simp [Symbol.Stands, hl] at hx

end Row

/-! ### Symbols of values -/

namespace Form

/-- The symbols of a value. -/
def IsValue (ys : List Symbol) : Prop := ∃ f : Form, f.Valid ∧ f.symbols = ys

/-- The symbols of an array from its first item on. -/
def IsItems (ys : List Symbol) : Prop :=
  ∃ items : List Form, (array items).Valid ∧ itemSymbols items = ys

/-- The symbols of an array from the comma after an item on. -/
def IsMoreItems (ys : List Symbol) : Prop :=
  ∃ items : List Form, (array items).Valid ∧ moreItemSymbols items = ys

/-- The symbols of an object from its first key on. -/
def IsMembers (ys : List Symbol) : Prop :=
  ∃ ms : List (List Char × Form), (object ms).Valid ∧ memberSymbols ms = ys

/-- The symbols of an object from the comma after a member on. -/
def IsMoreMembers (ys : List Symbol) : Prop :=
  ∃ ms : List (List Char × Form), (object ms).Valid ∧ moreMemberSymbols ms = ys

/-- A row in two parts. -/
def Joined (p q : List Symbol → Prop) (xs : List Symbol) : Prop :=
  ∃ ys zs, p ys ∧ q zs ∧ xs = ys ++ zs

/-- The symbols of an object from the colon after a key on. -/
def IsAfterKey (ys : List Symbol) : Prop :=
  ∃ zs, ys = .colon :: zs ∧ Joined IsValue IsMoreMembers zs

variable {p p' q q' : List Symbol → Prop} {xs ys zs : List Symbol} {body key text : List Char}

lemma Joined.imp (h : Joined p q xs) (hp : ∀ ys, p ys → p' ys) : Joined p' q xs := by
  obtain ⟨ys, zs, hys, hzs, rfl⟩ := h
  exact ⟨ys, zs, hp ys hys, hzs, rfl⟩

lemma Joined.imp_right (h : Joined p q xs) (hq : ∀ zs, q zs → q' zs) : Joined p q' xs := by
  obtain ⟨ys, zs, hys, hzs, rfl⟩ := h
  exact ⟨ys, zs, hys, hq zs hzs, rfl⟩

lemma Joined.assoc {s : List Symbol → Prop} (h : Joined p (Joined q s) xs) :
    Joined (Joined p q) s xs := by
  obtain ⟨ys, -, hys, ⟨zs, ws, hzs, hws, rfl⟩, rfl⟩ := h
  exact ⟨ys ++ zs, ws, ⟨ys, zs, hys, hzs, rfl⟩, hws, (List.append_assoc _ _ _).symm⟩

lemma Joined.cons {x : Symbol} (h : Joined p q xs) (hp : ∀ ys, p ys → p' (x :: ys)) :
    Joined p' q (x :: xs) := by
  obtain ⟨ys, zs, hys, hzs, rfl⟩ := h
  exact ⟨x :: ys, zs, hp ys hys, hzs, rfl⟩

lemma isValue_string (h : Quoted.Body body) : IsValue [.string body] :=
  ⟨.string body, .string h, by rw [symbols]⟩

lemma isValue_atom (h : IsAtom text) : IsValue [.atom text] :=
  ⟨.atom text, .atom h, by rw [symbols]⟩

lemma IsItems.isValue (h : IsItems ys) : IsValue (.openBracket :: ys) := by
  obtain ⟨items, hitems, rfl⟩ := h
  exact ⟨.array items, hitems, by rw [symbols]⟩

lemma IsMembers.isValue (h : IsMembers ys) : IsValue (.openBrace :: ys) := by
  obtain ⟨ms, hms, rfl⟩ := h
  exact ⟨.object ms, hms, by rw [symbols]⟩

lemma isItems_nil : IsItems [.closeBracket] := ⟨[], valid_array_nil, rfl⟩

lemma isItems_of_joined (h : Joined IsValue IsMoreItems ys) : IsItems ys := by
  obtain ⟨-, -, ⟨f, hf, rfl⟩, ⟨fs, hfs, rfl⟩, rfl⟩ := h
  exact ⟨f :: fs, (valid_array_middle []).2 ⟨hfs, hf⟩, rfl⟩

lemma isMoreItems_nil : IsMoreItems [.closeBracket] := ⟨[], valid_array_nil, rfl⟩

lemma isMoreItems_of_joined (h : Joined IsValue IsMoreItems ys) : IsMoreItems (.comma :: ys) := by
  obtain ⟨-, -, ⟨f, hf, rfl⟩, ⟨fs, hfs, rfl⟩, rfl⟩ := h
  exact ⟨f :: fs, (valid_array_middle []).2 ⟨hfs, hf⟩, rfl⟩

lemma isMembers_nil : IsMembers [.closeBrace] := ⟨[], valid_object_nil, rfl⟩

lemma isMembers_cons (hkey : Quoted.Body key) (h : IsAfterKey ys) :
    IsMembers (.string key :: ys) := by
  obtain ⟨-, rfl, -, -, ⟨f, hf, rfl⟩, ⟨ms, hms, rfl⟩, rfl⟩ := h
  exact ⟨(key, f) :: ms, (valid_object_middle []).2 ⟨hms, hkey, hf⟩, rfl⟩

lemma isMoreMembers_nil : IsMoreMembers [.closeBrace] := ⟨[], valid_object_nil, rfl⟩

lemma isMoreMembers_cons (hkey : Quoted.Body key) (h : IsAfterKey ys) :
    IsMoreMembers (.comma :: .string key :: ys) := by
  obtain ⟨-, rfl, -, -, ⟨f, hf, rfl⟩, ⟨ms, hms, rfl⟩, rfl⟩ := h
  exact ⟨(key, f) :: ms, (valid_object_middle []).2 ⟨hms, hkey, hf⟩, rfl⟩

end Form

end ByteStore.Json
