import ByteStore.Json.Number
import ByteStore.Json.Quoted

/-!
# Lexemes

`lexemes` splits a document into its smallest parts. A part that carries text or a number says both
what reading it answers and what skipping it answers, since a skipped part is held to the syntax
only. The row of lexemes ends at the first part that nobody can get past.
-/

namespace ByteStore.Json

/-- A value without parts and without text. -/
inductive Atom
  | null
  | bool (value : Bool)
  | number (value : Number)
  deriving DecidableEq, Repr

/-- An atom as what it is found to be. -/
def Atom.found : Atom → Found
  | .null => .null
  | .bool b => .bool b
  | .number n => n.found

/-- What a lexeme is. -/
inductive Token
  | openBrace
  | closeBrace
  | openBracket
  | closeBracket
  | colon
  | comma
  | string (read : Except Fault String) (skip : Except Fault Unit)
  | atom (read : Except Fault Atom) (skip : Except Fault Unit)
  /-- A character that starts nothing. -/
  | stray

/-- Whether the text can be gone through beyond a token. -/
def Token.isPassable : Token → Bool
  | .string _ (.error _) => false
  | .atom _ (.error _) => false
  | .stray => false
  | _ => true

/-- A smallest part of a document. -/
structure Lexeme where
  token : Token
  /-- The document from the lexeme's first character on. -/
  text : List Char
  /-- The document after the lexeme, if it has an end. -/
  rest : List Char

namespace Lexeme

/-- The place before the lexeme. -/
def start (l : Lexeme) : Nat := byteCount l.text

/-- The place after the lexeme's first byte, where the reader notices it. -/
def noticed (l : Lexeme) : Nat := byteCount l.text - 1

/-- The place after the lexeme. -/
def stop (l : Lexeme) : Nat := byteCount l.rest

/-! ### Reading a lexeme -/

/-- Whether a character may stand between lexemes. -/
def isSpace (c : Char) : Bool := c == ' ' || c == '\n' || c == '\t' || c == '\r'

/-- The text after the letters of a word. -/
def scanWord : List Char → List Char → Except Fault (List Char)
  | [], s => .ok s
  | _ :: _, [] => .error ⟨.eofForValue, 0⟩
  | l :: ls, c :: s =>
    if c = l then scanWord ls s else .error ⟨.expectedWord, byteCount (c :: s) - 1⟩

/-- A word that starts with `c`. -/
def word (c : Char) (letters : List Char) (value : Atom) (s : List Char) : Lexeme :=
  match scanWord letters s with
  | .ok rest => ⟨.atom (.ok value) (.ok ()), c :: s, rest⟩
  | .error f => ⟨.atom (.error f) (.error f), c :: s, []⟩

/-- A string after its opening quotation mark. -/
def string (s : List Char) : Lexeme :=
  let (pieces, ending) := Quoted.scan s
  let read := (Quoted.join pieces ending).map String.ofList
  match ending.skip with
  | .ok rest => ⟨.string read (.ok ()), '"' :: s, rest⟩
  | .error f => ⟨.string read (.error f), '"' :: s, []⟩

/-- A number. -/
def number (s : List Char) : Lexeme :=
  match Numeral.scan s with
  | .ok (n, rest) => ⟨.atom ((n.value rest).map .number) (.ok ()), s, rest⟩
  | .error m => ⟨.atom (.error (m.fault .eofForValue)) (.error (m.fault .invalidNumber)), s, []⟩

/-- The tokens that are single characters. -/
def mark? (c : Char) : Option Token :=
  if c = '\x7b' then some .openBrace
  else if c = '\x7d' then some .closeBrace
  else if c = '[' then some .openBracket
  else if c = ']' then some .closeBracket
  else if c = ':' then some .colon
  else if c = ',' then some .comma
  else none

/-- The word that starts with a character: its other letters, and what it stands for. -/
def word? (c : Char) : Option (List Char × Atom) :=
  if c = 'n' then some (['u', 'l', 'l'], .null)
  else if c = 't' then some (['r', 'u', 'e'], .bool true)
  else if c = 'f' then some (['a', 'l', 's', 'e'], .bool false)
  else none

/-- The lexeme that starts with the character `c`, before `s`. -/
def first (c : Char) (s : List Char) : Lexeme :=
  match mark? c, word? c with
  | some t, _ => ⟨t, c :: s, s⟩
  | none, some (letters, value) => word c letters value s
  | none, none =>
    if c = '"' then string s
    else if c = '-' ∨ c.isDigit then number (c :: s)
    else ⟨.stray, c :: s, s⟩

theorem length_scanWord {ls s rest : List Char} (h : scanWord ls s = .ok rest) :
    rest.length ≤ s.length := by
  induction ls generalizing s with
  | nil => simp_all [scanWord]
  | cons l ls ih =>
    cases s with
    | nil => simp [scanWord] at h
    | cons c s =>
      unfold scanWord at h
      split at h
      · exact Nat.le_succ_of_le (ih h)
      · simp at h

theorem length_word (c : Char) (ls : List Char) (a : Atom) (s : List Char) :
    (word c ls a s).rest.length ≤ s.length := by
  unfold word
  split
  · exact length_scanWord ‹_›
  · simp

theorem length_string (s : List Char) : (string s).rest.length ≤ s.length := by
  have hs : ∀ rest, (Quoted.scan s).2 = .closed rest → rest.length < s.length :=
    fun _ => Quoted.length_scan s
  unfold string
  revert hs
  generalize Quoted.scan s = scanned
  obtain ⟨pieces, ending⟩ := scanned
  intro hs
  cases ending with
  | closed rest => exact Nat.le_of_lt (hs rest rfl)
  | _ => simp [Quoted.Ending.skip]

theorem length_number (c : Char) (s : List Char) : (number (c :: s)).rest.length ≤ s.length := by
  unfold number
  split
  · exact Nat.le_of_lt_succ (Numeral.length_scan ‹_›)
  · simp

theorem length_first (c : Char) (s : List Char) : (first c s).rest.length ≤ s.length := by
  unfold first
  split
  · exact Nat.le_refl _
  · exact length_word ..
  · split
    · exact length_string s
    · split
      · exact length_number c s
      · exact Nat.le_refl _

end Lexeme

/-! ### The row of lexemes -/

/-- The lexemes of a document, up to the first one that nobody can get past. -/
def lexemes : List Char → List Lexeme
  | [] => []
  | c :: s =>
    if Lexeme.isSpace c then lexemes s
    else
      let l := Lexeme.first c s
      if l.token.isPassable then l :: lexemes l.rest else [l]
termination_by s => s.length
decreasing_by
  · exact Nat.lt_succ_self _
  · exact Nat.lt_succ_of_le (Lexeme.length_first c s)

end ByteStore.Json
