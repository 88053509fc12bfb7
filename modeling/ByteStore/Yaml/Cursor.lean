import ByteStore.Text.Parser

/-!
# Places in a YAML text

A YAML text is read from front to back. What a character means depends on the column it stands in,
so the line and the column go along with what is left of the text.
-/

namespace ByteStore.Yaml

/-! ### Characters -/

/-- Whether a character ends a line. Other ends of lines have been made line feeds. -/
def isBreak (c : Char) : Bool := c == '\n' || c == '\u2028' || c == '\u2029'

/-- Whether a character stands between the parts of a line. -/
def isBlank (c : Char) : Bool := c == ' ' || c == '\t'

/-- Whether a character may stand in a name. -/
def isNameChar (c : Char) : Bool := c.isAlphanum || c == '_' || c == '-'

/-- Whether a character may stand in a text: no control does, but for those that move on. -/
def isAllowed (c : Char) : Bool :=
  c == '\t' || c == '\n' || c == '\r' || c == '\u0085' || (' ' ≤ c && c ≤ '~')
    || ('\u00a0' ≤ c && c != '\ufeff' && c != '\ufffe' && c != '\uffff')

/-- Whether a text goes on with a blank or the end of a line, or is at its end. -/
def atGap : List Char → Bool
  | [] => true
  | c :: _ => isBlank c || isBreak c

/-- Whether a text goes on with the end of a line, or is at its end. -/
def atLineEnd : List Char → Bool
  | [] => true
  | c :: _ => isBreak c

/-- Whether a line starts with a mark between documents: three times a character, and a gap. -/
def atMark (mark : Char) : List Char → Bool
  | a :: b :: c :: s => a == mark && b == mark && c == mark && atGap s
  | _ => false

/-- Whether a line starts or ends a document. -/
def atDocument (s : List Char) : Bool := atMark '-' s || atMark '.' s

/-- A text in which a carriage return, alone or before a line feed, and U+0085 are line feeds. -/
def joinBreaks : List Char → List Char
  | [] => []
  | '\r' :: '\n' :: s => '\n' :: joinBreaks s
  | c :: s => (if c = '\r' ∨ c = '\u0085' then '\n' else c) :: joinBreaks s

/-! ### Cursors -/

/-- What is left of a text, and where that starts. -/
structure Cursor where
  rest : List Char
  line : Nat
  column : Nat

namespace Cursor

/-- The beginning of a text. -/
def start (text : List Char) : Cursor := ⟨text, 0, 0⟩

/-- The place after so many characters of the same line. -/
def advance (k : Cursor) (n : Nat) : Cursor :=
  { k with rest := k.rest.drop n, column := k.column + n }

/-- The place after what a parser takes from the same line. -/
def after {α : Type} (k : Cursor) (p : Text.Parser α) : Option (α × Cursor) := do
  let (a, rest) ← p k.rest
  return (a, { k with rest, column := k.column + (k.rest.length - rest.length) })

end Cursor

end ByteStore.Yaml
