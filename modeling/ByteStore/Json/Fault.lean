import ByteStore.Decimal.Layout
import ByteStore.Text.Quoted

/-!
# What can be wrong with a JSON document

A fault has a cause and a place. While a document is read a place is the number of bytes that come
after it, so that a part of a document has the same faults wherever it stands; `Position.ofPlace`
turns it into a line and a column of the whole document.
-/

namespace ByteStore.Json

/-- What stands where something else was expected. -/
inductive Found
  | null
  | bool (value : Bool)
  | integer (value : Int)
  /-- A number that is no integer, as the bits of a double. -/
  | real (bits : UInt64)
  | string (value : String)
  | sequence
  | map
  deriving DecidableEq, Repr

/-- Why a document cannot be read. -/
inductive Cause
  -- The document ends too early.
  | eofInArray
  | eofInObject
  | eofInString
  | eofForValue
  -- The document is no JSON.
  | expectedColon
  | expectedArrayCommaOrEnd
  | expectedObjectCommaOrEnd
  | expectedWord
  | expectedValue
  | keyNotString
  | trailingComma
  | trailingText
  | invalidEscape
  | invalidNumber
  | controlCharacter
  -- The document is JSON, but names no text or number.
  | loneSurrogate
  | unfinishedSurrogate
  | numberOutOfRange
  -- The document is nested too deeply.
  | tooDeep
  -- The document is not of the expected shape.
  | wrongType (found : Found) (expected : String)
  | wrongLength (length : Nat) (expected : String)
  | unknownVariant (name : String) (expected : List String)
  | missingField (name : String)
  | repeatedField (name : String)
  deriving DecidableEq, Repr

/-! ### Wording -/

/--
Doubles have the fewest digits that read back, a point from 0.00001 up to 16 digits, and an exponent
with its sign beyond.
-/
def realLayout : Decimal.Layout where
  leastPlain := -5
  greatestPlain := 15
  wholeEnding := ".0"
  exponentMark := "e+"
  negativeExponentMark := "e-"

def Found.message : Found → String
  | .null => "null"
  | .bool b => s!"boolean `{b}`"
  | .integer n => s!"integer `{n}`"
  | .real bits => s!"floating point `{realLayout.double bits}`"
  | .string s => s!"string {Text.quote s}"
  | .sequence => "sequence"
  | .map => "map"

def Cause.message : Cause → String
  | .eofInArray => "EOF while parsing a list"
  | .eofInObject => "EOF while parsing an object"
  | .eofInString => "EOF while parsing a string"
  | .eofForValue => "EOF while parsing a value"
  | .expectedColon => "expected `:`"
  | .expectedArrayCommaOrEnd => "expected `,` or `]`"
  | .expectedObjectCommaOrEnd => "expected `,` or `\x7d`"
  | .expectedWord => "expected ident"
  | .expectedValue => "expected value"
  | .keyNotString => "key must be a string"
  | .trailingComma => "trailing comma"
  | .trailingText => "trailing characters"
  | .invalidEscape => "invalid escape"
  | .invalidNumber => "invalid number"
  | .controlCharacter => "control character (\\u0000-\\u001F) found while parsing a string"
  | .loneSurrogate => "lone leading surrogate in hex escape"
  | .unfinishedSurrogate => "unexpected end of hex escape"
  | .numberOutOfRange => "number out of range"
  | .tooDeep => "recursion limit exceeded"
  | .wrongType f e => s!"invalid type: {f.message}, expected {e}"
  | .wrongLength n e => s!"invalid length {n}, expected {e}"
  | .unknownVariant n es =>
    s!"unknown variant `{n}`, expected one of " ++ ", ".intercalate (es.map fun e => s!"`{e}`")
  | .missingField n => s!"missing field `{n}`"
  | .repeatedField n => s!"duplicate field `{n}`"

/-! ### Places -/

/-- The number of bytes of a text. -/
def byteCount : List Char → Nat
  | [] => 0
  | c :: s => c.utf8Size + byteCount s

/-- A cause, and the number of bytes of the document that come after it. -/
structure Fault where
  cause : Cause
  place : Nat
  deriving DecidableEq, Repr

/-- A line, counted from 1, and a number of bytes of that line. -/
structure Position where
  line : Nat
  column : Nat
  deriving DecidableEq, Repr

namespace Position

/-- The position `n` bytes after a position at the start of `s`. -/
def advance : Position → Nat → List Char → Position
  | p, _, [] => p
  | p, n, c :: s =>
    if n < c.utf8Size then { p with column := p.column + n }
    else if c = '\n' then advance ⟨p.line + 1, 0⟩ (n - c.utf8Size) s
    else advance { p with column := p.column + c.utf8Size } (n - c.utf8Size) s

/-- The position in `document` after which `place` bytes come. -/
def ofPlace (document : List Char) (place : Nat) : Position :=
  advance ⟨1, 0⟩ (byteCount document - place) document

end Position

/--
What is said of a document that cannot be read: a cause, and where it shows if it can be seen.
-/
structure Complaint where
  cause : Cause
  position : Option Position
  deriving DecidableEq, Repr

def Complaint.message (c : Complaint) : String :=
  match c.position with
  | none => c.cause.message
  | some p => s!"{c.cause.message} at line {p.line} column {p.column}"

/-- A fault of a document, with its position. -/
def Fault.inDocument (f : Fault) (document : List Char) : Complaint :=
  ⟨f.cause, some (.ofPlace document f.place)⟩

end ByteStore.Json
