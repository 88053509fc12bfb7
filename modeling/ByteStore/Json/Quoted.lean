import ByteStore.Json.Fault
import ByteStore.Text.Digits

/-!
# Quoted strings of a document

`Quoted.scan` splits what follows an opening quotation mark into pieces, up to the closing mark or
to a fault of the syntax; that is enough to skip a string. To read one, `Quoted.join` puts the
pieces together, where escapes for the two halves of a surrogate pair have to stand side by side.
`Quoted.encode` writes a string with as few escapes as there can be.
-/

namespace ByteStore.Json.Quoted

/-! ### Writing -/

/-- A hexadecimal digit. -/
def hexDigit (n : Nat) : Char := Nat.digitChar n

/-- One character of a quoted string. -/
def encodeChar (c : Char) : List Char :=
  if c = '"' then ['\\', '"']
  else if c = '\\' then ['\\', '\\']
  else if c = '\x08' then ['\\', 'b']
  else if c = '\x0c' then ['\\', 'f']
  else if c = '\n' then ['\\', 'n']
  else if c = '\r' then ['\\', 'r']
  else if c = '\t' then ['\\', 't']
  else if c < ' ' then ['\\', 'u', '0', '0', hexDigit (c.toNat / 16), hexDigit (c.toNat % 16)]
  else [c]

/-- The characters between the quotation marks. -/
def encode (s : List Char) : List Char := s.flatMap encodeChar

/-- A string between quotation marks. -/
def render (s : String) : List Char := '"' :: encode s.toList ++ ['"']

/-! ### Splitting -/

/-- A piece of a quoted string. -/
inductive Piece
  /-- A character that stands for itself. -/
  | plain (c : Char)
  /-- A character written as a backslash and a letter. -/
  | escaped (c : Char)
  /-- A number in four hexadecimal digits; `rest` is the text after them. -/
  | unit (value : Nat) (rest : List Char)
  deriving DecidableEq, Repr

/-- Where the pieces of a quoted string end. A place counts the bytes after what is wrong. -/
inductive Ending
  /-- At a closing quotation mark; `rest` is the text after it. -/
  | closed (rest : List Char)
  /-- At the end of the text. -/
  | unfinished
  /-- At a backslash whose letter means nothing. -/
  | badLetter (place : Nat)
  /-- At an escape whose digits are none. -/
  | badDigits (place : Nat)
  /-- At a control character. -/
  | control (place : Nat)
  deriving DecidableEq, Repr

/-- The character that a backslash and a letter stand for. -/
def letter? (c : Char) : Option Char :=
  if c = '"' ∨ c = '\\' ∨ c = '/' then some c
  else if c = 'b' then some '\x08'
  else if c = 'f' then some '\x0c'
  else if c = 'n' then some '\n'
  else if c = 'r' then some '\r'
  else if c = 't' then some '\t'
  else none

/-- The number that four hexadecimal digits write. -/
def unit? (a b c d : Char) : Option Nat := do
  let a ← Text.digit? a
  let b ← Text.digit? b
  let c ← Text.digit? c
  let d ← Text.digit? d
  return 4096 * a + 256 * b + 16 * c + d

/-- The ending at an escape without its four digits, of which four bytes are looked at. -/
def cutDigits (s : List Char) : Ending :=
  if byteCount s < 4 then .unfinished else .badDigits (byteCount s - 4)

/-- The pieces of what follows an opening quotation mark. -/
def scan : List Char → List Piece × Ending
  | [] => ([], .unfinished)
  | c :: s =>
    if c = '"' then ([], .closed s)
    else if c = '\\' then
      match s with
      | [] => ([], .unfinished)
      | e :: s' =>
        if e = 'u' then
          match s' with
          | h₁ :: h₂ :: h₃ :: h₄ :: t =>
            match unit? h₁ h₂ h₃ h₄ with
            | some u => (.unit u t :: (scan t).1, (scan t).2)
            | none => ([], cutDigits s')
          | _ => ([], cutDigits s')
        else
          match letter? e with
          | some x => (.escaped x :: (scan s').1, (scan s').2)
          | none => ([], .badLetter (byteCount s - 1))
    else if c < ' ' then ([], .control (byteCount s))
    else (.plain c :: (scan s).1, (scan s).2)

theorem length_scan (s : List Char) {rest : List Char} (h : (scan s).2 = .closed rest) :
    rest.length < s.length := by
  fun_induction scan s with
  | case1 => simp at h
  | case2 => simp_all
  | case3 => simp at h
  | case4 =>
    rename_i ih
    have := ih h
    simp only [List.length_cons]
    omega
  | case5 => simp only [cutDigits] at h; split at h <;> simp at h
  | case6 => simp only [cutDigits] at h; split at h <;> simp at h
  | case7 =>
    rename_i ih
    have := ih h
    simp only [List.length_cons]
    omega
  | case8 => simp at h
  | case9 => simp at h
  | case10 =>
    rename_i ih
    have := ih h
    simp only [List.length_cons]
    omega

/-! ### Skipping -/

/-- The text after a string that is skipped. -/
def Ending.skip : Ending → Except Fault (List Char)
  | .closed rest => .ok rest
  | .unfinished => .error ⟨.eofInString, 0⟩
  | .badLetter place => .error ⟨.invalidEscape, place⟩
  | .badDigits place => .error ⟨.invalidEscape, place⟩
  | .control place => .error ⟨.controlCharacter, place + 1⟩

/-! ### Reading -/

/-- The fault of a string that is read up to an ending. -/
def Ending.fault? : Ending → Option Fault
  | .closed _ => none
  | .unfinished => some ⟨.eofInString, 0⟩
  | .badLetter place => some ⟨.invalidEscape, place⟩
  | .badDigits place => some ⟨.invalidEscape, place⟩
  | .control place => some ⟨.controlCharacter, place⟩

/-- The fault of an ending right after the first half of a surrogate pair and before `rest`. -/
def Ending.afterHalf (rest : List Char) : Ending → Fault
  | .closed _ => ⟨.unfinishedSurrogate, byteCount rest - 1⟩
  | .unfinished => ⟨.eofInString, 0⟩
  | .badLetter _ => ⟨.unfinishedSurrogate, byteCount rest - 2⟩
  | .badDigits place => ⟨.invalidEscape, place⟩
  | .control _ => ⟨.unfinishedSurrogate, byteCount rest - 1⟩

/-- Whether a number is the first half of a surrogate pair. -/
def isFirstHalf (u : Nat) : Bool := decide (0xD800 ≤ u) && decide (u ≤ 0xDBFF)

/-- Whether a number is the second half of a surrogate pair. -/
def isSecondHalf (u : Nat) : Bool := decide (0xDC00 ≤ u) && decide (u ≤ 0xDFFF)

/-- The character of a surrogate pair. -/
def pair (u v : Nat) : Char := Char.ofNat (0x10000 + (u - 0xD800) * 1024 + (v - 0xDC00))

/-- The characters that pieces stand for. -/
def join : List Piece → Ending → Except Fault (List Char)
  | [], ending =>
    match ending.fault? with
    | none => .ok []
    | some f => .error f
  | .plain c :: ps, ending => (join ps ending).map (c :: ·)
  | .escaped c :: ps, ending => (join ps ending).map (c :: ·)
  | .unit u rest :: ps, ending =>
    if isSecondHalf u then .error ⟨.loneSurrogate, byteCount rest⟩
    else if isFirstHalf u then
      match ps with
      | .unit v rest' :: ps' =>
        if isSecondHalf v then (join ps' ending).map (pair u v :: ·)
        else .error ⟨.loneSurrogate, byteCount rest'⟩
      | .escaped _ :: _ => .error ⟨.unfinishedSurrogate, byteCount rest - 2⟩
      | .plain _ :: _ => .error ⟨.unfinishedSurrogate, byteCount rest - 1⟩
      | [] => .error (ending.afterHalf rest)
    else (join ps ending).map (Char.ofNat u :: ·)

end ByteStore.Json.Quoted
