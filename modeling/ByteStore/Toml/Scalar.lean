import ByteStore.Decimal.Overflow
import ByteStore.Settings.Value
import ByteStore.Text.Digits
import ByteStore.Text.Parser

/-!
# TOML scalars

Strings, numbers, truth values and dates of a TOML document, in which every line ends with a single
line feed.
-/

namespace ByteStore.Toml

open Text (Parser)
open Settings (Value)

/-! ### Characters -/

/-- Whether a character may stand between the parts of a line. -/
def isBlank (c : Char) : Bool := c == ' ' || c == '\t'

/-- Whether a character may stand in a comment or in a string; no control but the tab may. -/
def isText (c : Char) : Bool := c == '\t' || (' ' ≤ c && c != '\x7f')

/-- The character that a letter stands for after a backslash. -/
def escaped? (c : Char) : Option Char :=
  if c = 'b' then some '\x08'
  else if c = 't' then some '\t'
  else if c = 'n' then some '\n'
  else if c = 'f' then some '\x0c'
  else if c = 'r' then some '\r'
  else if c = '"' ∨ c = '\\' then some c
  else none

/-! ### Strings -/

/-- The rest of a string between quotation marks; `out` holds what comes before it, reversed. -/
def quoted (out : List Char) : List Char → Option (List Char × List Char)
  | [] => none
  | '"' :: s => some (out.reverse, s)
  | '\\' :: 'u' :: a :: b :: c :: d :: s => do
    let x ← Text.character? [a, b, c, d]
    quoted (x :: out) s
  | '\\' :: 'U' :: a :: b :: c :: d :: e :: f :: g :: h :: s => do
    let x ← Text.character? [a, b, c, d, e, f, g, h]
    quoted (x :: out) s
  | '\\' :: c :: s => do
    let x ← escaped? c
    quoted (x :: out) s
  | c :: s => if isText c then quoted (c :: out) s else none

/-- The rest of a string between apostrophes. -/
def literal (s : List Char) : Option (List Char × List Char) :=
  match s.dropWhile fun c => isText c && c != '\'' with
  | '\'' :: rest => some (s.takeWhile fun c => isText c && c != '\'', rest)
  | _ => none

/-- What a string over several lines does with its white space. -/
inductive Mode
  /-- It belongs to the string. -/
  | keep
  /-- It has to lead to the end of a line that a backslash stands at the end of. -/
  | toLineEnd
  /-- It is left out, since such a line is before. -/
  | skip
  deriving DecidableEq

/-- The rest of a string between triple quotation marks, which may start with one or two marks. -/
def longQuoted (mode : Mode) (out : List Char) : List Char → Option (List Char × List Char)
  | [] => none
  | '"' :: '"' :: '"' :: s =>
    if mode = .toLineEnd then none
    else
      match s with
      | '"' :: '"' :: s => some (('"' :: '"' :: out).reverse, s)
      | '"' :: s => some (('"' :: out).reverse, s)
      | _ => some (out.reverse, s)
  | '\\' :: 'u' :: a :: b :: c :: d :: s => do
    guard (mode ≠ .toLineEnd)
    let x ← Text.character? [a, b, c, d]
    longQuoted .keep (x :: out) s
  | '\\' :: 'U' :: a :: b :: c :: d :: e :: f :: g :: h :: s => do
    guard (mode ≠ .toLineEnd)
    let x ← Text.character? [a, b, c, d, e, f, g, h]
    longQuoted .keep (x :: out) s
  | '\\' :: c :: s =>
    if mode = .toLineEnd then none
    else if c = '\n' then longQuoted .skip out s
    else if isBlank c then longQuoted .toLineEnd out s
    else do
      let x ← escaped? c
      longQuoted .keep (x :: out) s
  | c :: s =>
    match mode with
    | .keep => if isText c || c == '\n' then longQuoted .keep (c :: out) s else none
    | .toLineEnd =>
      if c = '\n' then longQuoted .skip out s
      else if isBlank c then longQuoted .toLineEnd out s
      else none
    | .skip =>
      if c = '\n' ∨ isBlank c then longQuoted .skip out s
      else if isText c then longQuoted .keep (c :: out) s
      else none

/-- The rest of a string between triple apostrophes. -/
def longLiteral (out : List Char) : List Char → Option (List Char × List Char)
  | [] => none
  | '\'' :: '\'' :: '\'' :: s =>
    match s with
    | '\'' :: '\'' :: s => some (('\'' :: '\'' :: out).reverse, s)
    | '\'' :: s => some (('\'' :: out).reverse, s)
    | _ => some (out.reverse, s)
  | c :: s => if isText c || c == '\n' then longLiteral (c :: out) s else none

/-- A text without the line feed it starts with. -/
def dropLineFeed : List Char → List Char
  | '\n' :: s => s
  | s => s

/-- A string on one line. -/
def shortString : Parser String := fun s =>
  match s with
  | '"' :: s => (quoted [] s).map fun r => (String.ofList r.1, r.2)
  | '\'' :: s => (literal s).map fun r => (String.ofList r.1, r.2)
  | _ => none

/-- A string. -/
def string : Parser String := fun s =>
  match s with
  | '"' :: '"' :: '"' :: s =>
    (longQuoted .keep [] (dropLineFeed s)).map fun r => (String.ofList r.1, r.2)
  | '\'' :: '\'' :: '\'' :: s =>
    (longLiteral [] (dropLineFeed s)).map fun r => (String.ofList r.1, r.2)
  | s => shortString s

/-! ### Numbers -/

/-- Digits of a kind, each of which may follow an underscore; answers what follows them, too. -/
def moreDigits (p : Char → Bool) : List Char → List Char × List Char
  | [] => ([], [])
  | '_' :: c :: s =>
    if p c then
      let (ds, rest) := moreDigits p s
      (c :: ds, rest)
    else ([], '_' :: c :: s)
  | c :: s =>
    if p c then
      let (ds, rest) := moreDigits p s
      (c :: ds, rest)
    else ([], c :: s)

/-- Digits of a kind, each of which but the first may follow an underscore. -/
def digits (p : Char → Bool) : Parser (List Char) := do
  let first ← Parser.satisfy p
  let more ← modifyGet (moreDigits p)
  return first :: more

/-- A sign; answers whether it is a minus. -/
def sign : Parser Bool :=
  (do Parser.char '-'; return true) <|> (do Parser.char '+'; return false) <|> pure false

/-- The whole part of a decimal number, which is zero or does not start with it. -/
def whole : Parser (List Char) :=
  (do Parser.char '0'; return ['0']) <|> digits Char.isDigit

/-- An exponent: whether it is negative, and its digits. -/
def exponent : Parser (Bool × List Char) := do
  let _ ← Parser.satisfy fun c => c == 'e' || c == 'E'
  return (← sign, ← digits Char.isDigit)

/-- A number with a fraction or an exponent. A positive one must not be too large for a double. -/
def real : Parser Value := do
  let negative ← sign
  let ds ← whole
  let fraction ← Parser.optional? do
    Parser.char '.'
    digits Char.isDigit
  let e ← match fraction with
    | some _ => Parser.optional? exponent
    | none => some <$> exponent
  let (down, e) := e.getD (false, [])
  guard (negative || !Decimal.textOverflows ds (fraction.getD []) down e)
  return .real

/-- An infinite number, or none. -/
def special : Parser Value := do
  let _ ← sign
  Parser.word "inf".toList <|> Parser.word "nan".toList
  return .real

/-- An integer that fits into 64 bits, as a value. -/
def fit (n : Int) : Option Value :=
  if Int64.minValue.toInt ≤ n ∧ n ≤ Int64.maxValue.toInt then some (.integer n) else none

/-- An integer with a mark for its base. -/
def based (mark : Char) (base : Nat) : Parser Value := do
  Parser.word ['0', mark]
  let n ← liftM (Text.number? base (← digits fun c => (Text.digitOf? base c).isSome))
  liftM (fit n)

/-- An integer in decimal digits. -/
def decimal : Parser Value := do
  let negative ← sign
  let n : Int := Decimal.ofDigits (← whole)
  liftM (fit (if negative then -n else n))

/-! ### Dates -/

/-- A number with so many digits, within bounds. -/
def field (digits low high : Nat) : Parser Nat := do
  let n := Decimal.ofDigits (← Parser.count digits Char.isDigit)
  guard (low ≤ n ∧ n ≤ high)
  return n

/-- The number of days of a month. -/
def daysOf (year month : Nat) : Nat :=
  if month = 2 then
    if year % 4 = 0 ∧ (year % 100 ≠ 0 ∨ year % 400 = 0) then 29 else 28
  else if month = 4 ∨ month = 6 ∨ month = 9 ∨ month = 11 then 30
  else 31

/-- A day of the calendar. -/
def date : Parser Unit := do
  let year ← field 4 0 9999
  Parser.char '-'
  let month ← field 2 1 12
  Parser.char '-'
  let _ ← field 2 1 (daysOf year month)

/-- A time of the day, which may be in a leap second. -/
def time : Parser Unit := do
  let _ ← field 2 0 23
  Parser.char ':'
  let _ ← field 2 0 59
  Parser.char ':'
  let _ ← field 2 0 60
  let _ ← Parser.optional? do
    Parser.char '.'
    Parser.takeWhile1 Char.isDigit

/-- How far a time is from that of the prime meridian. -/
def offset : Parser Unit := do
  let c ← Parser.satisfy fun c => c == 'Z' || c == 'z' || c == '+' || c == '-'
  if c = '+' ∨ c = '-' then
    let _ ← field 2 0 23
    Parser.char ':'
    let _ ← field 2 0 59

/-- A date, a time, or both. It is a table with a member of its own. -/
def moment : Parser Value := do
  let day : Parser Unit := do
    date
    let _ ← Parser.optional? do
      let _ ← Parser.satisfy fun c => c == 'T' || c == 't' || c == ' '
      time
      Parser.optional? offset
  day <|> time
  return .table [("moment", .null)]

/-! ### Scalars -/

/-- A truth value. -/
def flag : Parser Value :=
  (do Parser.word "true".toList; return .flag true)
    <|> (do Parser.word "false".toList; return .flag false)

/-- A value without parts. -/
def scalar : Parser Value :=
  (.text <$> string) <|> moment <|> real <|> special <|> based 'x' 16 <|> based 'o' 8
    <|> based 'b' 2 <|> decimal <|> flag

end ByteStore.Toml
