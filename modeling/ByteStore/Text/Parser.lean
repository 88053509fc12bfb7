/-!
# Parsers

A parser takes a value off the front of a text, or fails. `p <|> q` tries `q` where `p` fails, on
the text as it was before.
-/

namespace ByteStore.Text

/-- Takes a value off the front of a text. -/
abbrev Parser := StateT (List Char) Option

namespace Parser

variable {α : Type}

/-- The next character, which stays where it is. -/
def peek? : Parser (Option Char) := do return (← get).head?

/-- Takes the next character, which has to be of a kind. -/
def satisfy (p : Char → Bool) : Parser Char := fun s =>
  match s with
  | c :: s => if p c then some (c, s) else none
  | [] => none

/-- Takes a character. -/
def char (c : Char) : Parser Unit := do let _ ← satisfy (· == c)

/-- Takes a word, letter by letter. -/
def word (letters : List Char) : Parser Unit := fun s =>
  if letters.isPrefixOf s then some ((), s.drop letters.length) else none

/-- Takes all characters of a kind, up to the first other one. -/
def takeWhile (p : Char → Bool) : Parser (List Char) := fun s =>
  some (s.takeWhile p, s.dropWhile p)

/-- Takes characters of a kind, at least one. -/
def takeWhile1 (p : Char → Bool) : Parser (List Char) := do
  let cs ← takeWhile p
  if cs.isEmpty then failure else return cs

/-- Takes as many characters of a kind as are asked for. -/
def count (n : Nat) (p : Char → Bool) : Parser (List Char) := fun s =>
  let cs := s.take n
  if cs.length = n ∧ cs.all p then some (cs, s.drop n) else none

/-- Whether the text is at its end. -/
def atEnd : Parser Bool := do return (← get).isEmpty

/-- Tries to take a value. -/
def optional? (p : Parser α) : Parser (Option α) := (some <$> p) <|> pure none

/-- Takes values as long as there are any, at most as many as a number says. -/
def atMost (p : Parser α) : Nat → Parser (List α)
  | 0 => return []
  | n + 1 => do
    match ← optional? p with
    | none => return []
    | some a => return a :: (← atMost p n)

/-- Takes values as long as there are any. A value takes at least one character. -/
def many (p : Parser α) : Parser (List α) := do p.atMost (← get).length

/-- Takes a value, and more after each separator. -/
def separated (p : Parser α) (separator : Parser Unit) : Parser (List α) := do
  let first ← p
  return first :: (← many do separator; p)

/-- Parses a whole text. -/
def parseAll? (p : Parser α) (text : List Char) : Option α :=
  match p text with
  | some (a, []) => some a
  | _ => none

end Parser

end ByteStore.Text
