import ByteStore.Decimal.Overflow
import ByteStore.Text.Parser

/-!
# Durations

A duration is written as spans, each a number with a unit of time: `1m30s`, `1m + 30s`, `2 * 10ms`.
A span without a unit counts seconds. Spans are added up, or all multiplied with each other as
seconds; a text must not do both. A duration has to fit into 64 bits as nanoseconds, and so has each
of its spans.
-/

namespace ByteStore.Settings.Duration

open Text (Parser)

/-- The nanoseconds of a second. -/
def second : Nat := 1000000000

/-- The nanoseconds of a day. -/
def day : Nat := 86400 * second

/-- The units of time: their names, in small letters, and their nanoseconds. -/
def units : List (List String × Nat) :=
  [(["y", "year"], 365 * day), (["mon", "month"], 30 * day), (["w", "week"], 7 * day),
    (["d", "day"], day), (["h", "hr", "hour"], 3600 * second),
    (["m", "min", "minute"], 60 * second), (["s", "sec", "second"], second),
    (["ms", "msec", "millisecond"], 1000000),
    (["µs", "µsec", "µsecond", "us", "usec", "usecond", "microsecond"], 1000),
    (["ns", "nsec", "nanosecond"], 1)]

/-- The nanoseconds of the unit that a name stands for, in letters of either case. -/
def unit? (name : List Char) : Option Nat :=
  let name := String.ofList (name.map Char.toLower)
  (units.find? fun u => u.1.contains name).map (·.2)

/-- How spans are put together. -/
inductive Operator
  | plus
  | times
  deriving DecidableEq, Repr

/-- Whether a character may stand between the parts of a duration. -/
def isSpace (c : Char) : Bool := c == ' ' || c == '\t' || c == '\n' || c == '\r'

/-- Whether a character may stand in the name of a unit. -/
def isUnitChar (c : Char) : Bool := c.isAlpha || c == 'µ'

def spaces : Parser Unit := do let _ ← Parser.takeWhile isSpace

/-- A number of nanoseconds, if it fits. -/
def fit (nanoseconds : Nat) : Option Nat :=
  if nanoseconds < UInt64.size then some nanoseconds else none

/-- A number with a unit; answers the nanoseconds, and whether the unit is written. -/
def span : Parser (Nat × Bool) := do
  spaces
  let digits ← Parser.takeWhile1 Char.isDigit
  let name ← (do spaces; Parser.takeWhile1 isUnitChar) <|> pure []
  let unit ← if name.isEmpty then pure second else liftM (unit? name)
  let n ← liftM (fit (Decimal.ofDigits digits))
  return (← liftM (fit (n * unit)), !name.isEmpty)

/-- An operator. -/
def operator : Parser Operator := do
  spaces
  (do Parser.char '+'; return .plus) <|> (do Parser.char '*'; return .times)

/-- The rest of a duration. Where no operator stands, the span before must have a unit. -/
def spans (afterUnit : Bool) : Nat → Parser (List (Operator × Nat))
  | 0 => return []
  | n + 1 => do
    match ← Parser.optional? operator with
    | some op =>
      let (x, hasUnit) ← span
      return (op, x) :: (← spans hasUnit n)
    | none =>
      match ← if afterUnit then Parser.optional? span else pure none with
      | some (x, hasUnit) => return (.plus, x) :: (← spans hasUnit n)
      | none => return []

/-- Puts spans together. -/
def combine : Operator → Nat → Nat → Option Nat
  | .plus, x, y => fit (x + y)
  | .times, x, y => fit (x * y / second)

/-- The nanoseconds of a first span and the others, which all have the same operator. -/
def total (first : Nat) : List (Operator × Nat) → Option Nat
  | [] => some first
  | (op, x) :: rest => do
    guard (rest.all (·.1 = op))
    combine op first (← rest.foldlM (fun y s => combine op y s.2) x)

/-- The nanoseconds of a duration. -/
def parser : Parser Nat := do
  let (first, hasUnit) ← span
  let rest ← spans hasUnit (← get).length
  spaces
  liftM (total first rest)

/-- The nanoseconds of the duration that a text names. -/
def parse? (text : List Char) : Option Nat := parser.parseAll? text

end ByteStore.Settings.Duration
