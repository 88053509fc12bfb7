import ByteStore.Decimal.Overflow
import ByteStore.Settings.Value
import ByteStore.Text.Digits

/-!
# What YAML scalars stand for

A scalar without a tag that is not plain is a text. A plain one is null, a truth value or a number
if it is written like one. A tag may ask for one of these, and then nothing else will do; the tag of
an application asks for what settings cannot be.
-/

namespace ByteStore.Yaml

open Settings (Value)

/-! ### Null and truth values -/

/-- Whether a text names null. -/
def isNull (text : String) : Bool := ["null", "Null", "NULL", "~"].contains text

/-- The truth value that a text names. -/
def flag? (text : String) : Option Bool :=
  if ["true", "True", "TRUE"].contains text then some true
  else if ["false", "False", "FALSE"].contains text then some false
  else none

/-! ### Integers -/

/--
A number that is written in decimal digits without zeros in front, or with a mark for its base.
-/
def natural? : List Char → Option Nat
  | '0' :: 'x' :: s => Text.number? 16 s
  | '0' :: 'o' :: s => Text.number? 8 s
  | '0' :: 'b' :: s => Text.number? 2 s
  | '0' :: _ :: _ => none
  | s => Text.number? 10 s

/-- An integer, which has to fit into 128 bits, with a sign if it is negative. -/
def integer? (text : List Char) : Option Int := do
  match text with
  | '-' :: s =>
    let n ← natural? s
    if n ≤ Nat.pow 2 127 then some (-(n : Int)) else none
  | '+' :: s | s =>
    let n ← natural? s
    if n < Nat.pow 2 128 then some (n : Int) else none

/-! ### Real numbers -/

/-- Whether a text without a sign is a number that a double can be next to. -/
def isDecimal (s : List Char) : Bool :=
  let whole := s.takeWhile Char.isDigit
  let rest := s.dropWhile Char.isDigit
  let (fraction, rest) :=
    match rest with
    | '.' :: s => (s.takeWhile Char.isDigit, s.dropWhile Char.isDigit)
    | s => ([], s)
  let exponent? : Option (Bool × List Char) :=
    match rest with
    | [] => some (false, ['0'])
    | e :: s =>
      if e = 'e' ∨ e = 'E' then
        match s with
        | '-' :: s => some (true, s)
        | '+' :: s | s => some (false, s)
      else none
  match exponent? with
  | some (down, digits) =>
    !(whole.isEmpty && fraction.isEmpty) && !digits.isEmpty && digits.all Char.isDigit
      && !Decimal.textOverflows whole fraction down digits
  | none => false

/-- Whether a text without a sign names the infinite number. -/
def isInfinite (s : List Char) : Bool := [".inf", ".Inf", ".INF"].contains (String.ofList s)

/-- Whether a text is a number, or says that it is none. -/
def isReal (text : List Char) : Bool :=
  match text with
  | '-' :: s | '+' :: s | s =>
    isInfinite s || isDecimal s || [".nan", ".NaN", ".NAN"].contains (String.ofList text)

/-- Whether a text has only digits after its sign, with a zero in front that is not the only one. -/
def isPadded (text : List Char) : Bool :=
  match text with
  | '-' :: s | '+' :: s | s => s.head? == some '0' && decide (1 < s.length) && s.all Char.isDigit

/-! ### Scalars -/

/-- The value of a plain scalar without a tag. -/
def plainValue (text : String) : Value :=
  if text.isEmpty || isNull text then .null
  else
    match flag? text, integer? text.toList with
    | some b, _ => .flag b
    | none, some n => .integer n
    | none, none => if isReal text.toList && !isPadded text.toList then .real else .text text

/-- Whether a tag is one of an application. -/
def isLocalTag (tag : Option String) : Bool := tag.any fun t => t.toList.head? == some '!'

/-- The tag of a kind of value that everyone knows. -/
def coreTag (kind : String) : Option String := some ("tag:yaml.org,2002:" ++ kind)

/-- The value of a scalar. -/
def scalarValue (tag : Option String) (text : String) (isPlain : Bool) : Option Value :=
  if isLocalTag tag then none
  else if tag = coreTag "bool" then (flag? text).map .flag
  else if tag = coreTag "int" then (integer? text.toList).map .integer
  else if tag = coreTag "float" then if isReal text.toList then some .real else none
  else if tag = coreTag "null" then if isNull text then some .null else none
  else if tag.isNone && isPlain then some (plainValue text)
  else some (.text text)

end ByteStore.Yaml
