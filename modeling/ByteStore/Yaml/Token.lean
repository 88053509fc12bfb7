import ByteStore.Text.Digits
import ByteStore.Text.Utf8
import ByteStore.Yaml.Cursor

/-!
# YAML tokens

The tokens of a YAML text, and the tokens that are words: directives, anchors, aliases and tags.
-/

namespace ByteStore.Yaml

open Text (Parser)

/-- A part of a YAML text. -/
inductive Token
  | version (major minor : Nat)
  /-- A handle, and what it stands for at the beginning of a tag. -/
  | tagHandle (handle start : String)
  | documentStart
  | documentEnd
  | sequenceStart
  | mappingStart
  /-- The end of a sequence or mapping that is told by its indentation. -/
  | blockEnd
  | openBracket
  | closeBracket
  | openBrace
  | closeBrace
  | dash
  | comma
  | key
  | value
  | alias (name : String)
  | anchor (name : String)
  | tag (handle suffix : String)
  | scalar (text : String) (isPlain : Bool)
  deriving DecidableEq, Repr

namespace Token

/-! ### Names -/

/-- What may follow the name of an anchor or an alias. -/
def endsName (s : List Char) : Bool :=
  atGap s || s.head?.any ['?', ':', ',', ']', '\x7d', '%', '@', '\x60'].contains

/-- The name of an anchor or an alias. -/
def name : Parser String := do
  let cs ← Parser.takeWhile1 isNameChar
  guard (endsName (← get))
  return String.ofList cs

/-! ### Tags -/

/-- The bytes that a row of characters and escapes of a tag stands for, and what follows it. -/
def tagBytes (inAngles : Bool) : List Char → List UInt8 × List Char
  | '%' :: a :: b :: s =>
    match hexByte? a b with
    | some x =>
      let (bs, rest) := tagBytes inAngles s
      (x :: bs, rest)
    | none => ([], '%' :: a :: b :: s)
  | c :: s =>
    if isTagChar c then
      let (bs, rest) := tagBytes inAngles s
      (c.toNat.toUInt8 :: bs, rest)
    else ([], c :: s)
  | [] => ([], [])
where
  /-- The byte that two hexadecimal digits write. -/
  hexByte? (a b : Char) : Option UInt8 := (Text.number? 16 [a, b]).map Nat.toUInt8
  /-- Whether a character may stand in a tag. Between angle brackets, more may. -/
  isTagChar (c : Char) : Bool :=
    isNameChar c || ";/?:@&=+$.!~*'()".toList.contains c
      || (inAngles && (c == ',' || c == '[' || c == ']'))

/-- A row of characters and escapes of a tag, which write a text. -/
def tagText (inAngles : Bool) : Parser String := do
  let bytes ← modifyGet (tagBytes inAngles)
  guard ((← get).head? ≠ some '%')
  match Text.Utf8.decode bytes with
  | .ok text => return text
  | .error _ => failure

/-- A handle of tags: two exclamation marks with a name between them, or a single one. -/
def handle : Parser String := do
  Parser.char '!'
  (do
    let cs ← Parser.takeWhile isNameChar
    Parser.char '!'
    return String.ofList ('!' :: cs ++ ['!']))
  <|> return "!"

/-- A tag, after which a gap has to follow. -/
def tag? (inFlow : Bool) : Parser Token := do
  let spelled : Parser Token := do
    Parser.word ['!', '<']
    let text ← tagText true
    guard !text.isEmpty
    Parser.char '>'
    return .tag "" text
  let whole : Parser Token := do
    let h ← handle
    let suffix ← tagText false
    if h = "!" then return if suffix.isEmpty then .tag "" "!" else .tag "!" suffix
    else
      guard !suffix.isEmpty
      return .tag h suffix
  let t ← if (← get).take 2 = ['!', '<'] then spelled else whole
  let s ← get
  guard (atGap s || (inFlow && s.head? == some ','))
  return t

/-! ### Directives -/

/-- Passes blanks. -/
def blanks : Parser Unit := do let _ ← Parser.takeWhile isBlank

/-- A number of at most nine digits. -/
def number : Parser Nat := do
  let digits ← Parser.takeWhile1 Char.isDigit
  guard (digits.length ≤ 9)
  return digits.foldl (fun n d => n * 10 + (d.toNat - '0'.toNat)) 0

/-- The version of the language that a document is written in. -/
def versionDirective : Parser Token := do
  Parser.word "YAML".toList
  guard (atGap (← get))
  blanks
  let major ← number
  Parser.char '.'
  return .version major (← number)

/-- What a handle of tags stands for. -/
def handleDirective : Parser Token := do
  Parser.word "TAG".toList
  guard (atGap (← get))
  blanks
  let h ← handle
  guard ((← get).head?.any isBlank)
  blanks
  let start ← tagText true
  guard (!start.isEmpty && atGap (← get))
  return .tagHandle h start

/-- A directive, and what follows it on its line. -/
def directive : Parser Token := do
  Parser.char '%'
  let t ← versionDirective <|> handleDirective
  blanks
  let _ ← Parser.optional? do
    Parser.char '#'
    Parser.takeWhile fun c => !isBreak c
  guard (atLineEnd (← get))
  return t

end Token

end ByteStore.Yaml
