import ByteStore.Yaml.Scalar
import ByteStore.Yaml.Token

/-!
# The layout of a YAML text

Outside brackets and braces, the columns of a YAML text say where sequences and mappings start and
end. A key of a mapping need not be marked as one: that something is a key shows only when its colon
comes, so the places of possible keys are kept in mind. `Token.scan` answers the tokens of a text,
with the starts and ends of its blocks and the marks of its keys.
-/

namespace ByteStore.Yaml

/-- A place where a key may have started that is not marked. -/
structure PossibleKey where
  /-- The number of tokens before it. -/
  index : Nat
  line : Nat
  column : Nat
  /-- Whether something other than a key cannot stand there. -/
  required : Bool

/-- What has been read of a text. -/
structure Layout where
  cursor : Cursor
  /-- The tokens, the latest first. -/
  tokens : List Token
  /-- The number of tokens. -/
  size : Nat
  /-- The columns in which the open blocks start, the innermost first. -/
  blocks : List Nat
  /-- Whether a key that is not marked may start here. -/
  keyAllowed : Bool
  /-- The key that may have started since the innermost bracket or brace was opened. -/
  possibleKey : Option PossibleKey
  /-- Those that may have started before, one for each open bracket or brace. -/
  outerKeys : List (Option PossibleKey)

namespace Layout

/-- The beginning of a text. -/
def start (text : List Char) : Layout where
  cursor := .start text
  tokens := []
  size := 0
  blocks := []
  keyAllowed := true
  possibleKey := none
  outerKeys := []

/-- Whether a bracket or a brace is open. -/
def inFlow (l : Layout) : Bool := !l.outerKeys.isEmpty

/-- The first column in which the content of the innermost block may stand. -/
def margin (l : Layout) : Nat :=
  match l.blocks with
  | [] => 0
  | column :: _ => column + 1

/-- Adds a token. -/
def add (l : Layout) (t : Token) : Layout :=
  { l with tokens := t :: l.tokens, size := l.size + 1 }

/-- Adds a token that takes so many characters. -/
def addMark (l : Layout) (t : Token) (length : Nat) : Layout :=
  { l.add t with cursor := l.cursor.advance length }

/-- Inserts a token that has so many tokens before it. -/
def insertAt (l : Layout) (index : Nat) (t : Token) : Layout :=
  let later := l.size - index
  { l with tokens := l.tokens.take later ++ t :: l.tokens.drop later, size := l.size + 1 }

/-! ### Possible keys -/

/-- The longest distance between the start of a key that is not marked and its colon. -/
def keyLimit : Nat := 1024

/-- A possible key, unless the text has gone too far for it. A required one must not be lost. -/
def recheck (k : Cursor) : Option PossibleKey → Option (Option PossibleKey)
  | none => some none
  | some p =>
    if p.line < k.line ∨ p.column + keyLimit < k.column then
      if p.required then none else some none
    else some (some p)

/-- Forgets the possible keys for which the text has gone too far. -/
def recheckKeys (l : Layout) : Option Layout := do
  return { l with
    possibleKey := ← recheck l.cursor l.possibleKey
    outerKeys := ← l.outerKeys.mapM (recheck l.cursor) }

/-- Forgets the latest possible key, which must not be required. -/
def dropKey (l : Layout) : Option Layout :=
  if l.possibleKey.any (·.required) then none else some { l with possibleKey := none }

/-- Keeps in mind that a key may start here. -/
def noteKey (l : Layout) : Option Layout :=
  if l.keyAllowed then do
    let required := !l.inFlow && l.blocks.head? == some l.cursor.column
    let p : PossibleKey := ⟨l.size, l.cursor.line, l.cursor.column, required⟩
    return { ← l.dropKey with possibleKey := some p }
  else some l

/-! ### Blocks -/

/-- Opens a block in a column, if that is to the right of the innermost block. -/
def openBlock (l : Layout) (column index : Nat) (t : Token) : Layout :=
  if !l.inFlow && decide (l.margin ≤ column) then
    { l.insertAt index t with blocks := column :: l.blocks }
  else l

/-- Closes blocks that start in columns to the right of one. -/
def closeBlocks (l : Layout) (starts : Nat → Bool) : Layout :=
  if l.inFlow then l
  else
    let ended := l.blocks.takeWhile fun column => !starts column
    { l with
      tokens := ended.map (fun _ => Token.blockEnd) ++ l.tokens
      size := l.size + ended.length
      blocks := l.blocks.drop ended.length }

/-- Closes all blocks. -/
def closeAll (l : Layout) : Layout := l.closeBlocks fun _ => false

/-! ### Space -/

/-- Passes space and comments; answers whether a key may start after it. -/
def space (inFlow : Bool) (keyAllowed inComment : Bool) (line column : Nat) :
    List Char → Bool × Cursor
  | [] => (keyAllowed, ⟨[], line, column⟩)
  | c :: s =>
    if isBreak c then space inFlow (keyAllowed || !inFlow) false (line + 1) 0 s
    else if inComment || c == ' ' || (c == '\t' && (inFlow || !keyAllowed)) then
      space inFlow keyAllowed inComment line (column + 1) s
    else if c = '#' then space inFlow keyAllowed true line (column + 1) s
    else (keyAllowed, ⟨c :: s, line, column⟩)

/-- Passes space and comments. -/
def skipSpace (l : Layout) : Layout :=
  let (keyAllowed, cursor) :=
    space l.inFlow l.keyAllowed false l.cursor.line l.cursor.column l.cursor.rest
  { l with keyAllowed, cursor }

/-! ### Tokens -/

/-- A directive. -/
def directive (l : Layout) : Option Layout := do
  let l ← l.closeAll.dropKey
  let (t, cursor) ← l.cursor.after Token.directive
  return { l.add t with cursor, keyAllowed := false }

/-- A mark between documents. -/
def documentMark (l : Layout) (t : Token) : Option Layout := do
  let l ← l.closeAll.dropKey
  return { l.addMark t 3 with keyAllowed := false }

/-- An opening bracket or brace. -/
def openFlow (l : Layout) (t : Token) : Option Layout := do
  let l ← l.noteKey
  return { l.addMark t 1 with
    keyAllowed := true
    possibleKey := none
    outerKeys := l.possibleKey :: l.outerKeys }

/-- A closing bracket or brace. -/
def closeFlow (l : Layout) (t : Token) : Option Layout := do
  let l := { (← l.dropKey).addMark t 1 with keyAllowed := false }
  match l.outerKeys with
  | p :: ps => return { l with possibleKey := p, outerKeys := ps }
  | [] => return l

/-- A comma. -/
def comma (l : Layout) : Option Layout := do
  return { (← l.dropKey).addMark .comma 1 with keyAllowed := true }

/-- The dash before an item of a sequence. -/
def dash (l : Layout) : Option Layout := do
  guard (l.inFlow || l.keyAllowed)
  let l := l.openBlock l.cursor.column l.size .sequenceStart
  return { (← l.dropKey).addMark .dash 1 with keyAllowed := true }

/-- The mark of a key. -/
def key (l : Layout) : Option Layout := do
  guard (l.inFlow || l.keyAllowed)
  let l := l.openBlock l.cursor.column l.size .mappingStart
  return { (← l.dropKey).addMark .key 1 with keyAllowed := !l.inFlow }

/-- The colon before a value, which may turn what was a possible key into a key. -/
def value (l : Layout) : Option Layout :=
  match l.possibleKey with
  | some p =>
    let l := (l.insertAt p.index .key).openBlock p.column p.index .mappingStart
    some { l.addMark .value 1 with possibleKey := none, keyAllowed := false }
  | none => do
    guard (l.inFlow || l.keyAllowed)
    let l := l.openBlock l.cursor.column l.size .mappingStart
    return { l.addMark .value 1 with keyAllowed := !l.inFlow }

/-- An anchor or an alias. -/
def named (l : Layout) (token : String → Token) : Option Layout := do
  let l ← l.noteKey
  let (name, cursor) ← (l.cursor.advance 1).after Token.name
  return { l.add (token name) with cursor, keyAllowed := false }

/-- A tag. -/
def tag (l : Layout) : Option Layout := do
  let l ← l.noteKey
  let (t, cursor) ← l.cursor.after (Token.tag? l.inFlow)
  return { l.add t with cursor, keyAllowed := false }

/-- A block of lines. -/
def block (l : Layout) (folded : Bool) : Option Layout := do
  let l ← l.dropKey
  let (text, cursor) ← Yaml.block folded l.margin (l.cursor.advance 1)
  return { l.add (.scalar (String.ofList text) false) with cursor, keyAllowed := true }

/-- A scalar between apostrophes or quotation marks. -/
def quoted (l : Layout) (mark : Char) : Option Layout := do
  let l ← l.noteKey
  let k := l.cursor.advance 1
  let (text, cursor) ←
    if mark = '\'' then apostrophes k.line k.column [] .none k.rest
    else quotationMarks k.line k.column [] .none k.rest
  return { l.add (.scalar (String.ofList text) false) with cursor, keyAllowed := false }

/-- A plain scalar. -/
def plain (l : Layout) : Option Layout := do
  let l ← l.noteKey
  let k := l.cursor
  let (text, lineEnded, cursor) ←
    Yaml.plain l.inFlow l.margin k.line k.column [] .none k.rest
  return { l.add (.scalar (String.ofList text) true) with cursor, keyAllowed := lineEnded }

/-- The characters that start no plain scalar. -/
def reserved : List Char :=
  ['-', '?', ':', ',', '[', ']', '\x7b', '\x7d', '#', '&', '*', '!', '|', '>', '\'', '"', '%', '@',
    '\x60']

/-- Whether a plain scalar may start with a character, where the text after it is `s`. -/
def startsPlain (inFlow : Bool) (c : Char) (s : List Char) : Bool :=
  !(isBlank c || isBreak c || reserved.contains c)
    || (c == '-' && !s.head?.any isBlank)
    || (!inFlow && (c == '?' || c == ':') && !atGap s)

/-- The token that starts with the character `c`, before `s`. -/
def next (l : Layout) (c : Char) (s : List Char) : Option Layout :=
  let newLine := l.cursor.column == 0
  let marks := l.inFlow || atGap s
  if newLine && c == '%' then l.directive
  else if newLine && atMark '-' (c :: s) then l.documentMark .documentStart
  else if newLine && atMark '.' (c :: s) then l.documentMark .documentEnd
  else if c = '[' then l.openFlow .openBracket
  else if c = '\x7b' then l.openFlow .openBrace
  else if c = ']' then l.closeFlow .closeBracket
  else if c = '\x7d' then l.closeFlow .closeBrace
  else if c = ',' then l.comma
  else if c == '-' && atGap s then l.dash
  else if c == '?' && marks then l.key
  else if c == ':' && marks then l.value
  else if c = '*' then l.named .alias
  else if c = '&' then l.named .anchor
  else if c = '!' then l.tag
  else if c == '|' && !l.inFlow then l.block false
  else if c == '>' && !l.inFlow then l.block true
  else if c = '\'' ∨ c = '"' then l.quoted c
  else if startsPlain l.inFlow c s then l.plain
  else none

/--
Reads a text to its end. Each token takes a character at least, so the text's length suffices.
-/
def run : Nat → Layout → Option (List Token)
  | 0, _ => none
  | n + 1, l => do
    let l ← l.skipSpace.recheckKeys
    match l.cursor.rest with
    | [] => return (← l.closeAll.dropKey).tokens.reverse
    | c :: s =>
      let column := l.cursor.column
      run n (← (l.closeBlocks fun start => decide (start ≤ column)).next c s)

end Layout

/-- The tokens of a text. -/
def Token.scan (text : List Char) : Option (List Token) :=
  Layout.run (text.length + 1) (.start text)

end ByteStore.Yaml
