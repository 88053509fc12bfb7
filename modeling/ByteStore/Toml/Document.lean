import ByteStore.Toml.Scalar
import ByteStore.Toml.Table

/-!
# TOML documents

A document is a list of lines. A header opens a table; a pair puts a value under a key of the table
that was opened last.
-/

namespace ByteStore.Toml

open Text (Parser)
open Settings (Value Members)

/-! ### Space -/

/-- Passes blanks. -/
def blanks : Parser Unit := do let _ ← Parser.takeWhile isBlank

/-- Passes a comment, if there is one. -/
def comment : Parser Unit := do
  let _ ← Parser.optional? do
    Parser.char '#'
    Parser.takeWhile isText

/-- Passes the end of a line, or of the document. -/
def lineEnd : Parser Unit := do
  blanks
  comment
  unless ← Parser.atEnd do Parser.char '\n'

/-- Passes blanks, comments and ends of lines. -/
def space : Parser Unit := do
  blanks
  let _ ← Parser.many do
    comment
    Parser.char '\n'
    blanks
  comment

/-! ### Keys -/

/-- Whether a character may stand in a key without marks around it. -/
def isKeyChar (c : Char) : Bool := c.isAlphanum || c == '_' || c == '-'

/-- One part of a key. -/
def keyPart : Parser String := do
  blanks
  let part ← (String.ofList <$> Parser.takeWhile1 isKeyChar) <|> shortString
  blanks
  return part

/-- The number of parts that no key has, and the depth that no value has. -/
def limit : Nat := 80

/-- A key: the path to its table, and its last part. -/
def key : Parser (List String × String) := do
  let parts ← Parser.separated keyPart (Parser.char '.')
  guard (parts.length < limit)
  match parts.getLast? with
  | some last => return (parts.dropLast, last)
  | none => failure

/-- A key and its value. -/
def pair (value : Parser Value) : Parser ((List String × String) × Value) := do
  let k ← key
  Parser.char '='
  blanks
  return (k, ← value)

/-! ### Values -/

/-- An array. The last item may have a comma after it. -/
def array (value : Parser Value) : Parser Value := do
  Parser.char '['
  let items ← Parser.many do
    space
    let item ← value
    space
    let last ← (do Parser.char ','; return false) <|> pure true
    return (item, last)
  space
  Parser.char ']'
  guard (items.dropLast.all fun i => !i.2)
  return .list (items.map (·.1))

/-- A table on one line. -/
def inlineTable (value : Parser Value) : Parser Value := do
  let member : Parser ((List String × String) × Value) := do
    let p ← pair value
    blanks
    return p
  Parser.char '\x7b'
  blanks
  let pairs ← Parser.separated member (Parser.char ',') <|> pure []
  Parser.char '\x7d'
  let items ← liftM (pairs.foldlM (fun ms p => Items.put p.1.1 p.1.2 p.2 .header ms) ([] : Items))
  return .table (membersOf items)

/-- A value whose parts are nested at most so deep. -/
def value : Nat → Parser Value
  | 0 => scalar
  | depth + 1 => scalar <|> array (value depth) <|> inlineTable (value depth)

/-! ### Lines -/

/-- What a line says. -/
inductive Line
  | empty
  | table (path : List String) (key : String)
  | tables (path : List String) (key : String)
  | pair (path : List String) (key : String) (value : Value)

/-- A line without its end. -/
def line : Parser Line := do
  blanks
  let tables : Parser Line := do
    Parser.word ['[', '[']
    let (path, k) ← key
    Parser.word [']', ']']
    return .tables path k
  let table : Parser Line := do
    Parser.char '['
    let (path, k) ← key
    Parser.char ']'
    return .table path k
  let pair : Parser Line := do
    let ((path, k), v) ← pair (value (limit - 1))
    return .pair path k v
  tables <|> table <|> pair <|> pure .empty

/-- The lines of a document, at most so many. -/
def lines : Nat → Parser (List Line)
  | 0 => return []
  | n + 1 => do
    let l ← line
    lineEnd
    if ← Parser.atEnd then return [l] else return l :: (← lines n)

/-! ### Documents -/

/-- What has been read of a document: its items, and the table that was opened last. -/
structure State where
  items : Items
  current : List String

/-- Takes in a line. -/
def State.read (s : State) : Line → Option State
  | .empty => some s
  | .table path k => do return ⟨← s.items.openTable path k, path ++ [k]⟩
  | .tables path k => do return ⟨← s.items.addTable path k, path ++ [k]⟩
  | .pair path k v => do
    let put (origin : Origin) (ms : Items) : Option Items := ms.put path k v origin
    return { s with items := ← s.items.change false put s.current .header }

/-- A text in which each end of a line is a line feed. A carriage return elsewhere stays. -/
def joinLineEnds : List Char → List Char
  | '\r' :: '\n' :: s => '\n' :: joinLineEnds s
  | c :: s => c :: joinLineEnds s
  | [] => []

/-- The members of a document. The mark of the byte order may stand in front of it. -/
def members? (text : List Char) : Option Members := do
  let text := joinLineEnds (match text with
    | '\ufeff' :: s => s
    | s => s)
  let ls ← (lines (text.length + 1)).parseAll? text
  let s ← ls.foldlM State.read ⟨[], []⟩
  return membersOf s.items

end ByteStore.Toml
