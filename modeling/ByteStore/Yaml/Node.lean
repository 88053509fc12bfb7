import ByteStore.Yaml.Layout

/-!
# YAML nodes

A YAML document is a node: a scalar, a sequence, a mapping, or an alias, which stands for a node
that has an anchor. `Node.document?` answers the node of a text with one document.
-/

namespace ByteStore.Yaml

/-! ### Nodes -/

/-- What may precede a node. -/
structure Properties where
  /-- The number of the anchor. -/
  anchor : Option Nat
  tag : Option String
  deriving DecidableEq, Repr

/-- No properties. -/
def Properties.none : Properties := ⟨Option.none, Option.none⟩

/-- A node of a document. -/
inductive Node
  | scalar (properties : Properties) (text : String) (isPlain : Bool)
  /-- The node whose anchor has a number. -/
  | alias (anchor : Nat)
  | sequence (properties : Properties) (items : List Node)
  | mapping (properties : Properties) (members : List (Node × Node))

/-! ### Reading -/

/-- What of a document has not been read, and the anchors of what has. -/
structure Source where
  tokens : List Token
  /-- What handles of tags stand for. -/
  handles : List (String × String)
  /-- The names of the anchors with their numbers, the latest first. -/
  anchors : List (String × Nat)

/-- Reads a part of a document. -/
abbrev Reader := StateT Source Option

namespace Reader

/-- The next token, which stays where it is. -/
def peek? : Reader (Option Token) := do return (← get).tokens.head?

/-- Passes the next token. -/
def skip : Reader Unit := modify fun s => { s with tokens := s.tokens.drop 1 }

/-- Passes a token, if it is the next one. -/
def skip? (t : Token) : Reader Bool := do
  if (← peek?) = some t then
    skip
    return true
  else return false

/-- Whether the next token is one of some. -/
def isAt (ts : List Token) : Reader Bool := do return (← peek?).any ts.contains

/-! ### Properties -/

/-- A new anchor. Its number is the number of names before it. -/
def newAnchor (name : String) : Reader Nat := do
  let s ← get
  let number := (s.anchors.map (·.1)).eraseDups.length
  set { s with anchors := (name, number) :: s.anchors }
  return number

/-- The number of the last anchor with a name. -/
def anchorOf (name : String) : Reader Nat := do liftM ((← get).anchors.lookup name)

/-- An anchor, if it comes next. -/
def anchor? : Reader (Option String) := do
  match ← peek? with
  | some (.anchor name) =>
    skip
    return some name
  | _ => return none

/-- A tag, if it comes next. What its handle stands for must be known. -/
def tag? : Reader (Option String) := do
  match ← peek? with
  | some (.tag handle suffix) =>
    skip
    if handle.isEmpty then return some suffix
    else return some ((← liftM ((← get).handles.lookup handle)) ++ suffix)
  | _ => return none

/-- The properties of a node, in either order. -/
def properties : Reader Properties := do
  let before ← anchor?
  let tag ← tag?
  let name ← if before.isNone && tag.isSome then anchor? else pure before
  match name with
  | some name => return ⟨some (← newAnchor name), tag⟩
  | none => return ⟨none, tag⟩

/-! ### Nodes -/

/-- The node where nothing is written. -/
def empty : Node := .scalar .none "" true

/-- Where a node may stand. -/
inductive Context
  /-- Between brackets or braces. -/
  | flow
  /-- In a block. -/
  | block
  /-- In a block, where a sequence need not be to the right of what it belongs to. -/
  | member
  deriving DecidableEq, Repr

mutual

/-- A node. Where properties are written, the node itself need not be. -/
def node (context : Context) : Nat → Reader Node
  | 0 => failure
  | n + 1 => do
    if let some (.alias name) ← peek? then
      skip
      return .alias (← anchorOf name)
    let p ← properties
    match ← peek?, context with
    | some (.scalar text isPlain), _ =>
      skip
      return .scalar p text isPlain
    | some .openBracket, _ =>
      skip
      return .sequence p (← flowItems true n)
    | some .openBrace, _ =>
      skip
      return .mapping p (← flowMembers true n)
    | some .sequenceStart, .block | some .sequenceStart, .member =>
      skip
      return .sequence p (← items n)
    | some .mappingStart, .block | some .mappingStart, .member =>
      skip
      return .mapping p (← members n)
    | some .dash, .member => return .sequence p (← memberItems n)
    | _, _ => if p = .none then failure else return .scalar p "" true

/-- A node, or nothing before one of some tokens. -/
def nodeUnless (stops : List Token) (context : Context) : Nat → Reader Node
  | 0 => failure
  | n + 1 => do if ← isAt stops then return empty else node context n

/-- The items of a sequence in a block. -/
def items : Nat → Reader (List Node)
  | 0 => failure
  | n + 1 => do
    if ← skip? .dash then
      let item ← nodeUnless [.dash, .blockEnd] .block n
      return item :: (← items n)
    else if ← skip? .blockEnd then return []
    else failure

/-- The items of a sequence that is not to the right of what it belongs to. -/
def memberItems : Nat → Reader (List Node)
  | 0 => failure
  | n + 1 => do
    if ← skip? .dash then
      let item ← nodeUnless [.dash, .key, .value, .blockEnd] .block n
      return item :: (← memberItems n)
    else return []

/-- The members of a mapping in a block. -/
def members : Nat → Reader (List (Node × Node))
  | 0 => failure
  | n + 1 => do
    if ← skip? .key then
      let stops := [.key, .value, .blockEnd]
      let key ← nodeUnless stops .member n
      let value ← if ← skip? .value then nodeUnless stops .member n else pure empty
      return (key, value) :: (← members n)
    else if ← skip? .blockEnd then return []
    else failure

/-- The items of a sequence between brackets, up to the closing one. -/
def flowItems (isFirst : Bool) : Nat → Reader (List Node)
  | 0 => failure
  | n + 1 => do
    if ← skip? .closeBracket then return []
    if !isFirst then guard (← skip? .comma)
    if ← skip? .closeBracket then return []
    let item ←
      if ← skip? .key then pure (.mapping .none [← flowPair n])
      else node .flow n
    return item :: (← flowItems false n)

/--
A mapping with one member, as an item between brackets. An empty key takes along what follows.
-/
def flowPair : Nat → Reader (Node × Node)
  | 0 => failure
  | n + 1 => do
    let key ←
      if ← isAt [.value, .comma, .closeBracket] then
        skip
        pure empty
      else node .flow n
    let value ←
      if ← skip? .value then nodeUnless [.comma, .closeBracket] .flow n else pure empty
    return (key, value)

/-- The members of a mapping between braces, up to the closing one. -/
def flowMembers (isFirst : Bool) : Nat → Reader (List (Node × Node))
  | 0 => failure
  | n + 1 => do
    if ← skip? .closeBrace then return []
    if !isFirst then guard (← skip? .comma)
    if ← skip? .closeBrace then return []
    let member ←
      if ← skip? .key then
        let key ← nodeUnless [.value, .comma, .closeBrace] .flow n
        let value ←
          if ← skip? .value then nodeUnless [.comma, .closeBrace] .flow n else pure empty
        pure (key, value)
      else pure (← node .flow n, empty)
    return member :: (← flowMembers false n)

end

/-! ### Documents -/

/-- What handles of tags stand for where a document does not say it. -/
def defaultHandles : List (String × String) := [("!", "!"), ("!!", "tag:yaml.org,2002:")]

/-- The directives of a document; answers whether there are any. -/
def directives (hasVersion : Bool) : Nat → Reader Bool
  | 0 => failure
  | n + 1 => do
    let handles := (← get).handles
    match ← peek? with
    | some (.version major minor) =>
      guard (!hasVersion && major = 1 && (minor = 1 || minor = 2))
      skip
      directives true n
    | some (.tagHandle handle start) =>
      guard (handles.lookup handle).isNone
      skip
      modify fun s => { s with handles := (handle, start) :: handles }
      directives hasVersion n
    | _ => return hasVersion || !handles.isEmpty

/-- Whether the next token ends a document, or starts another one. -/
def isAtDocument : Reader Bool := do
  match ← peek? with
  | none | some .documentStart | some .documentEnd | some (.version _ _) | some (.tagHandle _ _) =>
    return true
  | _ => return false

/-- A single document, with nothing after it. A text without any is like an empty one. -/
def document (fuel : Nat) : Reader Node := do
  if (← peek?).isNone then return empty
  let hasDirectives ← directives false fuel
  let isMarked ← skip? .documentStart
  guard (isMarked || !hasDirectives)
  modify fun s => { s with handles := s.handles ++ defaultHandles }
  let content ← if isMarked && (← isAtDocument) then pure empty else node .block fuel
  guard ((← get).tokens.all (· == .documentEnd))
  return content

end Reader

/--
The node of a text with a single document. Between one token and the next, at most three readers are
started.
-/
def Node.document? (text : List Char) : Option Node := do
  let tokens ← Token.scan text
  let (node, _) ← Reader.document (4 * tokens.length + 4) ⟨tokens, [], []⟩
  return node

end ByteStore.Yaml
