import ByteStore.Json.Reader

/-!
# Values

A value of a document, kept whole: members in the order of the document, a repeated key as often as
it occurs. `Reader.value` keeps a value, `Value.render` writes one without any space.
-/

namespace ByteStore.Json

/-- A value of a document. -/
inductive Value
  | null
  | bool (value : Bool)
  | number (value : Number)
  | string (value : String)
  | array (items : List Value)
  | object (members : List (String × Value))

/-- What is between the brackets of an array or the braces of an object. -/
inductive Parts
  | items (items : List Value)
  | members (members : List (String × Value))

namespace Value

/-- An atom as a value. -/
def ofAtom : Atom → Value
  | .null => .null
  | .bool b => .bool b
  | .number n => .number n

/-- A value as what it is found to be. -/
def found : Value → Found
  | .null => .null
  | .bool b => .bool b
  | .number n => n.found
  | .string s => .string s
  | .array _ => .sequence
  | .object _ => .map

/-! ### Writing -/

mutual

/-- The text of a value. -/
def render : Value → List Char
  | .null => "null".toList
  | .bool b => (if b then "true" else "false").toList
  | .number (.integer n) => (toString n).toList
  | .number (.real bits) => (realLayout.double bits).toList
  | .string s => Quoted.render s
  | .array items => '[' :: renderItems items ++ [']']
  | .object members => '\x7b' :: renderMembers members ++ ['\x7d']

/-- The text of the items of an array. -/
def renderItems : List Value → List Char
  | [] => []
  | [v] => v.render
  | v :: w :: vs => v.render ++ ',' :: renderItems (w :: vs)

/-- The text of the members of an object. -/
def renderMembers : List (String × Value) → List Char
  | [] => []
  | [(k, v)] => Quoted.render k ++ ':' :: v.render
  | (k, v) :: m :: ms => Quoted.render k ++ ':' :: v.render ++ ',' :: renderMembers (m :: ms)

end

/-- A value as a document. -/
def toDocument (v : Value) : String := String.ofList v.render

end Value

/-! ### Keeping -/

/-- Keeps every part as it is read, with a limit on what may be open at a time. -/
def keeping (limit : Nat) : Manner Value where
  string read _ := read.map .string
  atom read _ := read.map Value.ofAtom
  key read _ := read
  array := .array
  object := .object
  bracketAfterComma := .trailingComma
  braceAfterComma := .trailingComma
  endAfterComma := .eofForValue
  limit := some limit

/-- Reads a value in which at most `limit` arrays and objects are open at a time. -/
def Reader.value (limit : Nat) : Reader Value where
  run := (keeping limit).run [] .value
  takes := Manner.length_run

/-- The number of arrays and objects that may be open at a time in a document that is kept. -/
def depthLimit : Nat := 127

/-- Reads a document that holds one value. -/
def Value.parse (document : String) : Except Complaint Value :=
  (Reader.value depthLimit).parse document

end ByteStore.Json
