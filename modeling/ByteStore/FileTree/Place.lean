/-!
# Places

A place is a directory or file of a file tree, given by the names on the way to it. Its text starts
at the root and spells each name once, so different places have different texts.
-/

namespace ByteStore

/-- The number of bytes of the longest name. -/
def Name.limit : Nat := 255

/-- Whether a word can be the name of a file. -/
def IsName (word : List Char) : Prop :=
  word ≠ [] ∧ word ≠ ['.'] ∧ word ≠ ['.', '.'] ∧ '/' ∉ word ∧ '\x00' ∉ word
    ∧ (String.ofList word).utf8ByteSize ≤ Name.limit

instance (word : List Char) : Decidable (IsName word) :=
  inferInstanceAs (Decidable (_ ∧ _ ∧ _ ∧ _ ∧ _ ∧ _))

/-- The name of a file in its directory. -/
structure Name where
  chars : List Char
  isName : IsName chars
  deriving DecidableEq

/-- The names on the way to a file, the innermost first. The root has none. -/
abbrev Place := List Name

namespace Place

/-- The text of a place below the root. -/
def chars : Place → List Char
  | [] => []
  | n :: p => chars p ++ '/' :: n.chars

/-- The text of a place. -/
def text (p : Place) : String := if p.isEmpty then "/" else String.ofList p.chars

end Place

end ByteStore
