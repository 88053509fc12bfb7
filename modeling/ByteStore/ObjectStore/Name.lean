import ByteStore.Text.Split

/-!
# Names of objects

An object store writes some characters in the names of its objects as escapes. A database whose own
name holds such a character writes its objects under names with escapes, and then looks for them
under names in which the escapes are escaped, so it never finds them.
-/

namespace ByteStore.ObjectName

/-- The characters from space to tilde that are written as escapes. -/
def escaped : List Char :=
  ['\\', '\x7b', '^', '\x7d', '%', '\x60', ']', '"', '>', '[', '~', '<', '#', '|', '*', '?']

/-- Whether a character is written as it is. -/
def isPlain (c : Char) : Bool := ' ' ≤ c && c ≤ '~' && !escaped.contains c

/-- Whether a word of a name is written as it is. A step to a directory is not. -/
def isPlainWord (word : List Char) : Bool :=
  word != ['.'] && word != ['.', '.'] && word.all isPlain

/-- Whether a database with a name finds the objects that it has written. -/
def isFindable (name : String) : Bool := (Text.split '/' name.toList).all isPlainWord

end ByteStore.ObjectName
