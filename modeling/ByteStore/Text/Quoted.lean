import ByteStore.Text.Hidden

/-!
# Quoted texts

A text between quotation marks, in which each character can be told from every other: quotation
marks, backslashes and the common controls have short escapes, and a character without a shape of
its own is shown by its number.
-/

namespace ByteStore.Text

/-- One character of a quoted text. -/
def quoteChar (c : Char) : List Char :=
  if c = '"' then ['\\', '"']
  else if c = '\\' then ['\\', '\\']
  else if c = '\n' then ['\\', 'n']
  else if c = '\r' then ['\\', 'r']
  else if c = '\t' then ['\\', 't']
  else if c = '\x00' then ['\\', '0']
  else if isHidden c then '\\' :: 'u' :: '{' :: Nat.toDigits 16 c.toNat ++ ['}']
  else [c]

/-- The text between quotation marks. -/
def quote (s : String) : String := String.ofList ('"' :: s.toList.flatMap quoteChar ++ ['"'])

end ByteStore.Text
