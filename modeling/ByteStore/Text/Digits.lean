/-!
# Digits

Numbers written in digits, to a base of at most sixteen. Letters of either case are digits.
-/

namespace ByteStore.Text

/-- The value of a hexadecimal digit. -/
def digit? (c : Char) : Option Nat :=
  if c.isDigit then some (c.toNat - '0'.toNat)
  else if 'a' ≤ c ∧ c ≤ 'f' then some (c.toNat - 'a'.toNat + 10)
  else if 'A' ≤ c ∧ c ≤ 'F' then some (c.toNat - 'A'.toNat + 10)
  else none

/-- The value of a digit to a base. -/
def digitOf? (base : Nat) (c : Char) : Option Nat := (digit? c).filter (· < base)

/-- The number that digits write, of which there has to be one. -/
def number? (base : Nat) (digits : List Char) : Option Nat :=
  if digits.isEmpty then none
  else digits.foldlM (fun n c => (digitOf? base c).map (n * base + ·)) 0

/-- The character whose number hexadecimal digits write. -/
def character? (digits : List Char) : Option Char := do
  let n ← number? 16 digits
  if n.isValidChar then some (Char.ofNat n) else none

end ByteStore.Text
