import ByteStore.Bytes

/-!
# Length words

Lengths travel as four bytes, the lowest first. Every number below `Word.limit` has such a word, and
`Word.read` and `Word.write` are inverse to each other.
-/

namespace ByteStore.Word

/-- The first number too large for four bytes. -/
def limit : Nat := 4294967296

/-- The four bytes of a number, lowest first; what does not fit is lost. -/
def write (n : Nat) : Bytes :=
  [UInt8.ofNat n, UInt8.ofNat (n / 256), UInt8.ofNat (n / 65536), UInt8.ofNat (n / 16777216)]

/-- The number that four bytes stand for, lowest first. -/
def read (a b c d : UInt8) : Nat :=
  a.toNat + 256 * b.toNat + 65536 * c.toNat + 16777216 * d.toNat

@[simp] theorem length_write (n : Nat) : (write n).length = 4 := rfl

theorem read_lt (a b c d : UInt8) : read a b c d < limit := by
  have := a.toNat_lt
  have := b.toNat_lt
  have := c.toNat_lt
  have := d.toNat_lt
  simp only [read, limit]
  omega

theorem read_write {n : Nat} (h : n < limit) :
    read (UInt8.ofNat n) (UInt8.ofNat (n / 256)) (UInt8.ofNat (n / 65536))
      (UInt8.ofNat (n / 16777216)) = n := by
  simp only [read, limit, UInt8.toNat_ofNat'] at *
  omega

theorem write_read (a b c d : UInt8) : write (read a b c d) = [a, b, c, d] := by
  have := a.toNat_lt
  have := b.toNat_lt
  have := c.toNat_lt
  have := d.toNat_lt
  simp only [write, read, List.cons.injEq, and_true, ← UInt8.toNat_inj, UInt8.toNat_ofNat']
  omega

end ByteStore.Word
