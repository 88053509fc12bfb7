/-!
# Byte strings

Keys and values are byte strings. They are ordered lexicographically: byte by byte, and a beginning
comes before whatever it begins. `Bytes.before` decides that order, and `Bytes.successor` is the
least upper bound of all byte strings with a given beginning.
-/

namespace ByteStore

/-- A finite string of bytes. -/
abbrev Bytes := List UInt8

namespace Bytes

/-! ### Order -/

/-- Whether one byte string comes strictly before another. -/
def before : Bytes → Bytes → Bool
  | _, [] => false
  | [], _ :: _ => true
  | a :: as, b :: bs => decide (a < b) || (a == b && before as bs)

@[simp] theorem before_nil (a : Bytes) : before a [] = false := by cases a <;> rfl

@[simp] theorem nil_before_cons (b : UInt8) (bs : Bytes) : before [] (b :: bs) = true := rfl

@[simp] theorem cons_before_cons (a b : UInt8) (as bs : Bytes) :
    before (a :: as) (b :: bs) = (decide (a < b) || (a == b && before as bs)) := rfl

theorem before_iff_lt {a b : Bytes} : before a b = true ↔ a < b := by
  induction a generalizing b with
  | nil => cases b <;> simp
  | cons x xs ih =>
    cases b with
    | nil => simp
    | cons y ys => simp [List.cons_lt_cons_iff, ih]

theorem before_eq_false_iff {a b : Bytes} : before a b = false ↔ b ≤ a := by
  rw [← Bool.not_eq_true, before_iff_lt, List.not_lt]

/-! ### The end of a beginning -/

/--
The least byte string that comes after every byte string beginning with `p`: the last byte that can
grow grows by one, and the bytes after it go. There is none if no byte of `p` can grow.
-/
def successor (p : Bytes) : Option Bytes :=
  match p.reverse.dropWhile (· == 255) with
  | [] => none
  | b :: r => some ((b + 1) :: r).reverse

@[simp] theorem successor_nil : successor [] = none := rfl

theorem successor_append_255 (p : Bytes) : successor (p ++ [255]) = successor p := by
  simp [successor]

theorem successor_append {b : UInt8} (p : Bytes) (h : b ≠ 255) :
    successor (p ++ [b]) = some (p ++ [b + 1]) := by
  simp [successor, h]

end Bytes

end ByteStore
