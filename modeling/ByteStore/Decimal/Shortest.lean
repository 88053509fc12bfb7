/-!
# Shortest decimals

A finite binary fraction `m · 2 ^ q` of double precision is the one nearest to every real number of
an interval around it. `shortest` finds, among the decimals in that interval, one with the fewest
digits, and of those the nearest to the fraction.
-/

namespace ByteStore

/-- The number `digits · 10 ^ exponent`. -/
structure Decimal where
  digits : Nat
  exponent : Int
  deriving DecidableEq, Repr

namespace Decimal

/-- The number `significand · 2 ^ exponent`. -/
structure Binary where
  significand : Nat
  exponent : Int
  deriving DecidableEq, Repr

/-! ### Double precision -/

/-- The bit of a significand that a double does not store, above the 52 that it does. -/
def hiddenBit : Nat := Nat.pow 2 52

/-- The absolute value of a finite double, from its bits. -/
def Binary.ofBits (bits : UInt64) : Binary :=
  let e : Nat := (bits.toNat / hiddenBit) % Nat.pow 2 11
  let f : Nat := bits.toNat % hiddenBit
  if e = 0 then ⟨f, -1074⟩ else ⟨hiddenBit + f, (e : Int) - 1075⟩

/-- Whether the sign bit is set. -/
def isNegative (bits : UInt64) : Bool := decide (Nat.pow 2 63 ≤ bits.toNat)

namespace Binary

/-- Four times the lower end of the interval, in units of `2 ^ exponent`. -/
def lowerQuarters (b : Binary) : Nat :=
  if b.significand = hiddenBit ∧ b.exponent ≠ -1074 then 4 * b.significand - 1
  else 4 * b.significand - 2

/-- Four times the upper end of the interval, in units of `2 ^ exponent`. -/
def upperQuarters (b : Binary) : Nat := 4 * b.significand + 2

/-- Whether the ends belong to the interval: an even significand wins the ties. -/
def isClosed (b : Binary) : Bool := b.significand % 2 == 0

/-- A number of quarters of `2 ^ exponent`, measured on the grid of step `10 ^ k`: a numerator. -/
def onGrid (b : Binary) (k : Int) (quarters : Nat) : Nat :=
  quarters * Nat.pow 2 (b.exponent - 2).toNat * Nat.pow 10 (-k).toNat

/-- The denominator that belongs to `onGrid`. -/
def gridUnit (b : Binary) (k : Int) : Nat :=
  Nat.pow 2 (2 - b.exponent).toNat * Nat.pow 10 k.toNat

/-- Whether `n · 10 ^ k` lies in the interval. -/
def admits (b : Binary) (k : Int) (n : Nat) : Bool :=
  let x := n * b.gridUnit k
  let lower := b.onGrid k b.lowerQuarters
  let upper := b.onGrid k b.upperQuarters
  if b.isClosed then decide (lower ≤ x) && decide (x ≤ upper)
  else decide (lower < x) && decide (x < upper)

/--
The multiple of `10 ^ k` that is nearest to the number, if one of its neighbours is near enough.
-/
def nearest? (b : Binary) (k : Int) : Option Nat :=
  let value := b.onGrid k (4 * b.significand)
  let unit := b.gridUnit k
  let n := value / unit
  match b.admits k n, b.admits k (n + 1) with
  | false, false => none
  | true, false => some n
  | false, true => some (n + 1)
  | true, true =>
    let below := value - n * unit
    let above := (n + 1) * unit - value
    if below < above then some n
    else if above < below then some (n + 1)
    else if n % 2 = 0 then some n else some (n + 1)

/-- The count of decimal digits. -/
def digitCount (n : Nat) : Nat := (Nat.toDigits 10 n).length

/-- The greatest `e` for which `10 ^ e` is at most the number, which is not zero. -/
def magnitude (b : Binary) : Int :=
  let value := b.onGrid 0 (4 * b.significand)
  let unit := b.gridUnit 0
  if unit ≤ value then (digitCount (value / unit) : Int) - 1
  else
    let n := digitCount (unit / value)
    if unit ≤ value * Nat.pow 10 (n - 1) then -((n - 1 : Nat) : Int) else -(n : Int)

end Binary

/-! ### The shortest decimal -/

/-- The same number without zeros at the end of its digits. -/
def normalize (d : Decimal) : Decimal :=
  if h : d.digits ≠ 0 ∧ d.digits % 10 = 0 then
    (⟨d.digits / 10, d.exponent + 1⟩ : Decimal).normalize
  else d
termination_by d.digits
decreasing_by omega

/-- The decimal with the fewest digits that reads back as a number other than zero. -/
def shortest (b : Binary) : Decimal :=
  let e := b.magnitude
  let found := (List.range 17).findSome? fun (i : Nat) =>
    let k : Int := e - i
    (b.nearest? k).map fun n => (⟨n, k⟩ : Decimal)
  (found.getD ⟨0, 0⟩).normalize

end Decimal

end ByteStore
