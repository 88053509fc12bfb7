/-!
# Numbers beyond the doubles

A number overflows if the double next to it is infinite: if it is at least as far from zero as the
middle between the largest double and the power of two above it.
-/

namespace ByteStore.Decimal

/-- The least number that rounds to infinity. -/
def overflowBound : Nat := Nat.pow 2 1024 - Nat.pow 2 970

/-- The number of digits of the bound of overflow. -/
def overflowDigits : Nat := 309

/--
Whether `significand · 10 ^ exponent` overflows, for a significand that has so many digits. What the
number of digits decides is not calculated.
-/
def overflows (significand digits : Nat) (exponent : Int) : Bool :=
  if significand = 0 then false
  else if exponent + digits > overflowDigits then true
  else if exponent + digits < overflowDigits then false
  else if 0 ≤ exponent then decide (overflowBound ≤ significand * Nat.pow 10 exponent.toNat)
  else decide (overflowBound * Nat.pow 10 (-exponent).toNat ≤ significand)

/-- The number that decimal digits write. -/
def ofDigits (digits : List Char) : Nat :=
  digits.foldl (fun n d => n * 10 + (d.toNat - '0'.toNat)) 0

/--
Whether a number overflows that is written with digits before the point, digits after it, and an
exponent.
-/
def textOverflows (whole fraction : List Char) (negative : Bool) (exponent : List Char) : Bool :=
  let digits := (whole ++ fraction).dropWhile (· == '0')
  let e : Int := ofDigits exponent
  overflows (ofDigits digits) digits.length ((if negative then -e else e) - fraction.length)

end ByteStore.Decimal
