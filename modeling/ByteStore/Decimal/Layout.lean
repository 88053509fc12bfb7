import ByteStore.Decimal.Shortest

/-!
# Layouts of decimals

A layout says how a decimal is written: with its point among the digits while its magnitude is
moderate, and with an exponent otherwise.
-/

namespace ByteStore.Decimal

/-- The choices of a way to write decimals. -/
structure Layout where
  /-- The least magnitude of a number that is written without an exponent. -/
  leastPlain : Int
  /-- The greatest magnitude of a number that is written without an exponent. -/
  greatestPlain : Int
  /-- What a plain whole number ends with. -/
  wholeEnding : String
  /-- What comes before an exponent that is not negative. -/
  exponentMark : String
  /-- What comes before the absolute value of a negative exponent. -/
  negativeExponentMark : String
  deriving DecidableEq, Repr

namespace Layout

/-- The text of a positive decimal. -/
def positive (l : Layout) (d : Decimal) : String :=
  let digits := (Nat.toDigits 10 d.digits)
  let magnitude := d.exponent + digits.length - 1
  if l.leastPlain ≤ magnitude ∧ magnitude ≤ l.greatestPlain then
    if 0 ≤ d.exponent then
      String.ofList (digits ++ List.replicate d.exponent.toNat '0') ++ l.wholeEnding
    else if 0 ≤ magnitude then
      let whole := magnitude.toNat + 1
      String.ofList (digits.take whole ++ '.' :: digits.drop whole)
    else
      String.ofList ('0' :: '.' :: List.replicate (-magnitude - 1).toNat '0' ++ digits)
  else
    let significand :=
      match digits with
      | [c] => [c]
      | c :: cs => c :: '.' :: cs
      | [] => []
    let exponent :=
      if 0 ≤ magnitude then l.exponentMark ++ toString magnitude.toNat
      else l.negativeExponentMark ++ toString (-magnitude).toNat
    String.ofList significand ++ exponent

/-- The text of a finite double, given by its bits. -/
def double (l : Layout) (bits : UInt64) : String :=
  let b := Binary.ofBits bits
  let text := if b.significand = 0 then "0" ++ l.wholeEnding else l.positive (shortest b)
  if isNegative bits then "-" ++ text else text

end Layout

end ByteStore.Decimal
