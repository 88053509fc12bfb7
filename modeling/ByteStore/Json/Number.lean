import ByteStore.Json.Fault

/-!
# Numbers of a document

`Numeral.scan` takes a number apart into its digits, and `Numeral.value` says which number they
write: an integer if it has neither fraction nor exponent and fits into 64 bits, and a double
otherwise.
-/

namespace ByteStore.Json

/-- A number of a document. -/
inductive Number
  | integer (value : Int)
  /-- A double, as its bits. -/
  | real (bits : UInt64)
  deriving DecidableEq, Repr

/-- A number as what it is found to be. -/
def Number.found : Number → Found
  | .integer n => .integer n
  | .real bits => .real bits

/-- The exponent of a number, in digits. -/
structure Exponent where
  negative : Bool
  digits : List Char
  deriving DecidableEq, Repr

/-- The text of a number, taken apart. -/
structure Numeral where
  negative : Bool
  whole : List Char
  fraction : Option (List Char)
  exponent : Option Exponent
  deriving DecidableEq, Repr

namespace Numeral

/-! ### Taking apart -/

/-- Why a text that starts like a number starts with no number. -/
inductive Misfit
  /-- The text ends too early. -/
  | cut
  /-- A character is out of place; so many bytes come after its first one. -/
  | bad (place : Nat)
  deriving DecidableEq, Repr

/-- A misfit as a fault, with the cause that an early end has. -/
def Misfit.fault (whenCut : Cause) : Misfit → Fault
  | .cut => ⟨whenCut, 0⟩
  | .bad place => ⟨.invalidNumber, place⟩

/-- The misfit of a text that does not go on as it should. -/
def misfit : List Char → Misfit
  | [] => .cut
  | c :: s => .bad (byteCount (c :: s) - 1)

/-- The digits in front of a text, and what follows them. -/
def digits (s : List Char) : List Char × List Char :=
  (s.takeWhile Char.isDigit, s.dropWhile Char.isDigit)

/-- Scans the whole part of a number: a zero, or digits that do not start with one. -/
def scanWhole : List Char → Except Misfit (List Char × List Char)
  | [] => .error .cut
  | c :: s =>
    if c = '0' then
      if s.head?.any Char.isDigit then .error (misfit s) else .ok ([c], s)
    else if c.isDigit then .ok (c :: (digits s).1, (digits s).2)
    else .error (misfit (c :: s))

/-- Scans a point and at least one digit, if a point is there. -/
def scanFraction : List Char → Except Misfit (Option (List Char) × List Char)
  | '.' :: s =>
    match digits s with
    | ([], _) => .error (misfit s)
    | (ds, rest) => .ok (some ds, rest)
  | s => .ok (none, s)

/-- Scans a sign, if one is there. -/
def scanSign : List Char → Bool × List Char
  | '+' :: s => (false, s)
  | '-' :: s => (true, s)
  | s => (false, s)

/-- Scans an exponent, if its letter is there. -/
def scanExponent : List Char → Except Misfit (Option Exponent × List Char)
  | [] => .ok (none, [])
  | c :: s =>
    if c = 'e' ∨ c = 'E' then
      let (negative, s) := scanSign s
      match digits s with
      | ([], _) => .error (misfit s)
      | (ds, rest) => .ok (some ⟨negative, ds⟩, rest)
    else .ok (none, c :: s)

/-- Scans what follows the sign of a number. -/
def scanUnsigned (negative : Bool) (s : List Char) : Except Misfit (Numeral × List Char) := do
  let (whole, s) ← scanWhole s
  let (fraction, s) ← scanFraction s
  let (exponent, s) ← scanExponent s
  return (⟨negative, whole, fraction, exponent⟩, s)

/-- Scans a number. -/
def scan : List Char → Except Misfit (Numeral × List Char)
  | '-' :: s => scanUnsigned true s
  | s => scanUnsigned false s

theorem length_digits (s : List Char) : (digits s).2.length ≤ s.length :=
  (List.dropWhile_suffix _).length_le

theorem length_scanWhole {s rest : List Char} {ds : List Char}
    (h : scanWhole s = .ok (ds, rest)) : rest.length < s.length := by
  unfold scanWhole at h
  split at h
  · simp at h
  · rename_i c s
    split at h
    · split at h
      · simp at h
      · simp only [Except.ok.injEq, Prod.mk.injEq] at h
        simp [← h.2]
    · split at h
      · simp only [Except.ok.injEq, Prod.mk.injEq] at h
        rw [← h.2]
        exact Nat.lt_succ_of_le (length_digits s)
      · simp at h

theorem length_scanFraction {s rest : List Char} {f : Option (List Char)}
    (h : scanFraction s = .ok (f, rest)) : rest.length ≤ s.length := by
  unfold scanFraction at h
  split at h
  · rename_i s
    split at h
    · simp at h
    · rename_i ds r hd hr
      simp only [Except.ok.injEq, Prod.mk.injEq] at h
      have := length_digits s
      rw [hr] at this
      rw [← h.2]
      exact Nat.le_succ_of_le this
  · simp only [Except.ok.injEq, Prod.mk.injEq] at h
    simp [h.2]

theorem length_scanSign (s : List Char) : (scanSign s).2.length ≤ s.length := by
  unfold scanSign
  split <;> simp

theorem length_scanExponent {s rest : List Char} {e : Option Exponent}
    (h : scanExponent s = .ok (e, rest)) : rest.length ≤ s.length := by
  unfold scanExponent at h
  split at h
  · simp_all
  · rename_i c s
    split at h
    · have hs := length_scanSign s
      revert h hs
      generalize scanSign s = signed
      obtain ⟨negative, t⟩ := signed
      intro h hs
      dsimp only at h
      split at h
      · simp at h
      · rename_i ds r hd hr
        simp only [Except.ok.injEq, Prod.mk.injEq] at h
        have := length_digits t
        rw [hr] at this
        rw [← h.2]
        exact Nat.le_succ_of_le (Nat.le_trans this hs)
    · simp only [Except.ok.injEq, Prod.mk.injEq] at h
      simp [← h.2]

theorem length_scanUnsigned {negative : Bool} {s rest : List Char} {n : Numeral}
    (h : scanUnsigned negative s = .ok (n, rest)) : rest.length < s.length := by
  unfold scanUnsigned at h
  cases h1 : scanWhole s with
  | error m => simp [h1, bind, Except.bind] at h
  | ok r1 =>
    cases h2 : scanFraction r1.2 with
    | error m => simp [h1, h2, bind, Except.bind] at h
    | ok r2 =>
      cases h3 : scanExponent r2.2 with
      | error m => simp [h1, h2, h3, bind, Except.bind] at h
      | ok r3 =>
        simp only [h1, h2, h3, bind, Except.bind, pure, Except.pure, Except.ok.injEq,
          Prod.mk.injEq] at h
        rw [← h.2]
        have := length_scanWhole h1
        have := length_scanFraction h2
        have := length_scanExponent h3
        omega

theorem length_scan {s rest : List Char} {n : Numeral} (h : scan s = .ok (n, rest)) :
    rest.length < s.length := by
  unfold scan at h
  split at h
  · exact Nat.lt_succ_of_lt (length_scanUnsigned h)
  · exact length_scanUnsigned h

/-! ### Values -/

/-- The number a digit stands for. -/
def digitValue (c : Char) : Nat := c.toNat - '0'.toNat

/--
Appends digits to a number as long as it fits into 64 bits; answers the number and how many digits
were left out.
-/
def takeWhole (n : Nat) : List Char → Nat × Nat
  | [] => (n, 0)
  | d :: ds =>
    if n * 10 + digitValue d < UInt64.size then takeWhole (n * 10 + digitValue d) ds
    else (n, (d :: ds).length)

/--
Appends digits to a number as long as it fits into 64 bits; answers the number and how many digits
were appended.
-/
def takeFraction (n : Nat) : List Char → Nat × Nat
  | [] => (n, 0)
  | d :: ds =>
    if n * 10 + digitValue d < UInt64.size then
      let (m, count) := takeFraction (n * 10 + digitValue d) ds
      (m, count + 1)
    else (n, 0)

/-- The number that digits write, unless it exceeds 31 bits; then how many digits are left over. -/
def takeExponent (n : Nat) : List Char → Except Nat Nat
  | [] => .ok n
  | d :: ds =>
    if n * 10 + digitValue d < Nat.pow 2 31 then takeExponent (n * 10 + digitValue d) ds
    else .error ds.length

/--
The double `f · 10 ^ e`, in one rounded step for each power of ten that a double can hold; none if
it is too large.
-/
def scale (f : Float) (e : Int) : Option Float :=
  if e.natAbs ≤ 308 then
    let power := Float.ofScientific 1 false e.natAbs
    if 0 ≤ e then
      let product := f * power
      if product.isInf then none else some product
    else some (f / power)
  else if f == 0 then some f
  else if 0 ≤ e then none
  else scale (f / Float.ofScientific 1 false 308) (e + 308)
termination_by e.natAbs

/-- A double with a sign, as a number. -/
def signed (negative : Bool) (f : Float) : Number :=
  .real (if negative then -f else f).toBits

/-- The number that a numeral writes; `rest` is the text after it. -/
def value (n : Numeral) (rest : List Char) : Except Fault Number :=
  let (whole, dropped) := takeWhole 0 n.whole
  if dropped = 0 ∧ n.fraction = none ∧ n.exponent = none then
    if !n.negative then .ok (.integer whole)
    else if whole ≠ 0 ∧ whole ≤ Nat.pow 2 63 then .ok (.integer (-(whole : Int)))
    else .ok (signed true (UInt64.ofNat whole).toFloat)
  else
    let (significand, kept) := takeFraction whole (n.fraction.getD [])
    let scaled (e : Int) : Except Fault Number :=
      match scale (UInt64.ofNat significand).toFloat ((dropped : Int) - kept + e) with
      | some f => .ok (signed n.negative f)
      | none => .error ⟨.numberOutOfRange, byteCount rest⟩
    match n.exponent with
    | none => scaled 0
    | some e =>
      match takeExponent 0 e.digits with
      | .ok k => scaled (if e.negative then -(k : Int) else k)
      | .error left =>
        if significand ≠ 0 ∧ !e.negative then .error ⟨.numberOutOfRange, left + byteCount rest⟩
        else .ok (signed n.negative 0)

end Numeral

end ByteStore.Json
