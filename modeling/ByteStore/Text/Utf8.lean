import ByteStore.Bytes

/-!
# UTF-8

Reading a byte string as text, in the well-formed byte sequences of Unicode. A fault names the first
byte that starts no character, and how many bytes from there on belong to the failed attempt.
-/

namespace ByteStore.Text.Utf8

/-- Why a byte string is no text. -/
inductive Fault
  /-- The bytes from `index` on start no character. -/
  | invalid (length index : Nat)
  /-- The byte string ends inside the character that starts at `index`. -/
  | incomplete (index : Nat)
  deriving DecidableEq, Repr

def Fault.message : Fault → String
  | .invalid n i => s!"invalid utf-8 sequence of {n} bytes from index {i}"
  | .incomplete i => s!"incomplete utf-8 byte sequence from index {i}"

/-- Why a byte string does not start with a character. -/
inductive Misfit
  /-- The first so many bytes start no character. -/
  | bad (length : Nat)
  /-- The byte string ends too early. -/
  | cut
  deriving DecidableEq, Repr

/-- Whether a byte continues a character. -/
def isTail (b : UInt8) : Bool := decide (0x80 ≤ b) && decide (b ≤ 0xBF)

/-- The bits that a continuing byte adds to a code point. -/
def tailBits (b : UInt8) : Nat := b.toNat - 0x80

/-- Whether `b` may follow the first byte `a` of a character of three bytes. -/
def isSecondOfThree (a b : UInt8) : Bool :=
  isTail b && (a != 0xE0 || decide (0xA0 ≤ b)) && (a != 0xED || decide (b ≤ 0x9F))

/-- Whether `b` may follow the first byte `a` of a character of four bytes. -/
def isSecondOfFour (a b : UInt8) : Bool :=
  isTail b && (a != 0xF0 || decide (0x90 ≤ b)) && (a != 0xF4 || decide (b ≤ 0x8F))

/-- The first character of the byte string `a :: rest`, and what follows it. -/
def first (a : UInt8) (rest : Bytes) : Except Misfit (Char × Bytes) :=
  if a < 0x80 then .ok (Char.ofNat a.toNat, rest)
  else if a < 0xC2 then .error (.bad 1)
  else if a < 0xE0 then
    match rest with
    | [] => .error .cut
    | b :: rest =>
      if isTail b then .ok (Char.ofNat ((a.toNat - 0xC0) * 64 + tailBits b), rest)
      else .error (.bad 1)
  else if a < 0xF0 then
    match rest with
    | [] => .error .cut
    | b :: rest =>
      if isSecondOfThree a b then
        match rest with
        | [] => .error .cut
        | c :: rest =>
          if isTail c then
            .ok (Char.ofNat ((a.toNat - 0xE0) * 4096 + tailBits b * 64 + tailBits c), rest)
          else .error (.bad 2)
      else .error (.bad 1)
  else if a < 0xF5 then
    match rest with
    | [] => .error .cut
    | b :: rest =>
      if isSecondOfFour a b then
        match rest with
        | [] => .error .cut
        | c :: rest =>
          if isTail c then
            match rest with
            | [] => .error .cut
            | d :: rest =>
              if isTail d then
                .ok (Char.ofNat ((a.toNat - 0xF0) * 262144 + tailBits b * 4096 + tailBits c * 64
                  + tailBits d), rest)
              else .error (.bad 3)
          else .error (.bad 2)
      else .error (.bad 1)
  else .error (.bad 1)

theorem length_first {a : UInt8} {rest rest' : Bytes} {c : Char}
    (h : first a rest = .ok (c, rest')) : rest'.length ≤ rest.length := by
  unfold first at h
  repeat' split at h
  all_goals
    simp only [Except.ok.injEq, Prod.mk.injEq, reduceCtorEq] at h
  all_goals
    obtain ⟨-, rfl⟩ := h
    simp
  all_goals omega

/-- Reads bytes as text; the first of them stands at `index`. -/
def decodeFrom (index : Nat) : Bytes → Except Fault (List Char)
  | [] => .ok []
  | a :: rest =>
    match h : first a rest with
    | .error (.bad n) => .error (.invalid n index)
    | .error .cut => .error (.incomplete index)
    | .ok (c, rest') =>
      have : rest'.length < (a :: rest).length := Nat.lt_succ_of_le (length_first h)
      (decodeFrom (index + c.utf8Size) rest').map (c :: ·)
termination_by data => data.length
decreasing_by exact this

/-- Reads a byte string as text. -/
def decode (data : Bytes) : Except Fault String := (decodeFrom 0 data).map String.ofList

end ByteStore.Text.Utf8
