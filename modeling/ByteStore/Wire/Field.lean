import ByteStore.Bytes.Word
import ByteStore.Error

/-!
# Fields of a payload

A payload is a row of records, and a record is made of length words and of the byte strings they
announce. This module reads and writes those parts and says what can be wrong with them.
-/

namespace ByteStore.Wire

/-- What a record describes. -/
inductive Owner
  | operation
  | entry
  deriving DecidableEq, Repr

/-- Which of its byte strings. -/
inductive Half
  | key
  | value
  deriving DecidableEq, Repr

/-- A byte string of a record. -/
structure Field where
  owner : Owner
  half : Half
  deriving DecidableEq, Repr

/-- A part of a payload that can be cut off: a length word, or the bytes it announces. -/
inductive Part
  | length (field : Field)
  | body (field : Field)
  deriving DecidableEq, Repr

/-- Why a payload cannot be read or written. -/
inductive Fault
  /-- The payload ends inside a part. -/
  | truncated (part : Part) (need left : Nat)
  /-- A record starts with a number that marks no operation. -/
  | unknownOperation (code : UInt8)
  /-- A byte string is too long for its length word. -/
  | tooLong (half : Half) (length : Nat)
  deriving DecidableEq, Repr

/-! ### Wording -/

def Owner.name : Owner → String
  | .operation => "operation"
  | .entry => "entry"

def Half.name : Half → String
  | .key => "key"
  | .value => "value"

def Field.name (f : Field) : String := s!"{f.owner.name} {f.half.name}"

def Part.name : Part → String
  | .length f => s!"{f.name} length"
  | .body f => f.name

/-- The error a faulty payload leads to. -/
def Fault.toError : Fault → Error
  | .truncated p n m => .malformedInput s!"truncated {p.name}: need {n} bytes, have {m}"
  | .unknownOperation c => .unknownOperation c
  | .tooLong h n => .malformedInput s!"{h.name} of {n} bytes exceeds u32 length prefix"

/-! ### Reading -/

/-- Reads a length word. -/
def readLength (f : Field) : Bytes → Except Fault (Nat × Bytes)
  | a :: b :: c :: d :: rest => .ok (Word.read a b c d, rest)
  | short => .error (.truncated (.length f) 4 short.length)

/-- Reads the bytes that a length word announced. -/
def readBody (f : Field) (n : Nat) (data : Bytes) : Except Fault (Bytes × Bytes) :=
  let body := data.take n
  if body.length < n then .error (.truncated (.body f) n data.length)
  else .ok (body, data.drop n)

theorem readLength_eq_ok {f : Field} {data rest : Bytes} {n : Nat}
    (h : readLength f data = .ok (n, rest)) : data = Word.write n ++ rest ∧ n < Word.limit := by
  unfold readLength at h
  split at h
  · simp only [Except.ok.injEq, Prod.mk.injEq] at h
    obtain ⟨rfl, rfl⟩ := h
    exact ⟨by simp [Word.write_read], Word.read_lt ..⟩
  · simp at h

theorem readLength_write {f : Field} {n : Nat} (h : n < Word.limit) (rest : Bytes) :
    readLength f (Word.write n ++ rest) = .ok (n, rest) := by
  simp [readLength, Word.write, Word.read_write h]

theorem readBody_eq_ok {f : Field} {data body rest : Bytes} {n : Nat}
    (h : readBody f n data = .ok (body, rest)) : data = body ++ rest ∧ body.length = n := by
  unfold readBody at h
  dsimp only at h
  split at h
  · simp at h
  · rename_i hlen
    simp only [Except.ok.injEq, Prod.mk.injEq] at h
    obtain ⟨rfl, rfl⟩ := h
    refine ⟨(List.take_append_drop n data).symm, ?_⟩
    simp only [List.length_take] at hlen ⊢
    omega

theorem readBody_append {f : Field} (body rest : Bytes) :
    readBody f body.length (body ++ rest) = .ok (body, rest) := by
  simp [readBody]

/-! ### Writing -/

/-- The length word of a byte string. -/
def writeLength (h : Half) (b : Bytes) : Except Fault Bytes :=
  if b.length < Word.limit then .ok (Word.write b.length) else .error (.tooLong h b.length)

theorem writeLength_of_lt {h : Half} {b : Bytes} (hb : b.length < Word.limit) :
    writeLength h b = .ok (Word.write b.length) := by
  simp [writeLength, hb]

end ByteStore.Wire
