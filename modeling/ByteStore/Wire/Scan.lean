import ByteStore.Operation
import ByteStore.Wire.Field

/-!
# Scan results

The entries of a scan travel as a row of records. A record holds the length of the key, the length
of the value, the key and the value.
-/

namespace ByteStore.Wire.Scan

/-! ### Writing -/

/-- The record of an entry. -/
def write (e : Entry) : Except Fault Bytes := do
  let keyLength ← writeLength .key e.key
  let valueLength ← writeLength .value e.value
  return keyLength ++ valueLength ++ e.key ++ e.value

/-- A result under construction: the records so far, the latest first. -/
structure Buffer where
  records : List Bytes
  deriving DecidableEq, Repr

namespace Buffer

/-- A result without entries. -/
def empty : Buffer := ⟨[]⟩

/-- Adds the record of an entry. There is room for every record: memory does not run out here. -/
def append (b : Buffer) (e : Entry) : Except Fault Buffer := do
  let record ← write e
  return ⟨record :: b.records⟩

/-- The records in the order in which they came. -/
def bytes (b : Buffer) : Bytes := b.records.reverse.flatten

@[simp] theorem bytes_empty : empty.bytes = [] := rfl

theorem bytes_append {b b' : Buffer} {e : Entry} {record : Bytes} (hw : write e = .ok record)
    (h : b.append e = .ok b') : b'.bytes = b.bytes ++ record := by
  simp only [append, hw, bind, Except.bind, pure, Except.pure, Except.ok.injEq] at h
  subst h
  simp [bytes]

end Buffer

/-- The payload of a list of entries. -/
def encode (entries : List Entry) : Except Fault Bytes := do
  let buffer ← entries.foldlM Buffer.append Buffer.empty
  return buffer.bytes

/-! ### Reading -/

/-- Reads one record. -/
def read (data : Bytes) : Except Fault (Entry × Bytes) := do
  let (n, data) ← readLength ⟨.entry, .key⟩ data
  let (m, data) ← readLength ⟨.entry, .value⟩ data
  let (key, data) ← readBody ⟨.entry, .key⟩ n data
  let (value, data) ← readBody ⟨.entry, .value⟩ m data
  return (⟨key, value⟩, data)

theorem length_read {data rest : Bytes} {e : Entry} (h : read data = .ok (e, rest)) :
    rest.length < data.length := by
  unfold read at h
  cases h1 : readLength ⟨.entry, .key⟩ data with
  | error f => simp [h1, bind, Except.bind] at h
  | ok r1 =>
    obtain ⟨n, d1⟩ := r1
    cases h2 : readLength ⟨.entry, .value⟩ d1 with
    | error f => simp [h1, h2, bind, Except.bind] at h
    | ok r2 =>
      obtain ⟨m, d2⟩ := r2
      cases h3 : readBody ⟨.entry, .key⟩ n d2 with
      | error f => simp [h1, h2, h3, bind, Except.bind] at h
      | ok r3 =>
        obtain ⟨key, d3⟩ := r3
        cases h4 : readBody ⟨.entry, .value⟩ m d3 with
        | error f => simp [h1, h2, h3, h4, bind, Except.bind] at h
        | ok r4 =>
          obtain ⟨value, d4⟩ := r4
          simp only [h1, h2, h3, h4, bind, Except.bind, pure, Except.pure, Except.ok.injEq,
            Prod.mk.injEq] at h
          obtain ⟨rfl, rfl⟩ := h
          simp [(readLength_eq_ok h1).1, (readLength_eq_ok h2).1, (readBody_eq_ok h3).1,
            (readBody_eq_ok h4).1]
          omega

/-- The entries of a payload. -/
def decode : Bytes → Except Fault (List Entry)
  | [] => .ok []
  | b :: bs =>
    match h : read (b :: bs) with
    | .error f => .error f
    | .ok (e, rest) =>
      have := length_read h
      (decode rest).map (e :: ·)
termination_by data => data.length
decreasing_by exact this

end ByteStore.Wire.Scan
