import ByteStore.Operation
import ByteStore.Wire.Field

/-!
# Batch payloads

A batch travels as the row of its operations. A record holds the operation's code, the length of the
key, the key and, if it sets a value, the length of the value and the value.
-/

namespace ByteStore.Wire.Batch

/-! ### Writing -/

/-- The record of an operation. -/
def write (op : Operation) : Except Fault Bytes := do
  let keyLength ← writeLength .key op.key
  match op with
  | .set key value =>
    let valueLength ← writeLength .value value
    return op.code :: keyLength ++ key ++ valueLength ++ value
  | .delete key => return op.code :: keyLength ++ key

/-- The payload of a list of operations. -/
def encode (ops : List Operation) : Except Fault Bytes := do
  let records ← ops.mapM write
  return records.flatten

/-! ### Reading -/

/-- Reads the record that follows an operation's code. -/
def read (code : UInt8) (data : Bytes) : Except Fault (Operation × Bytes) :=
  if code = 0 then do
    let (n, data) ← readLength ⟨.operation, .key⟩ data
    let (key, data) ← readBody ⟨.operation, .key⟩ n data
    let (n, data) ← readLength ⟨.operation, .value⟩ data
    let (value, data) ← readBody ⟨.operation, .value⟩ n data
    return (.set key value, data)
  else if code = 1 then do
    let (n, data) ← readLength ⟨.operation, .key⟩ data
    let (key, data) ← readBody ⟨.operation, .key⟩ n data
    return (.delete key, data)
  else
    .error (.unknownOperation code)

theorem length_read {code : UInt8} {data rest : Bytes} {op : Operation}
    (h : read code data = .ok (op, rest)) : rest.length ≤ data.length := by
  unfold read at h
  split at h
  · cases h1 : readLength ⟨.operation, .key⟩ data with
    | error f => simp [h1, bind, Except.bind] at h
    | ok r1 =>
      obtain ⟨n, d1⟩ := r1
      cases h2 : readBody ⟨.operation, .key⟩ n d1 with
      | error f => simp [h1, h2, bind, Except.bind] at h
      | ok r2 =>
        obtain ⟨key, d2⟩ := r2
        cases h3 : readLength ⟨.operation, .value⟩ d2 with
        | error f => simp [h1, h2, h3, bind, Except.bind] at h
        | ok r3 =>
          obtain ⟨m, d3⟩ := r3
          cases h4 : readBody ⟨.operation, .value⟩ m d3 with
          | error f => simp [h1, h2, h3, h4, bind, Except.bind] at h
          | ok r4 =>
            obtain ⟨value, d4⟩ := r4
            simp only [h1, h2, h3, h4, bind, Except.bind, pure, Except.pure, Except.ok.injEq,
              Prod.mk.injEq] at h
            obtain ⟨rfl, rfl⟩ := h
            simp [(readLength_eq_ok h1).1, (readBody_eq_ok h2).1, (readLength_eq_ok h3).1,
              (readBody_eq_ok h4).1]
            omega
  · split at h
    · cases h1 : readLength ⟨.operation, .key⟩ data with
      | error f => simp [h1, bind, Except.bind] at h
      | ok r1 =>
        obtain ⟨n, d1⟩ := r1
        cases h2 : readBody ⟨.operation, .key⟩ n d1 with
        | error f => simp [h1, h2, bind, Except.bind] at h
        | ok r2 =>
          obtain ⟨key, d2⟩ := r2
          simp only [h1, h2, bind, Except.bind, pure, Except.pure, Except.ok.injEq,
            Prod.mk.injEq] at h
          obtain ⟨rfl, rfl⟩ := h
          simp [(readLength_eq_ok h1).1, (readBody_eq_ok h2).1]
          omega
    · simp at h

/-- The operations of a payload. A single faulty record spoils all of it. -/
def decode : Bytes → Except Fault (List Operation)
  | [] => .ok []
  | code :: data =>
    match h : read code data with
    | .error f => .error f
    | .ok (op, rest) =>
      have : rest.length < (code :: data).length := Nat.lt_succ_of_le (length_read h)
      (decode rest).map (op :: ·)
termination_by data => data.length
decreasing_by exact this

end ByteStore.Wire.Batch
