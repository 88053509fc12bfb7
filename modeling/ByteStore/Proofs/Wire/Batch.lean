import ByteStore.Proofs.Wire.Field
import ByteStore.Wire.Batch

/-!
# The batch format

`Batch.record` spells out the record of an operation. A payload is accepted exactly if it is a row
of such records, and it then stands for the operations in that row, so that `Batch.encode` and
`Batch.decode` are inverse to each other.
-/

namespace ByteStore

/-- Whether the byte strings of an operation are short enough for their length words. -/
def Operation.Fits (op : Operation) : Prop :=
  op.key.length < Word.limit ∧ ∀ value ∈ op.value?, value.length < Word.limit

instance (op : Operation) : Decidable op.Fits :=
  inferInstanceAs (Decidable (_ ∧ ∀ value ∈ op.value?, value.length < Word.limit))

lemma Operation.fits_set_iff {key value : Bytes} :
    (set key value).Fits ↔ key.length < Word.limit ∧ value.length < Word.limit := by
  simp [Fits]

lemma Operation.fits_delete_iff {key : Bytes} : (delete key).Fits ↔ key.length < Word.limit := by
  simp [Fits]

namespace Wire.Batch

/-- The record of an operation, byte for byte. -/
def record : Operation → Bytes
  | .set key value =>
    0 :: (Word.write key.length ++ key ++ (Word.write value.length ++ value))
  | .delete key => 1 :: (Word.write key.length ++ key)

lemma exists_record_eq_cons (op : Operation) : ∃ tail, record op = op.code :: tail := by
  cases op <;> exact ⟨_, rfl⟩

/-! ### Writing -/

lemma write_eq_ok_iff {op : Operation} {d : Bytes} :
    write op = .ok d ↔ op.Fits ∧ d = record op := by
  cases op with
  | set key value =>
    simp only [write, bind_eq_ok, writeLength_eq_ok_iff, Operation.fits_set_iff, record]
    simp [pure, Except.pure, Operation.code, eq_comm, and_assoc]
  | delete key =>
    simp only [write, bind_eq_ok, writeLength_eq_ok_iff, Operation.fits_delete_iff, record]
    simp [pure, Except.pure, Operation.code, eq_comm]

lemma mapM_write_eq_ok_iff {ops : List Operation} {records : List Bytes} :
    ops.mapM write = .ok records ↔ (∀ op ∈ ops, op.Fits) ∧ records = ops.map record := by
  induction ops generalizing records with
  | nil => simp [pure, Except.pure, eq_comm]
  | cons op ops ih =>
    simp only [List.mapM_cons, bind_eq_ok, write_eq_ok_iff, ih, List.forall_mem_cons, List.map_cons]
    constructor
    · rintro ⟨_, ⟨hop, rfl⟩, _, ⟨hops, rfl⟩, h⟩
      cases h
      exact ⟨⟨hop, hops⟩, rfl⟩
    · rintro ⟨⟨hop, hops⟩, rfl⟩
      exact ⟨_, ⟨hop, rfl⟩, _, ⟨hops, rfl⟩, rfl⟩

/-- Exactly the operations that fit can be encoded, each as its record. -/
theorem encode_eq_ok_iff {ops : List Operation} {d : Bytes} :
    encode ops = .ok d ↔ (∀ op ∈ ops, op.Fits) ∧ d = ops.flatMap record := by
  simp only [encode, bind_eq_ok, mapM_write_eq_ok_iff]
  constructor
  · rintro ⟨_, ⟨hops, rfl⟩, h⟩
    cases h
    exact ⟨hops, by rw [List.flatMap_def]⟩
  · rintro ⟨hops, rfl⟩
    exact ⟨_, ⟨hops, rfl⟩, by rw [List.flatMap_def]; rfl⟩

/-! ### Reading -/

lemma read_set_eq_ok_iff {data rest : Bytes} {op : Operation} :
    read 0 data = .ok (op, rest) ↔ ∃ key value, op = .set key value ∧ op.Fits ∧
      data = Word.write key.length ++ (key ++ (Word.write value.length ++ (value ++ rest))) := by
  simp only [read, if_true, bind_eq_ok, Prod.exists, readLength_eq_ok_iff, readBody_eq_ok_iff]
  constructor
  · rintro ⟨n, _, ⟨hn, rfl⟩, key, _, ⟨rfl, rfl⟩, m, _, ⟨hm, rfl⟩, value, _, ⟨rfl, rfl⟩, h⟩
    cases h
    exact ⟨key, value, rfl, Operation.fits_set_iff.2 ⟨hn, hm⟩, rfl⟩
  · rintro ⟨key, value, rfl, hop, rfl⟩
    obtain ⟨hn, hm⟩ := Operation.fits_set_iff.1 hop
    exact ⟨_, _, ⟨hn, rfl⟩, _, _, ⟨rfl, rfl⟩, _, _, ⟨hm, rfl⟩, _, _, ⟨rfl, rfl⟩, rfl⟩

lemma read_delete_eq_ok_iff {data rest : Bytes} {op : Operation} :
    read 1 data = .ok (op, rest) ↔ ∃ key, op = .delete key ∧ op.Fits ∧
      data = Word.write key.length ++ (key ++ rest) := by
  have hcode : (1 : UInt8) ≠ 0 := by decide
  simp only [read, if_neg hcode, if_true, bind_eq_ok, Prod.exists, readLength_eq_ok_iff,
    readBody_eq_ok_iff]
  constructor
  · rintro ⟨n, _, ⟨hn, rfl⟩, key, _, ⟨rfl, rfl⟩, h⟩
    cases h
    exact ⟨key, rfl, Operation.fits_delete_iff.2 hn, rfl⟩
  · rintro ⟨key, rfl, hop, rfl⟩
    exact ⟨_, _, ⟨Operation.fits_delete_iff.1 hop, rfl⟩, _, _, ⟨rfl, rfl⟩, rfl⟩

lemma read_unknown {code : UInt8} (h0 : code ≠ 0) (h1 : code ≠ 1) (data : Bytes) :
    read code data = .error (.unknownOperation code) := by
  rw [read, if_neg h0, if_neg h1]

/-- A code with what follows it reads as an operation exactly if both start with its record. -/
theorem read_eq_ok_iff {code : UInt8} {data rest : Bytes} {op : Operation} :
    read code data = .ok (op, rest) ↔ op.Fits ∧ code :: data = record op ++ rest := by
  by_cases h0 : code = 0
  · subst h0
    rw [read_set_eq_ok_iff]
    constructor
    · rintro ⟨key, value, rfl, hop, rfl⟩
      exact ⟨hop, by simp [record]⟩
    · rintro ⟨hop, h⟩
      cases op with
      | set key value => exact ⟨key, value, rfl, hop, by simpa [record] using h⟩
      | delete key => simp [record] at h
  · by_cases h1 : code = 1
    · subst h1
      rw [read_delete_eq_ok_iff]
      constructor
      · rintro ⟨key, rfl, hop, rfl⟩
        exact ⟨hop, by simp [record]⟩
      · rintro ⟨hop, h⟩
        cases op with
        | set key value => simp [record] at h
        | delete key => exact ⟨key, rfl, hop, by simpa [record] using h⟩
    · rw [read_unknown h0 h1]
      cases op <;> simp [record, h0, h1]

lemma decode_cons (code : UInt8) (data : Bytes) :
    decode (code :: data) = match read code data with
      | .error f => .error f
      | .ok (op, rest) => (decode rest).map (op :: ·) := by
  rw [decode]
  split <;> rename_i h <;> simp only [h]

lemma decode_cons_eq_ok_iff {code : UInt8} {data : Bytes} {ops : List Operation} :
    decode (code :: data) = .ok ops ↔
      ∃ op rest ops', read code data = .ok (op, rest) ∧ decode rest = .ok ops' ∧
        ops = op :: ops' := by
  rw [decode_cons]
  cases read code data with
  | error f => simp
  | ok r =>
    obtain ⟨op, rest⟩ := r
    cases hrest : decode rest with
    | error f => simp [hrest, Except.map]
    | ok ops' => simp [hrest, Except.map, eq_comm]

/-- A payload is accepted exactly if it is a row of records of operations that fit. -/
theorem decode_eq_ok_iff {d : Bytes} {ops : List Operation} :
    decode d = .ok ops ↔ (∀ op ∈ ops, op.Fits) ∧ d = ops.flatMap record := by
  constructor
  · intro h
    -- A reading takes a whole record off, so the induction is on the number of bytes.
    induction hd : d.length using Nat.strongRecOn generalizing d ops with
    | ind n ih =>
      cases d with
      | nil =>
        rw [decode] at h
        cases h
        exact ⟨by simp, rfl⟩
      | cons code data =>
        obtain ⟨op, rest, ops', hread, hrest, rfl⟩ := decode_cons_eq_ok_iff.1 h
        obtain ⟨hop, hrecord⟩ := read_eq_ok_iff.1 hread
        have hlt : rest.length < n := hd ▸ Nat.lt_succ_of_le (length_read hread)
        obtain ⟨hops, rfl⟩ := ih _ hlt hrest rfl
        exact ⟨List.forall_mem_cons.2 ⟨hop, hops⟩, by rw [hrecord, List.flatMap_cons]⟩
  · rintro ⟨hops, rfl⟩
    induction ops with
    | nil => rw [List.flatMap_nil, decode]
    | cons op ops ih =>
      rw [List.forall_mem_cons] at hops
      obtain ⟨tail, htail⟩ := exists_record_eq_cons op
      rw [List.flatMap_cons, htail, List.cons_append, decode_cons_eq_ok_iff]
      refine ⟨op, ops.flatMap record, ops, ?_, ih hops.2, rfl⟩
      exact read_eq_ok_iff.2 ⟨hops.1, by rw [htail, List.cons_append]⟩

/--
The operations that can be encoded are those that fit, and a payload encodes a list of operations
exactly if it decodes to it. So no payload has two readings, and no batch two encodings.
-/
theorem encode_eq_ok_iff_decode :
    (∀ ops, (∃ d, encode ops = .ok d) ↔ ∀ op ∈ ops, op.Fits) ∧
      ∀ ops d, encode ops = .ok d ↔ decode d = .ok ops := by
  refine ⟨fun ops => ⟨?_, fun hops => ?_⟩, fun ops d => ?_⟩
  · rintro ⟨d, hd⟩
    exact (encode_eq_ok_iff.1 hd).1
  · exact ⟨_, encode_eq_ok_iff.2 ⟨hops, rfl⟩⟩
  · rw [encode_eq_ok_iff, decode_eq_ok_iff]

end Wire.Batch

end ByteStore
