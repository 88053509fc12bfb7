import ByteStore.Proofs.Wire.Batch
import ByteStore.Proofs.Wire.Cut

/-!
# Payloads that are rejected

A payload is rejected for where it ends, or for the code of a record that is none. `Batch.parts`
takes a record apart into its length words and the byte strings that these announce. A record that
ends inside one of them is rejected for just this part (`Batch.read_eq_error_iff`), and the bytes
that it lacks complete it. So a payload is malformed exactly if it stops inside a record.
-/

namespace ByteStore.Wire

variable {data : Bytes} {part : Part} {need left : Nat}

namespace Batch

/-! ### Records that are rejected -/

/-- What follows the code in the record of an operation, part by part. -/
def parts : Operation → List (Part × Bytes)
  | .set key value =>
    [(.length ⟨.operation, .key⟩, Word.write key.length), (.body ⟨.operation, .key⟩, key),
      (.length ⟨.operation, .value⟩, Word.write value.length), (.body ⟨.operation, .value⟩, value)]
  | .delete key =>
    [(.length ⟨.operation, .key⟩, Word.write key.length), (.body ⟨.operation, .key⟩, key)]

lemma record_eq (op : Operation) : record op = op.code :: Part.join (parts op) := by
  cases op <;> simp [record, parts, Operation.code]

lemma read_set_eq_error_iff {fault : Fault} :
    read 0 data = .error fault ↔ ∃ key value part need left, (Operation.set key value).Fits ∧
      EndsIn (parts (.set key value)) data part need left ∧
        fault = .truncated part need left := by
  simp only [read, if_true, bind_eq_error, Prod.exists, readLength_eq_ok_iff, readBody_eq_ok_iff,
    readLength_eq_error_iff, readBody_eq_error_iff, pure, Except.pure, reduceCtorEq, and_false,
    exists_false, or_false, parts, endsIn_cons_iff, not_endsIn_nil, Operation.fits_set_iff]
  constructor
  · rintro (⟨key, left, hkey, hleft, rfl, rfl⟩ | ⟨n, _, ⟨hkey, rfl⟩, h⟩)
    · exact ⟨key, [], _, _, left, ⟨hkey, by decide⟩, Or.inl ⟨rfl, rfl, hleft, rfl⟩, rfl⟩
    · rcases h with ⟨key, left, rfl, hleft, rfl, rfl⟩ | ⟨key, _, ⟨rfl, rfl⟩, h⟩
      · exact ⟨key, [], _, _, left, ⟨hkey, by decide⟩,
          Or.inr ⟨_, rfl, Or.inl ⟨rfl, rfl, hleft, rfl⟩⟩, rfl⟩
      · rcases h with ⟨value, left, hvalue, hleft, rfl, rfl⟩ | ⟨m, _, ⟨hvalue, rfl⟩, h⟩
        · exact ⟨key, value, _, _, left, ⟨hkey, hvalue⟩,
            Or.inr ⟨_, rfl, Or.inr ⟨_, rfl, Or.inl ⟨rfl, rfl, hleft, rfl⟩⟩⟩, rfl⟩
        · obtain ⟨value, left, rfl, hleft, rfl, rfl⟩ := h
          exact ⟨key, value, _, _, left, ⟨hkey, hvalue⟩, Or.inr ⟨_, rfl, Or.inr ⟨_, rfl,
            Or.inr ⟨_, rfl, rfl, rfl, hleft, rfl⟩⟩⟩, rfl⟩
  · rintro ⟨key, value, part, need, left, ⟨hkey, hvalue⟩, hends, rfl⟩
    rcases hends with ⟨rfl, rfl, hleft, rfl⟩ | ⟨_, rfl, hends⟩
    · exact Or.inl ⟨key, left, hkey, hleft, rfl, rfl⟩
    · refine Or.inr ⟨_, _, ⟨hkey, rfl⟩, ?_⟩
      rcases hends with ⟨rfl, rfl, hleft, rfl⟩ | ⟨_, rfl, hends⟩
      · exact Or.inl ⟨key, left, rfl, hleft, rfl, rfl⟩
      · refine Or.inr ⟨key, _, ⟨rfl, rfl⟩, ?_⟩
        rcases hends with ⟨rfl, rfl, hleft, rfl⟩ | ⟨_, rfl, rfl, rfl, hleft, rfl⟩
        · exact Or.inl ⟨value, left, hvalue, hleft, rfl, rfl⟩
        · exact Or.inr ⟨_, _, ⟨hvalue, rfl⟩, value, left, rfl, hleft, rfl, rfl⟩

lemma read_delete_eq_error_iff {fault : Fault} :
    read 1 data = .error fault ↔ ∃ key part need left, (Operation.delete key).Fits ∧
      EndsIn (parts (.delete key)) data part need left ∧ fault = .truncated part need left := by
  have hcode : (1 : UInt8) ≠ 0 := by decide
  simp only [read, if_neg hcode, if_true, bind_eq_error, Prod.exists, readLength_eq_ok_iff,
    readLength_eq_error_iff, readBody_eq_error_iff, pure, Except.pure, reduceCtorEq, and_false,
    exists_false, or_false, parts, endsIn_cons_iff, not_endsIn_nil, Operation.fits_delete_iff]
  constructor
  · rintro (⟨key, left, hkey, hleft, rfl, rfl⟩ | ⟨n, _, ⟨hkey, rfl⟩, h⟩)
    · exact ⟨key, _, _, left, hkey, Or.inl ⟨rfl, rfl, hleft, rfl⟩, rfl⟩
    · obtain ⟨key, left, rfl, hleft, rfl, rfl⟩ := h
      exact ⟨key, _, _, left, hkey, Or.inr ⟨_, rfl, rfl, rfl, hleft, rfl⟩, rfl⟩
  · rintro ⟨key, part, need, left, hkey, hends, rfl⟩
    rcases hends with ⟨rfl, rfl, hleft, rfl⟩ | ⟨_, rfl, rfl, rfl, hleft, rfl⟩
    · exact Or.inl ⟨key, left, hkey, hleft, rfl, rfl⟩
    · exact Or.inr ⟨_, _, ⟨hkey, rfl⟩, key, left, rfl, hleft, rfl, rfl⟩

/-- A record is rejected for its code if that marks no operation, or else for where it ends. -/
theorem read_eq_error_iff {code : UInt8} {fault : Fault} :
    read code data = .error fault ↔
      (code ≠ 0 ∧ code ≠ 1 ∧ fault = .unknownOperation code) ∨
        ∃ op part need left, op.Fits ∧ op.code = code ∧ EndsIn (parts op) data part need left ∧
          fault = .truncated part need left := by
  by_cases h0 : code = 0
  · subst h0
    rw [read_set_eq_error_iff]
    constructor
    · rintro ⟨key, value, part, need, left, hop, hends, hfault⟩
      exact Or.inr ⟨.set key value, part, need, left, hop, rfl, hends, hfault⟩
    · rintro (⟨h, -⟩ | ⟨op, part, need, left, hop, hcode, hends, hfault⟩)
      · exact absurd rfl h
      · cases op with
        | set key value => exact ⟨key, value, part, need, left, hop, hends, hfault⟩
        | delete key => cases hcode
  · by_cases h1 : code = 1
    · subst h1
      rw [read_delete_eq_error_iff]
      constructor
      · rintro ⟨key, part, need, left, hop, hends, hfault⟩
        exact Or.inr ⟨.delete key, part, need, left, hop, rfl, hends, hfault⟩
      · rintro (⟨-, h, -⟩ | ⟨op, part, need, left, hop, hcode, hends, hfault⟩)
        · exact absurd rfl h
        · cases op with
          | set key value => cases hcode
          | delete key => exact ⟨key, part, need, left, hop, hends, hfault⟩
    · rw [read_unknown h0 h1]
      constructor
      · intro h
        cases h
        exact Or.inl ⟨h0, h1, rfl⟩
      · rintro (⟨-, -, rfl⟩ | ⟨op, part, need, left, -, hcode, -⟩)
        · rfl
        · cases op with
          | set key value => exact absurd hcode.symm h0
          | delete key => exact absurd hcode.symm h1

/-! ### Payloads with a rest -/

/-- Records in front are read as their operations, and the rest as it is on its own. -/
theorem decode_append {ops : List Operation} (hops : ∀ op ∈ ops, op.Fits) (rest : Bytes) :
    decode (ops.flatMap record ++ rest) = (decode rest).map (ops ++ ·) := by
  induction ops with
  | nil => cases h : decode rest <;> simp [h, Except.map]
  | cons op ops ih =>
    rw [List.forall_mem_cons] at hops
    have hread : read op.code (Part.join (parts op) ++ (ops.flatMap record ++ rest))
        = .ok (op, ops.flatMap record ++ rest) :=
      read_eq_ok_iff.2 ⟨hops.1, by rw [record_eq, List.cons_append]⟩
    rw [List.flatMap_cons, record_eq, List.cons_append, List.cons_append, List.append_assoc,
      decode_cons, hread]
    dsimp only
    rw [ih hops.2]
    cases decode rest <;> rfl

/-- A payload is rejected for the first record in it that is. -/
lemma decode_eq_error_iff {d : Bytes} {fault : Fault} :
    decode d = .error fault ↔ ∃ (ops : List Operation) (code : UInt8) (data : Bytes),
      (∀ op ∈ ops, op.Fits) ∧ d = ops.flatMap record ++ code :: data ∧
        read code data = .error fault := by
  constructor
  · intro h
    induction d using decode.induct with
    | case1 =>
      rw [decode] at h
      cases h
    | case2 code data f hread =>
      rw [decode_cons, hread] at h
      cases h
      exact ⟨[], code, data, by simp, rfl, hread⟩
    | case3 code data op rest hread _ ih =>
      rw [decode_cons, hread] at h
      have hrest : decode rest = .error fault := by
        cases hrest : decode rest with
        | error f => simpa [hrest, Except.map] using h
        | ok ops => simp [hrest, Except.map] at h
      obtain ⟨hop, hrecord⟩ := read_eq_ok_iff.1 hread
      obtain ⟨ops, code', data', hops, rfl, hfault⟩ := ih hrest
      refine ⟨op :: ops, code', data', List.forall_mem_cons.2 ⟨hop, hops⟩, ?_, hfault⟩
      rw [hrecord, List.flatMap_cons, List.append_assoc]
  · rintro ⟨ops, code, data, hops, rfl, hread⟩
    rw [decode_append hops, decode_cons, hread]
    rfl

/-! ### Why payloads are rejected -/

/-- Whether a payload is rejected with an error. -/
def Rejects (d : Bytes) (e : Error) : Prop := ∃ fault, decode d = .error fault ∧ fault.toError = e

variable {d : Bytes}

lemma rejects_unknown_iff {c : UInt8} :
    Rejects d (.unknownOperation c) ↔ ∃ (ops : List Operation) (rest : Bytes),
      (∀ op ∈ ops, op.Fits) ∧ c ≠ 0 ∧ c ≠ 1 ∧ d = ops.flatMap record ++ c :: rest := by
  constructor
  · rintro ⟨fault, hfault, herror⟩
    obtain ⟨ops, code, data, hops, rfl, hread⟩ := decode_eq_error_iff.1 hfault
    rcases read_eq_error_iff.1 hread with ⟨h0, h1, rfl⟩ | ⟨op, part, need, left, -, -, -, rfl⟩
    · cases herror
      exact ⟨ops, data, hops, h0, h1, rfl⟩
    · cases herror
  · rintro ⟨ops, rest, hops, h0, h1, rfl⟩
    exact ⟨_, decode_eq_error_iff.2 ⟨ops, c, rest, hops, rfl, read_unknown h0 h1 rest⟩, rfl⟩

/-- A payload that ends inside a part of a record is rejected for this part. -/
lemma rejects_endsIn {ops : List Operation} (hops : ∀ op ∈ ops, op.Fits) {op : Operation}
    (hop : op.Fits) (h : EndsIn (parts op) data part need left) :
    Rejects (ops.flatMap record ++ op.code :: data)
      (.malformedInput s!"truncated {part.name}: need {need} bytes, have {left}") := by
  refine ⟨.truncated part need left, decode_eq_error_iff.2 ⟨ops, op.code, data, hops, rfl, ?_⟩, rfl⟩
  exact read_eq_error_iff.2 (Or.inr ⟨op, part, need, left, hop, rfl, h, rfl⟩)

/-- Whether a payload stops inside a record, of which it has the beginning. -/
def StopsInside (d : Bytes) : Prop :=
  ∃ (ops : List Operation) (op : Operation) (front back : Bytes), (∀ op ∈ ops, op.Fits) ∧
    op.Fits ∧ front ≠ [] ∧ back ≠ [] ∧ front ++ back = record op ∧ d = ops.flatMap record ++ front

lemma exists_rejects_malformed_iff :
    (∃ reason, Rejects d (.malformedInput reason)) ↔ StopsInside d := by
  constructor
  · rintro ⟨reason, fault, hfault, herror⟩
    obtain ⟨ops, code, data, hops, rfl, hread⟩ := decode_eq_error_iff.1 hfault
    rcases read_eq_error_iff.1 hread with ⟨-, -, rfl⟩ | ⟨op, part, need, left, hop, rfl, hends, -⟩
    · cases herror
    · obtain ⟨tail, htail, heq⟩ := exists_endsIn_iff.1 ⟨part, need, left, hends⟩
      refine ⟨ops, op, op.code :: data, tail, hops, hop, List.cons_ne_nil _ _, htail, ?_, rfl⟩
      rw [record_eq, List.cons_append, heq]
  · rintro ⟨ops, op, front, back, hops, hop, hfront, hback, heq, rfl⟩
    obtain ⟨code, data, rfl⟩ := List.exists_cons_of_ne_nil hfront
    rw [record_eq, List.cons_append, List.cons.injEq] at heq
    obtain ⟨rfl, heq⟩ := heq
    obtain ⟨part, need, left, hends⟩ := exists_endsIn_iff.2 ⟨back, hback, heq⟩
    exact ⟨_, rejects_endsIn hops hop hends⟩

/-- What stops inside a record is completed by the rest of this record. -/
lemma StopsInside.exists_decode_append (h : StopsInside d) :
    ∃ t ops, decode (d ++ t) = .ok ops := by
  obtain ⟨ops, op, front, back, hops, hop, -, -, heq, rfl⟩ := h
  refine ⟨back, ops ++ [op], decode_eq_ok_iff.2 ⟨?_, ?_⟩⟩
  · rw [List.forall_mem_append]
    exact ⟨hops, by simpa using hop⟩
  · rw [List.flatMap_append, List.flatMap_singleton, List.append_assoc, heq]

lemma Rejects.not_accepted {e : Error} (h : Rejects d e) (ops : List Operation) :
    decode d ≠ .ok ops := by
  obtain ⟨fault, hfault, -⟩ := h
  simp [hfault]

/-- A code that marks no operation spoils every payload that goes on after it. -/
lemma Rejects.unknown_append {c : UInt8} (h : Rejects d (.unknownOperation c)) (t : Bytes) :
    Rejects (d ++ t) (.unknownOperation c) := by
  obtain ⟨ops, rest, hops, h0, h1, rfl⟩ := rejects_unknown_iff.1 h
  refine rejects_unknown_iff.2 ⟨ops, rest ++ t, hops, h0, h1, ?_⟩
  rw [List.append_assoc, List.cons_append]

/-- A rejected payload has an unknown code or stops inside a record. -/
lemma rejects_unknown_or_stopsInside {fault : Fault} (h : decode d = .error fault) :
    (∃ c, Rejects d (.unknownOperation c)) ∨ StopsInside d := by
  obtain ⟨ops, code, data, hops, rfl, hread⟩ := decode_eq_error_iff.1 h
  rcases read_eq_error_iff.1 hread with ⟨-, -, rfl⟩ | ⟨op, part, need, left, hop, rfl, hends, -⟩
  · exact Or.inl ⟨code, _, h, rfl⟩
  · exact Or.inr (exists_rejects_malformed_iff.1 ⟨_, rejects_endsIn hops hop hends⟩)

/--
How a payload is rejected. What stands after a batch is read as it is on its own. An unknown
operation is a code other than `0` and `1` right after a batch, and nothing that follows mends it.
A payload is malformed exactly if it is not accepted but could go on to one that is, that is, if it
stops inside a record.
-/
theorem rejection_classified :
    (∀ ops : List Operation, (∀ op ∈ ops, op.Fits) → ∃ e, encode ops = .ok e ∧
      ∀ t, decode (e ++ t) = (decode t).map (ops ++ ·)) ∧
    (∀ (d : Bytes) (c : UInt8), Rejects d (.unknownOperation c) ↔
      ∃ ops e rest, encode ops = .ok e ∧ c ≠ 0 ∧ c ≠ 1 ∧ d = e ++ c :: rest) ∧
    (∀ (d : Bytes) (c : UInt8), Rejects d (.unknownOperation c) →
      ∀ t, Rejects (d ++ t) (.unknownOperation c)) ∧
    (∀ d : Bytes, (∃ reason, Rejects d (.malformedInput reason)) ↔
      (∀ ops, decode d ≠ .ok ops) ∧ ∃ t ops, decode (d ++ t) = .ok ops) ∧
    ∀ d : Bytes, (∃ reason, Rejects d (.malformedInput reason)) ↔ StopsInside d := by
  refine ⟨fun ops hops => ?_, fun d c => ?_, fun d c h t => h.unknown_append t, fun d => ?_,
    fun d => exists_rejects_malformed_iff⟩
  · exact ⟨_, encode_eq_ok_iff.2 ⟨hops, rfl⟩, decode_append hops⟩
  · rw [rejects_unknown_iff]
    constructor
    · rintro ⟨ops, rest, hops, h0, h1, hd⟩
      exact ⟨ops, _, rest, encode_eq_ok_iff.2 ⟨hops, rfl⟩, h0, h1, hd⟩
    · rintro ⟨ops, e, rest, he, h0, h1, hd⟩
      obtain ⟨hops, rfl⟩ := encode_eq_ok_iff.1 he
      exact ⟨ops, rest, hops, h0, h1, hd⟩
  · constructor
    · rintro ⟨reason, h⟩
      exact ⟨h.not_accepted, (exists_rejects_malformed_iff.1 ⟨reason, h⟩).exists_decode_append⟩
    · rintro ⟨hd, t, ops, ht⟩
      cases hdecode : decode d with
      | ok ops' => exact absurd hdecode (hd ops')
      | error fault =>
        rcases rejects_unknown_or_stopsInside hdecode with ⟨c, h⟩ | h
        · exact absurd ht ((h.unknown_append t).not_accepted ops)
        · exact exists_rejects_malformed_iff.2 h

/-- A number inside a key is no code; after the record it is one, known or not. -/
theorem rejection_classified_after_set :
    decode ([0, 1, 0, 0, 0, 7, 0, 0, 0, 0] ++ [1, 0, 0, 0, 0])
        = .ok [.set [7] [], .delete []] ∧
      (∀ t, Rejects ([0, 1, 0, 0, 0, 7, 0, 0, 0, 0] ++ 7 :: [1] ++ t) (.unknownOperation 7)) ∧
      ∃ reason, Rejects ([0, 1, 0, 0, 0, 7, 0, 0, 0, 0] ++ [1]) (.malformedInput reason) := by
  obtain ⟨hdecode, hunknown, hstays, hmalformed, -⟩ := rejection_classified
  have hset : encode [.set [7] []] = .ok [0, 1, 0, 0, 0, 7, 0, 0, 0, 0] := rfl
  have hdelete : decode [1, 0, 0, 0, 0] = .ok [.delete []] :=
    decode_eq_ok_iff.2 ⟨by decide, rfl⟩
  obtain ⟨e, he, happend⟩ := hdecode [.set [7] []] (by decide)
  obtain rfl : [0, 1, 0, 0, 0, 7, 0, 0, 0, 0] = e := Except.ok.inj (hset.symm.trans he)
  refine ⟨?_, hstays _ 7 ((hunknown _ 7).2 ⟨_, _, [1], hset, by decide, by decide, rfl⟩), ?_⟩
  · rw [happend, hdelete]
    rfl
  · refine (hmalformed _).2 ⟨fun ops => ?_, [0, 0, 0, 0], [.set [7] [], .delete []], ?_⟩
    · have hcut : decode [1] = .error (.truncated (.length ⟨.operation, .key⟩) 4 0) :=
        decode_eq_error_iff.2 ⟨[], 1, [], by simp, rfl, rfl⟩
      rw [happend, hcut]
      exact fun h => by cases h
    · rw [List.append_assoc, happend]
      exact congrArg _ hdelete

end Batch

end ByteStore.Wire
