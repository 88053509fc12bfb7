import ByteStore.Wire.Field
import Mathlib.Tactic.Common

/-!
# Reading and writing fields

A field is read exactly where it has been written: `readLength` takes the words of `Word.write` and
nothing else, and `readBody` takes as many bytes as were announced. Where there are too few bytes,
the fault says how many are needed and how many are left.
-/

namespace ByteStore.Wire

/-- A row of steps succeeds if the first one does, and then the rest with what it yields. -/
lemma bind_eq_ok {φ α β : Type} {step : Except φ α} {next : α → Except φ β} {b : β} :
    step >>= next = .ok b ↔ ∃ a, step = .ok a ∧ next a = .ok b := by
  match step with
  | .ok a => simp [bind, Except.bind]
  | .error f => simp [bind, Except.bind]

/-- A row of steps fails if the first one does, or else the rest with what it yields. -/
lemma bind_eq_error {φ α β : Type} {step : Except φ α} {next : α → Except φ β} {f : φ} :
    step >>= next = .error f ↔ step = .error f ∨ ∃ a, step = .ok a ∧ next a = .error f := by
  match step with
  | .ok a => simp [bind, Except.bind]
  | .error g => simp [bind, Except.bind]

lemma writeLength_eq_ok_iff {h : Half} {b word : Bytes} :
    writeLength h b = .ok word ↔ b.length < Word.limit ∧ word = Word.write b.length := by
  rw [writeLength]
  split_ifs with hb
  · simp [hb, eq_comm]
  · simp [hb]

lemma readLength_eq_ok_iff {f : Field} {data rest : Bytes} {n : Nat} :
    readLength f data = .ok (n, rest) ↔ n < Word.limit ∧ data = Word.write n ++ rest := by
  constructor
  · intro h
    exact (readLength_eq_ok h).symm
  · rintro ⟨hn, rfl⟩
    exact readLength_write hn rest

lemma readBody_eq_ok_iff {f : Field} {data body rest : Bytes} {n : Nat} :
    readBody f n data = .ok (body, rest) ↔ body.length = n ∧ data = body ++ rest := by
  constructor
  · intro h
    exact (readBody_eq_ok h).symm
  · rintro ⟨rfl, rfl⟩
    exact readBody_append body rest

/-- Too few bytes for a length word are the beginning of some length word. -/
lemma readLength_eq_error_iff {f : Field} {data : Bytes} {fault : Fault} :
    readLength f data = .error fault ↔ ∃ (b : Bytes) (left : Nat), b.length < Word.limit ∧
      left < 4 ∧ data = (Word.write b.length).take left ∧
        fault = .truncated (.length f) 4 left := by
  constructor
  · intro h
    obtain ⟨a, b, c, d, left, hleft, rfl, rfl⟩ : ∃ a b c d left, left < 4 ∧
        data = [a, b, c, d].take left ∧ fault = .truncated (.length f) 4 left := by
      match data with
      | [] =>
        cases h
        exact ⟨0, 0, 0, 0, 0, by decide, rfl, rfl⟩
      | [a] =>
        cases h
        exact ⟨a, 0, 0, 0, 1, by decide, rfl, rfl⟩
      | [a, b] =>
        cases h
        exact ⟨a, b, 0, 0, 2, by decide, rfl, rfl⟩
      | [a, b, c] =>
        cases h
        exact ⟨a, b, c, 0, 3, by decide, rfl, rfl⟩
      | a :: b :: c :: d :: rest => cases h
    refine ⟨List.replicate (Word.read a b c d) 0, left, ?_, hleft, ?_, rfl⟩
    · rw [List.length_replicate]
      exact Word.read_lt a b c d
    · rw [List.length_replicate, Word.write_read]
  · rintro ⟨b, left, -, hleft, rfl, rfl⟩
    match left, hleft with
    | 0, _ | 1, _ | 2, _ | 3, _ => rfl

/-- Too few bytes are the beginning of some byte string of the announced length. -/
lemma readBody_eq_error_iff {f : Field} {n : Nat} {data : Bytes} {fault : Fault} :
    readBody f n data = .error fault ↔ ∃ (b : Bytes) (left : Nat), b.length = n ∧ left < n ∧
      data = b.take left ∧ fault = .truncated (.body f) n left := by
  have hshort : (data.take n).length < n ↔ data.length < n := by
    rw [List.length_take]
    omega
  simp only [readBody, hshort]
  constructor
  · intro h
    split_ifs at h with hlt
    cases h
    refine ⟨data ++ List.replicate (n - data.length) 0, data.length, ?_, hlt, ?_, rfl⟩
    · rw [List.length_append, List.length_replicate]
      omega
    · rw [List.take_left]
  · rintro ⟨b, left, rfl, hleft, rfl, rfl⟩
    rw [List.length_take_of_le (Nat.le_of_lt hleft), if_pos hleft]

end ByteStore.Wire
