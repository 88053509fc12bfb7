import ByteStore.Proofs.Wire.Field
import ByteStore.Wire.Scan

/-!
# The scan format

`Scan.record` spells out the record of an entry. Exactly the entries that fit have one, and adding
them to a result puts their records after those that are there. A payload is accepted exactly if it
is a row of such records, and it is read as the entries in that row; so it is what these entries
add up to.
-/

namespace ByteStore

/-- Whether the byte strings of an entry are short enough for their length words. -/
def Entry.Fits (e : Entry) : Prop := e.key.length < Word.limit ∧ e.value.length < Word.limit

namespace Wire.Scan

/-! ### Writing -/

/-- The record of an entry, byte for byte. -/
def record (e : Entry) : Bytes :=
  Word.write e.key.length ++ Word.write e.value.length ++ e.key ++ e.value

lemma write_eq_ok_iff {e : Entry} {d : Bytes} : write e = .ok d ↔ e.Fits ∧ d = record e := by
  simp only [write, bind_eq_ok, writeLength_eq_ok_iff, Entry.Fits, record]
  constructor
  · rintro ⟨_, ⟨hkey, rfl⟩, _, ⟨hvalue, rfl⟩, h⟩
    cases h
    exact ⟨⟨hkey, hvalue⟩, rfl⟩
  · rintro ⟨⟨hkey, hvalue⟩, rfl⟩
    exact ⟨_, ⟨hkey, rfl⟩, _, ⟨hvalue, rfl⟩, rfl⟩

lemma append_eq_ok_iff {b b' : Buffer} {e : Entry} :
    b.append e = .ok b' ↔ e.Fits ∧ b' = ⟨record e :: b.records⟩ := by
  simp only [Buffer.append, bind_eq_ok, write_eq_ok_iff]
  constructor
  · rintro ⟨_, ⟨he, rfl⟩, h⟩
    cases h
    exact ⟨he, rfl⟩
  · rintro ⟨he, rfl⟩
    exact ⟨_, ⟨he, rfl⟩, rfl⟩

lemma append_of_fits {e : Entry} (he : e.Fits) (b : Buffer) :
    b.append e = .ok ⟨record e :: b.records⟩ :=
  append_eq_ok_iff.2 ⟨he, rfl⟩

/-- Exactly the entries that fit can be added to a result, whatever is in it. -/
lemma foldlM_append_eq_ok_iff {b b' : Buffer} {es : List Entry} :
    es.foldlM Buffer.append b = .ok b' ↔
      (∀ e ∈ es, e.Fits) ∧ b' = ⟨(es.map record).reverse ++ b.records⟩ := by
  induction es generalizing b with
  | nil => simp [pure, Except.pure, eq_comm]
  | cons e es ih =>
    simp only [List.foldlM_cons, bind_eq_ok, append_eq_ok_iff, ih, List.forall_mem_cons]
    rw [List.map_cons, List.reverse_cons, List.append_assoc, List.singleton_append]
    constructor
    · rintro ⟨_, ⟨he, rfl⟩, hes, rfl⟩
      exact ⟨⟨he, hes⟩, rfl⟩
    · rintro ⟨⟨he, hes⟩, rfl⟩
      exact ⟨_, ⟨he, rfl⟩, hes, rfl⟩

lemma bytes_eq_flatMap (es : List Entry) :
    Buffer.bytes ⟨(es.map record).reverse⟩ = es.flatMap record := by
  rw [Buffer.bytes, List.reverse_reverse, List.flatMap_def]

/-- Entries add up to their records, in order. -/
lemma exists_bytes_eq_iff {d : Bytes} {es : List Entry} :
    (∃ b, es.foldlM Buffer.append Buffer.empty = .ok b ∧ b.bytes = d) ↔
      (∀ e ∈ es, e.Fits) ∧ d = es.flatMap record := by
  simp only [foldlM_append_eq_ok_iff, Buffer.empty, List.append_nil]
  constructor
  · rintro ⟨_, ⟨hes, rfl⟩, rfl⟩
    exact ⟨hes, bytes_eq_flatMap es⟩
  · rintro ⟨hes, rfl⟩
    exact ⟨_, ⟨hes, rfl⟩, bytes_eq_flatMap es⟩

/-! ### Reading -/

lemma length_record (e : Entry) : (record e).length = 8 + e.key.length + e.value.length := by
  simp only [record, List.length_append, Word.length_write]

theorem read_eq_ok_iff {data rest : Bytes} {e : Entry} :
    read data = .ok (e, rest) ↔ e.Fits ∧ data = record e ++ rest := by
  simp only [read, bind_eq_ok, Prod.exists, readLength_eq_ok_iff, readBody_eq_ok_iff]
  constructor
  · rintro ⟨n, _, ⟨hkey, rfl⟩, m, _, ⟨hvalue, rfl⟩, key, _, ⟨rfl, rfl⟩, value, _, ⟨rfl, rfl⟩, h⟩
    cases h
    exact ⟨⟨hkey, hvalue⟩, by simp only [record, List.append_assoc]⟩
  · rintro ⟨⟨hkey, hvalue⟩, rfl⟩
    refine ⟨_, _, ⟨hkey, ?_⟩, _, _, ⟨hvalue, rfl⟩, _, _, ⟨rfl, rfl⟩, _, _, ⟨rfl, rfl⟩, rfl⟩
    simp only [record, List.append_assoc]

/-- No record is empty, not even that of an entry without bytes. -/
lemma flatMap_record_eq_nil_iff {es : List Entry} : es.flatMap record = [] ↔ es = [] := by
  constructor
  · intro h
    cases es with
    | nil => rfl
    | cons e es =>
      have hlength := congrArg List.length h
      rw [List.flatMap_cons, List.length_append, length_record, List.length_nil] at hlength
      omega
  · rintro rfl
    exact List.flatMap_nil

/-- A payload with an entry is read record by record. -/
lemma decode_eq_of_ne_nil {d : Bytes} (hd : d ≠ []) :
    decode d = match read d with
      | .error f => .error f
      | .ok (e, rest) => (decode rest).map (e :: ·) := by
  obtain ⟨b, bs, rfl⟩ := List.exists_cons_of_ne_nil hd
  rw [decode]
  split <;> rename_i h <;> simp only [h]

/-- A payload is accepted exactly if it is a row of records of entries that fit. -/
theorem decode_eq_ok_iff {d : Bytes} {es : List Entry} :
    decode d = .ok es ↔ (∀ e ∈ es, e.Fits) ∧ d = es.flatMap record := by
  constructor
  · intro h
    induction d using decode.induct generalizing es with
    | case1 =>
      rw [decode] at h
      cases h
      exact ⟨by simp, rfl⟩
    | case2 b bs f hread =>
      rw [decode_eq_of_ne_nil (List.cons_ne_nil b bs), hread] at h
      cases h
    | case3 b bs e rest hread _ ih =>
      rw [decode_eq_of_ne_nil (List.cons_ne_nil b bs), hread] at h
      obtain ⟨he, hrecord⟩ := read_eq_ok_iff.1 hread
      cases hrest : decode rest with
      | error f => simp [hrest, Except.map] at h
      | ok es' =>
        obtain ⟨hes, rfl⟩ := ih hrest
        simp only [hrest, Except.map, Except.ok.injEq] at h
        subst h
        exact ⟨List.forall_mem_cons.2 ⟨he, hes⟩, by rw [hrecord, List.flatMap_cons]⟩
  · rintro ⟨hes, rfl⟩
    induction es with
    | nil => rw [List.flatMap_nil, decode]
    | cons e es ih =>
      rw [List.forall_mem_cons] at hes
      have hne : (e :: es).flatMap record ≠ [] :=
        mt flatMap_record_eq_nil_iff.1 (List.cons_ne_nil e es)
      have hread : read ((e :: es).flatMap record) = .ok (e, es.flatMap record) :=
        read_eq_ok_iff.2 ⟨hes.1, List.flatMap_cons⟩
      rw [decode_eq_of_ne_nil hne, hread]
      simp only [ih hes.2]
      rfl

/-! ### Both ways -/

/--
Exactly the entries that fit can be added to a new result, one after the other. The result has no
bytes exactly if there were no entries, and a payload is what entries add up to exactly if it
decodes to them.
-/
theorem bytes_eq_iff_decode :
    (∀ es : List Entry, (∃ b, es.foldlM Buffer.append Buffer.empty = .ok b) ↔
        ∀ e ∈ es, e.Fits) ∧
      (∀ es b, es.foldlM Buffer.append Buffer.empty = .ok b → (b.bytes.isEmpty ↔ es = [])) ∧
      ∀ es d, (∃ b, es.foldlM Buffer.append Buffer.empty = .ok b ∧ b.bytes = d) ↔
        decode d = .ok es := by
  refine ⟨fun es => ⟨?_, fun hes => ?_⟩, fun es b hb => ?_, fun es d => ?_⟩
  · rintro ⟨b, hb⟩
    exact (foldlM_append_eq_ok_iff.1 hb).1
  · exact ⟨_, foldlM_append_eq_ok_iff.2 ⟨hes, rfl⟩⟩
  · obtain ⟨-, hbytes⟩ := exists_bytes_eq_iff.1 ⟨b, hb, rfl⟩
    rw [List.isEmpty_iff, hbytes, flatMap_record_eq_nil_iff]
  · rw [exists_bytes_eq_iff, decode_eq_ok_iff]

theorem bytes_eq_iff_decode_emptyEntry :
    ∃ b, [(⟨[], []⟩ : Entry)].foldlM Buffer.append Buffer.empty = .ok b ∧ ¬b.bytes.isEmpty ∧
      decode b.bytes = .ok [⟨[], []⟩] := by
  obtain ⟨hfits, hempty, hdecode⟩ := bytes_eq_iff_decode
  obtain ⟨b, hb⟩ :=
    (hfits [⟨[], []⟩]).2 (List.forall_mem_singleton.2 ⟨by decide, by decide⟩)
  refine ⟨b, hb, ?_, (hdecode _ _).1 ⟨b, hb, rfl⟩⟩
  rw [hempty _ b hb]
  exact List.cons_ne_nil _ _

end Wire.Scan

end ByteStore
