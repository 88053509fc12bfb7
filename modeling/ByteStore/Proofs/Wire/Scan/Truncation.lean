import ByteStore.Proofs.Wire.Cut
import ByteStore.Proofs.Wire.Scan

/-!
# Scan results that are cut

A scan result has no codes, so there is one thing that can be wrong with it: that it stops inside a
record. The bytes that this record lacks then complete it, and what stands after whole records is
read as it is on its own.
-/

namespace ByteStore.Wire.Scan

variable {d data : Bytes} {es : List Entry} {fault : Fault}

/-! ### Records that are cut -/

/-- The record of an entry, part by part. -/
def parts (e : Entry) : List (Part × Bytes) :=
  [(.length ⟨.entry, .key⟩, Word.write e.key.length),
    (.length ⟨.entry, .value⟩, Word.write e.value.length),
    (.body ⟨.entry, .key⟩, e.key), (.body ⟨.entry, .value⟩, e.value)]

lemma join_parts (e : Entry) : Part.join (parts e) = record e := by
  simp [parts, record]

/-- Bytes are no record exactly if they end inside a part of one. -/
theorem read_eq_error_iff : read data = .error fault ↔ ∃ e part need left, Entry.Fits e ∧
    EndsIn (parts e) data part need left ∧ fault = .truncated part need left := by
  simp only [read, bind_eq_error, Prod.exists, readLength_eq_ok_iff, readBody_eq_ok_iff,
    readLength_eq_error_iff, readBody_eq_error_iff, pure, Except.pure, reduceCtorEq, and_false,
    exists_false, or_false, parts, endsIn_cons_iff, not_endsIn_nil]
  have hnil : ([] : Bytes).length < Word.limit := by decide
  constructor
  · rintro (⟨key, left, hkey, hleft, rfl, rfl⟩ | ⟨n, _, ⟨hn, rfl⟩, h⟩)
    · exact ⟨⟨key, []⟩, _, _, left, ⟨hkey, hnil⟩, .inl ⟨rfl, rfl, hleft, rfl⟩, rfl⟩
    -- The key is announced before it is there, so any key of this length will do.
    · obtain ⟨filler, rfl⟩ : ∃ filler : Bytes, filler.length = n :=
        ⟨List.replicate n 0, List.length_replicate⟩
      rcases h with ⟨value, left, hvalue, hleft, rfl, rfl⟩ | ⟨m, _, ⟨hm, rfl⟩, h⟩
      · exact ⟨⟨filler, value⟩, _, _, left, ⟨hn, hvalue⟩,
          .inr ⟨_, rfl, .inl ⟨rfl, rfl, hleft, rfl⟩⟩, rfl⟩
      · rcases h with ⟨key, left, hkey, hleft, rfl, rfl⟩ | ⟨key, _, ⟨hkey, rfl⟩, h⟩
        · obtain ⟨value, rfl⟩ : ∃ value : Bytes, value.length = m :=
            ⟨List.replicate m 0, List.length_replicate⟩
          rw [← hkey] at hn hleft ⊢
          exact ⟨⟨key, value⟩, _, _, left, ⟨hn, hm⟩,
            .inr ⟨_, rfl, .inr ⟨_, rfl, .inl ⟨rfl, rfl, hleft, rfl⟩⟩⟩, rfl⟩
        · obtain ⟨value, left, rfl, hleft, rfl, rfl⟩ := h
          rw [← hkey] at hn ⊢
          exact ⟨⟨key, value⟩, _, _, left, ⟨hn, hm⟩,
            .inr ⟨_, rfl, .inr ⟨_, rfl, .inr ⟨_, rfl, rfl, rfl, hleft, rfl⟩⟩⟩, rfl⟩
  · rintro ⟨⟨key, value⟩, part, need, left, ⟨hkey, hvalue⟩, hends, rfl⟩
    rcases hends with ⟨rfl, rfl, hleft, rfl⟩ | ⟨_, rfl, hends⟩
    · exact .inl ⟨key, left, hkey, hleft, rfl, rfl⟩
    · refine .inr ⟨_, _, ⟨hkey, rfl⟩, ?_⟩
      rcases hends with ⟨rfl, rfl, hleft, rfl⟩ | ⟨_, rfl, hends⟩
      · exact .inl ⟨value, left, hvalue, hleft, rfl, rfl⟩
      · refine .inr ⟨_, _, ⟨hvalue, rfl⟩, ?_⟩
        rcases hends with ⟨rfl, rfl, hleft, rfl⟩ | ⟨_, rfl, rfl, rfl, hleft, rfl⟩
        · exact .inl ⟨key, left, rfl, hleft, rfl, rfl⟩
        · exact .inr ⟨_, _, ⟨rfl, rfl⟩, value, left, rfl, hleft, rfl, rfl⟩

/-! ### Results with a rest -/

/-- Records in front are read as their entries, and the rest as it is on its own. -/
theorem decode_append (hes : ∀ e ∈ es, Entry.Fits e) (rest : Bytes) :
    decode (es.flatMap record ++ rest) = (decode rest).map (es ++ ·) := by
  induction es with
  | nil => cases h : decode rest <;> simp [h, Except.map]
  | cons e es ih =>
    rw [List.forall_mem_cons] at hes
    have hne : (e :: es).flatMap record ++ rest ≠ [] := by
      intro hnil
      exact List.cons_ne_nil e es (flatMap_record_eq_nil_iff.1 (List.append_eq_nil_iff.1 hnil).1)
    have hread : read ((e :: es).flatMap record ++ rest) = .ok (e, es.flatMap record ++ rest) :=
      read_eq_ok_iff.2 ⟨hes.1, by rw [List.flatMap_cons, List.append_assoc]⟩
    rw [decode_eq_of_ne_nil hne, hread]
    dsimp only
    rw [ih hes.2]
    cases decode rest <;> rfl

/-- A result is rejected for the first record in it that is cut. -/
lemma decode_eq_error_iff : decode d = .error fault ↔ ∃ (es : List Entry) (data : Bytes),
    (∀ e ∈ es, e.Fits) ∧ data ≠ [] ∧ d = es.flatMap record ++ data ∧
      read data = .error fault := by
  constructor
  · intro h
    induction d using decode.induct with
    | case1 =>
      rw [decode] at h
      cases h
    | case2 b bs f hread =>
      rw [decode_eq_of_ne_nil (List.cons_ne_nil b bs), hread] at h
      cases h
      exact ⟨[], b :: bs, by simp, List.cons_ne_nil b bs, rfl, hread⟩
    | case3 b bs e rest hread _ ih =>
      rw [decode_eq_of_ne_nil (List.cons_ne_nil b bs), hread] at h
      have hrest : decode rest = .error fault := by
        cases hrest : decode rest with
        | error f => simpa [hrest, Except.map] using h
        | ok es => simp [hrest, Except.map] at h
      obtain ⟨he, hrecord⟩ := read_eq_ok_iff.1 hread
      obtain ⟨es, data, hes, hne, rfl, hfault⟩ := ih hrest
      refine ⟨e :: es, data, List.forall_mem_cons.2 ⟨he, hes⟩, hne, ?_, hfault⟩
      rw [hrecord, List.flatMap_cons, List.append_assoc]
  · rintro ⟨es, data, hes, hne, rfl, hread⟩
    rw [decode_append hes, decode_eq_of_ne_nil hne, hread]
    rfl

/-! ### Results that are rejected -/

/-- Whether a result is rejected with an error. -/
def Rejects (d : Bytes) (e : Error) : Prop := ∃ fault, decode d = .error fault ∧ fault.toError = e

/-- A result that ends inside a part of a record is rejected for this part. -/
lemma rejects_endsIn {e : Entry} {part : Part} {need left : Nat} (hes : ∀ e ∈ es, Entry.Fits e)
    (he : e.Fits) (hne : data ≠ []) (h : EndsIn (parts e) data part need left) :
    Rejects (es.flatMap record ++ data)
      (.malformedInput s!"truncated {part.name}: need {need} bytes, have {left}") := by
  refine ⟨.truncated part need left, decode_eq_error_iff.2 ⟨es, data, hes, hne, rfl, ?_⟩, rfl⟩
  exact read_eq_error_iff.2 ⟨e, part, need, left, he, h, rfl⟩

/-- What is not accepted is malformed, and the rest of the record that is cut completes it. -/
lemma rejects_of_decode_eq_error (h : decode d = .error fault) :
    (∃ reason, Rejects d (.malformedInput reason)) ∧ ∃ t es, decode (d ++ t) = .ok es := by
  obtain ⟨es, data, hes, hne, rfl, hread⟩ := decode_eq_error_iff.1 h
  obtain ⟨e, part, need, left, he, hends, -⟩ := read_eq_error_iff.1 hread
  refine ⟨⟨_, rejects_endsIn hes he hne hends⟩, ?_⟩
  obtain ⟨tail, -, htail⟩ := exists_endsIn_iff.1 ⟨part, need, left, hends⟩
  refine ⟨tail, es ++ [e], decode_eq_ok_iff.2 ⟨?_, ?_⟩⟩
  · rw [List.forall_mem_append, List.forall_mem_singleton]
    exact ⟨hes, he⟩
  · rw [List.append_assoc, htail, join_parts, List.flatMap_append, List.flatMap_singleton]

/-- Exactly the entries that fit can be encoded, each as its record. -/
lemma encode_eq_ok_iff : encode es = .ok d ↔ (∀ e ∈ es, e.Fits) ∧ d = es.flatMap record := by
  rw [← exists_bytes_eq_iff, encode, bind_eq_ok]
  apply exists_congr
  intro b
  simp [pure, Except.pure]

/--
A scan result is accepted, or else it is malformed and could go on to one that is accepted. That of
some entries, cut after one of its records, is read as the entries so far; cut anywhere else, it is
malformed. What stands after it is read as it is on its own, or rejected as it is on its own.
-/
theorem decode_take_or_append :
    (∀ d, (∃ es, decode d = .ok es) ∨
      (∃ reason, Rejects d (.malformedInput reason)) ∧ ∃ t es, decode (d ++ t) = .ok es) ∧
    ∀ es : List Entry, (∀ e ∈ es, e.Fits) → ∃ d, encode es = .ok d ∧
      (∀ p ≤ d.length,
        (∀ k ≤ es.length, p = Row.boundary record es k → decode (d.take p) = .ok (es.take k)) ∧
        ((∀ k ≤ es.length, p ≠ Row.boundary record es k) →
          ∃ reason, Rejects (d.take p) (.malformedInput reason))) ∧
      ∀ t, decode (d ++ t) = (decode t).map (es ++ ·) := by
  constructor
  · intro d
    cases h : decode d with
    | ok es => exact .inl ⟨es, rfl⟩
    | error fault => exact .inr (rejects_of_decode_eq_error h)
  · intro es hes
    refine ⟨_, encode_eq_ok_iff.2 ⟨hes, rfl⟩, fun p hp => ⟨?_, fun hinside => ?_⟩,
      decode_append hes⟩
    · rintro k - rfl
      rw [Row.take_boundary, decode_eq_ok_iff]
      exact ⟨fun e he => hes e (List.mem_of_mem_take he), rfl⟩
    · rcases Row.exists_boundary_or_inside hp with
        ⟨k, hk, h⟩ | ⟨done, e, rest, front, back, rfl, hfront, hback, hrecord, htake⟩
      · exact absurd h (hinside k hk)
      · rw [List.forall_mem_append, List.forall_mem_cons] at hes
        obtain ⟨hdone, he, -⟩ := hes
        rw [← join_parts] at hrecord
        obtain ⟨part, need, left, hends⟩ := exists_endsIn_iff.2 ⟨back, hback, hrecord⟩
        rw [htake]
        exact ⟨_, rejects_endsIn hdone he hfront hends⟩

/-- A cut in the length of an empty key, and one in what is left of the row behind it. -/
theorem decode_take_or_append_emptyKey :
    let es : List Entry := [⟨[107], []⟩, ⟨[], [7]⟩]
    (∀ e ∈ es, e.Fits) ∧ ∃ d, encode es = .ok d ∧ decode (d.take 9) = .ok [⟨[107], []⟩] ∧
      (∃ reason, Rejects (d.take 12) (.malformedInput reason)) ∧
      decode (d ++ [255]) = .error (.truncated (.length ⟨.entry, .key⟩) 4 1) ∧
      ∃ t es', decode (d ++ [255] ++ t) = .ok es' := by
  intro es
  have hes : ∀ e ∈ es, e.Fits := by
    rw [List.forall_mem_cons, List.forall_mem_singleton]
    exact ⟨⟨by decide, by decide⟩, ⟨by decide, by decide⟩⟩
  obtain ⟨haccepted, hencoded⟩ := decode_take_or_append
  obtain ⟨d, hd, hcut, happend⟩ := hencoded es hes
  have hlength : d.length = 18 := by
    rw [(encode_eq_ok_iff.1 hd).2]
    rfl
  have htail : decode (d ++ [255]) = .error (.truncated (.length ⟨.entry, .key⟩) 4 1) := by
    have hshort : decode [255] = .error (.truncated (.length ⟨.entry, .key⟩) 4 1) :=
      decode_eq_error_iff.2 ⟨[], [255], by simp, List.cons_ne_nil _ _, rfl, rfl⟩
    rw [happend, hshort]
    rfl
  refine ⟨hes, d, hd, (hcut 9 (by omega)).1 1 (by decide) rfl, (hcut 12 (by omega)).2 (by decide),
    htail, ?_⟩
  rcases haccepted (d ++ [255]) with ⟨es', h⟩ | ⟨-, hcompleted⟩
  · rw [htail] at h
    cases h
  · exact hcompleted

end ByteStore.Wire.Scan
