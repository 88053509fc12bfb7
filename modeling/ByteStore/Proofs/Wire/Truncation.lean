import ByteStore.Proofs.Wire.Rejection

/-!
# Payloads that are cut

The first bytes of a payload are those of its first records, up to one that is cut. So where a batch
is cut decides how it is read: after a record as the operations so far, inside one not at all.
-/

namespace ByteStore.Wire.Batch

/-- The number of bytes that the first `k` records of a batch take. -/
def boundary (ops : List Operation) (k : Nat) : Nat := ((ops.take k).flatMap record).length

lemma take_boundary (ops : List Operation) (k : Nat) :
    (ops.flatMap record).take (boundary ops k) = (ops.take k).flatMap record :=
  Row.take_boundary record ops k

/--
A batch that is cut after one of its records is read as the operations so far. Cut anywhere else, it
is rejected as malformed, for the part inside which the cut falls, with the number of bytes that are
left of this part.
-/
theorem decode_take_encode {ops : List Operation} (hops : ∀ op ∈ ops, op.Fits) :
    ∃ d, encode ops = .ok d ∧ ∀ p ≤ d.length,
      (∀ k ≤ ops.length, p = boundary ops k → decode (d.take p) = .ok (ops.take k)) ∧
      ((∀ k ≤ ops.length, p ≠ boundary ops k) →
        ∃ done op rest data part need left, ops = done ++ op :: rest ∧
          d.take p = done.flatMap record ++ op.code :: data ∧
          EndsIn (parts op) data part need left ∧ left < need ∧
          Rejects (d.take p)
            (.malformedInput s!"truncated {part.name}: need {need} bytes, have {left}")) := by
  refine ⟨_, encode_eq_ok_iff.2 ⟨hops, rfl⟩, fun p hp => ⟨?_, fun hne => ?_⟩⟩
  · rintro k - rfl
    rw [take_boundary, decode_eq_ok_iff]
    exact ⟨fun op hop => hops op (List.mem_of_mem_take hop), rfl⟩
  · rcases Row.exists_boundary_or_inside hp with ⟨k, hk, h⟩ | ⟨done, op, rest, front, back, rfl, hfront,
        hback, hrecord, htake⟩
    · exact absurd h (hne k hk)
    · rw [List.forall_mem_append, List.forall_mem_cons] at hops
      obtain ⟨hdone, hop, -⟩ := hops
      obtain ⟨code, data, rfl⟩ := List.exists_cons_of_ne_nil hfront
      rw [record_eq, List.cons_append, List.cons.injEq] at hrecord
      obtain ⟨rfl, hdata⟩ := hrecord
      obtain ⟨part, need, left, hends⟩ := exists_endsIn_iff.2 ⟨back, hback, hdata⟩
      refine ⟨done, op, rest, data, part, need, left, rfl, htake, hends, hends.left_lt, ?_⟩
      rw [htake]
      exact rejects_endsIn hdone hop hends

/-- An empty value still has its length word, and a cut may fall between the key and this word. -/
theorem decode_take_encode_emptyValue :
    ∃ d, encode [.set [107] [], .delete [7]] = .ok d ∧
      decode (d.take 10) = .ok [.set [107] []] ∧
      ∃ reason, Rejects (d.take 6) (.malformedInput reason) := by
  have hops : ∀ op ∈ [Operation.set [107] [], .delete [7]], op.Fits := by decide
  obtain ⟨d, hd, h⟩ := decode_take_encode hops
  have hlength : d.length = 16 := by
    rw [(encode_eq_ok_iff.1 hd).2]
    rfl
  refine ⟨d, hd, (h 10 (by omega)).1 1 (by decide) rfl, ?_⟩
  obtain ⟨-, -, -, -, part, need, left, -, -, -, -, hrejects⟩ := (h 6 (by omega)).2 (by decide)
  exact ⟨_, hrejects⟩

end ByteStore.Wire.Batch
