import ByteStore.Proofs.Store.Batch
import ByteStore.Proofs.Table

/-!
# Batches that come to the same

What a batch leaves at a key is the work of its last operation on that key, so batches that agree on
these leave the same table (`Table.writeAll_congr`). Operations that a later one overwrites may go,
operations on different keys may change places, and two batches may be put together to one.
-/

namespace ByteStore

namespace Operation

variable {op : Operation} {ops ops' : List Operation} {key : Bytes}

/-! ### Overwritten operations -/

/-- The operations of a batch that no later one on the same key follows. -/
def latest : List Operation → List Operation
  | [] => []
  | op :: ops => if ∃ later ∈ ops, later.key = op.key then latest ops else op :: latest ops

lemma last?_eq_none_iff : last? key ops = none ↔ ∀ op ∈ ops, op.key ≠ key := by
  simp [last?]

lemma latest_sublist (ops : List Operation) : (latest ops).Sublist ops := by
  induction ops with
  | nil => exact .slnil
  | cons op ops ih =>
    rw [latest]
    split_ifs
    · exact ih.cons op
    · exact ih.cons_cons op

/-- The last operation on each key stays. -/
lemma last?_latest (key : Bytes) (ops : List Operation) : last? key (latest ops) = last? key ops := by
  induction ops with
  | nil => rfl
  | cons op ops ih =>
    rw [latest]
    split_ifs with hlater
    · rw [ih, last?_cons]
      by_cases hkey : op.key = key
      · have hsome : last? key ops ≠ none := by
          obtain ⟨later, hmem, heq⟩ := hlater
          rw [ne_eq, last?_eq_none_iff]
          intro hnone
          exact hnone later hmem (heq.trans hkey)
        obtain ⟨last, hlast⟩ := Option.ne_none_iff_exists'.1 hsome
        rw [hlast, Option.some_or]
      · rw [if_neg hkey, Option.or_none]
    · rw [last?_cons, last?_cons, ih]

lemma latest_eq_nil_iff : latest ops = [] ↔ ops = [] := by
  constructor
  · intro hnil
    cases ops with
    | nil => rfl
    | cons op ops =>
      have hnone : last? op.key (op :: ops) = none := by
        rw [← last?_latest, hnil]
        rfl
      exact absurd rfl (last?_eq_none_iff.1 hnone op List.mem_cons_self)
  · rintro rfl
    rfl

/-! ### Operations in another order -/

/-- Whether two batches have the same operations, those on each key in the same order. -/
structure Rearranges (ops ops' : List Operation) : Prop where
  perm : ops.Perm ops'
  order : ∀ key, (ops.filter fun op => op.key = key) = ops'.filter fun op => op.key = key

lemma Rearranges.last?_eq (h : Rearranges ops ops') (key : Bytes) :
    last? key ops' = last? key ops := by
  rw [last?, last?, h.order key]

lemma Rearranges.eq_nil_iff (h : Rearranges ops ops') : ops' = [] ↔ ops = [] := by
  rw [← List.length_eq_zero_iff, ← h.perm.length_eq, List.length_eq_zero_iff]

end Operation

/-- Batches whose last operations on each key are the same leave the same table. -/
lemma Table.writeAll_congr {ops ops' : List Operation}
    (h : ∀ key, Operation.last? key ops' = Operation.last? key ops) (t : Table) :
    t.writeAll ops' = t.writeAll ops := by
  apply Table.eq_of_get?
  intro key
  rw [get?_writeAll, get?_writeAll, h key]

namespace Store

variable {s : Store} {ops ops' : List Operation}

/-! ### Stores that perform them -/

lemma perform_congr (hnil : ops' = [] ↔ ops = [])
    (hlast : ∀ key, Operation.last? key ops' = Operation.last? key ops) (s : Store) :
    s.perform ops' = s.perform ops := by
  simp only [perform, hnil, Table.writeAll_congr hlast]

lemma refusal?_of_valid (hkeys : ∀ op ∈ ops, Key.Valid op.key) :
    s.refusal? ops = if ops ≠ [] ∧ s.log = .fenced then some fencedError else none := by
  rw [refusal?, Operation.error?_eq_none_iff.2 hkeys, Option.none_or]

/-- An open store does the same with batches whose last operations on each key are the same. -/
lemma serve_apply_congr (hopen : s.closed = false) (hkeys : ∀ op ∈ ops, Key.Valid op.key)
    (hkeys' : ∀ op ∈ ops', Key.Valid op.key) (hnil : ops' = [] ↔ ops = [])
    (hlast : ∀ key, Operation.last? key ops' = Operation.last? key ops) :
    s.serve (.apply ops') = s.serve (.apply ops) := by
  have hrefusal : s.refusal? ops' = s.refusal? ops := by
    simp only [refusal?_of_valid hkeys, refusal?_of_valid hkeys', ne_eq, hnil]
  rw [serve_apply_of_open hopen, serve_apply_of_open hopen, hrefusal, perform_congr hnil hlast]

lemma perform_perform (s : Store) (ops ops' : List Operation) :
    (s.perform ops).perform ops' = s.perform (ops ++ ops') := by
  induction ops generalizing s with
  | nil => rfl
  | cons op ops ih =>
    rw [← perform_cons, ih, perform_cons, List.cons_append]

/-- A store that has been fenced off performs no operation. -/
lemma serve_apply_of_fenced (hopen : s.closed = false) (hlog : s.log = .fenced)
    (ops : List Operation) : (s.serve (.apply ops)).1 = s := by
  rw [serve_apply_of_open hopen]
  split_ifs with hnone
  · obtain hnil | hsound := (refusal?_eq_none_iff.1 hnone).2
    · simp [perform, hnil]
    · exact absurd hlog hsound
  · rfl

/-- A store that has not been fenced off performs every batch of keys that can be stored. -/
lemma serve_apply_of_valid (hopen : s.closed = false) (hlog : s.log ≠ .fenced)
    (hkeys : ∀ op ∈ ops, Key.Valid op.key) :
    s.serve (.apply ops) = (s.perform ops, .done) := by
  have hnone : s.refusal? ops = none := refusal?_eq_none_iff.2 ⟨hkeys, .inr hlog⟩
  rw [serve_apply_of_open hopen, hnone, if_pos rfl]
  rfl

lemma perform_table (s : Store) (ops : List Operation) :
    (s.perform ops).table = s.table.writeAll ops := by
  rw [perform]
  split_ifs with hnil
  · rw [hnil, Table.writeAll_nil]
  · rfl

lemma perform_not_fenced (hlog : s.log ≠ .fenced) (ops : List Operation) :
    (s.perform ops).log ≠ .fenced := by
  rw [perform]
  split_ifs
  · exact hlog
  · rwa [write_log, ne_eq, Log.write_eq_fenced_iff]

/-- Two batches one after the other come to one batch of both. -/
lemma serve_apply_append (hopen : s.closed = false) (hkeys : ∀ op ∈ ops, Key.Valid op.key)
    (hkeys' : ∀ op ∈ ops', Key.Valid op.key) :
    ((s.serve (.apply ops)).1.serve (.apply ops')).1 = (s.serve (.apply (ops ++ ops'))).1 := by
  by_cases hlog : s.log = .fenced
  · rw [serve_apply_of_fenced hopen hlog, serve_apply_of_fenced hopen hlog,
      serve_apply_of_fenced hopen hlog]
  · have hboth : ∀ op ∈ ops ++ ops', Key.Valid op.key :=
      List.forall_mem_append.2 ⟨hkeys, hkeys'⟩
    have hopen' : (s.perform ops).closed = false := (s.perform_closed ops).trans hopen
    rw [serve_apply_of_valid hopen hlog hkeys, serve_apply_of_valid hopen hlog hboth,
      serve_apply_of_valid hopen' (perform_not_fenced hlog ops) hkeys', perform_perform]

/--
Of a batch of keys that can be stored, an open store keeps the last operation on each key. So it
does the same with the batch without the operations that are overwritten, and with the batch in any
order that keeps the operations on each key in theirs; and two such batches one after the other
leave what one batch of both leaves. All this holds of a store that has been fenced off as well,
which performs none of them.
-/
theorem last_write_wins (hopen : s.closed = false) :
    (∀ ops : List Operation, (∀ op ∈ ops, Key.Valid op.key) →
      (s.log ≠ .fenced → (s.serve (.apply ops)).2 = .done ∧
        ∀ key, (s.serve (.apply ops)).1.table.get? key
          = (Operation.last? key ops).elim (s.table.get? key) Operation.value?) ∧
      s.serve (.apply (Operation.latest ops)) = s.serve (.apply ops) ∧
      ∀ ops', Operation.Rearranges ops ops' → s.serve (.apply ops') = s.serve (.apply ops)) ∧
    ∀ a b : List Operation, (∀ op ∈ a, Key.Valid op.key) → (∀ op ∈ b, Key.Valid op.key) →
      (s.serve (.apply (a ++ b))).1 = ((s.serve (.apply a)).1.serve (.apply b)).1 := by
  refine ⟨fun ops hkeys => ⟨fun hlog => ?_, ?_, fun ops' hops => ?_⟩, fun a b ha hb => ?_⟩
  · rw [serve_apply_of_valid hopen hlog hkeys]
    refine ⟨rfl, fun key => ?_⟩
    rw [perform_table, Table.get?_writeAll]
  · have hkeys' : ∀ op ∈ Operation.latest ops, Key.Valid op.key :=
      fun op hop => hkeys op ((Operation.latest_sublist ops).subset hop)
    exact serve_apply_congr hopen hkeys hkeys' Operation.latest_eq_nil_iff
      fun key => Operation.last?_latest key ops
  · have hkeys' : ∀ op ∈ ops', Key.Valid op.key :=
      fun op hop => hkeys op (hops.perm.mem_iff.2 hop)
    exact serve_apply_congr hopen hkeys hkeys' hops.eq_nil_iff hops.last?_eq
  · exact (serve_apply_append hopen ha hb).symm

/-- A key that is set, deleted and set again, among operations on another key. -/
theorem last_write_wins_repeated :
    let s : Store := ⟨0, .objects, none, (∅ : Table).insert [97] [0], .lost false, false, nofun⟩
    let ops : List Operation := [.set [97] [1], .set [98] [2], .delete [97], .set [98] [3]]
    let kept : List Operation := [.delete [97], .set [98] [3]]
    let moved : List Operation := [.set [98] [2], .set [98] [3], .set [97] [1], .delete [97]]
    s.closed = false ∧ (∀ op ∈ ops, Key.Valid op.key) ∧ (∀ op ∈ kept, Key.Valid op.key) ∧
      s.log ≠ .fenced ∧ Operation.latest ops = kept ∧ Operation.Rearranges ops moved ∧
      (s.serve (.apply ops)).1.table.get? [97] = none ∧
      (s.serve (.apply ops)).1.table.get? [98] = some [3] ∧
      s.serve (.apply kept) = s.serve (.apply ops) ∧
      s.serve (.apply moved) = s.serve (.apply ops) ∧
      (s.serve (.apply (ops ++ kept))).1
        = ((s.serve (.apply ops)).1.serve (.apply kept)).1 := by
  intro s ops kept moved
  have hopen : s.closed = false := rfl
  have hlog : s.log ≠ .fenced := Log.noConfusion
  have hkeys : ∀ op ∈ ops, Key.Valid op.key := by decide
  have hkept : ∀ op ∈ kept, Key.Valid op.key := by decide
  have hmoved : Operation.Rearranges ops moved := by
    refine ⟨by decide, fun key => ?_⟩
    by_cases ha : key = [97]
    · subst ha
      rfl
    · by_cases hb : key = [98]
      · subst hb
        rfl
      · simp [ops, moved, Ne.symm ha, Ne.symm hb]
  obtain ⟨hops, hboth⟩ := last_write_wins hopen
  obtain ⟨hdone, hlatest, hrearranges⟩ := hops ops hkeys
  exact ⟨hopen, hkeys, hkept, hlog, by decide, hmoved, (hdone hlog).2 [97], (hdone hlog).2 [98],
    hlatest, hrearranges moved hmoved, hboth ops kept hkeys hkept⟩

end Store

end ByteStore
