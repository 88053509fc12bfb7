import ByteStore.Proofs.Bytes.Beginning
import ByteStore.Proofs.Store.Operations
import ByteStore.Proofs.Table

/-!
# Reachable stores

A store comes about by being opened, empty or with what an earlier store has left, and by serving
requests. Whatever has been asked of it, it holds no key that cannot be stored
(`Store.Reachable.keysValid`), so there is nothing under a beginning that is longer than any key.
-/

namespace ByteStore

/-! ### Stored keys -/

/-- Whether a table binds nothing but keys that can be stored. -/
def Table.KeysValid (t : Table) : Prop :=
  ∀ key value, t.get? key = some value → Key.Valid key

namespace Table

lemma keysValid_empty : (∅ : Table).KeysValid := by
  intro key value h
  rw [show (∅ : Table).get? key = none from get?_empty key] at h
  cases h

lemma KeysValid.write {t : Table} (h : t.KeysValid) {op : Operation} (hop : Key.Valid op.key) :
    (t.write op).KeysValid := by
  intro key value hkey
  rw [get?_write] at hkey
  split_ifs at hkey with heq
  · exact heq ▸ hop
  · exact h key value hkey

lemma KeysValid.writeAll {t : Table} (h : t.KeysValid) {ops : List Operation}
    (hops : ∀ op ∈ ops, Key.Valid op.key) : (t.writeAll ops).KeysValid := by
  induction ops generalizing t with
  | nil => exact h
  | cons op ops ih =>
    rw [List.forall_mem_cons] at hops
    exact ih (h.write hops.1) hops.2

end Table

lemma Table.mem_within_iff {t : Table} {r : Range} {e : Entry} :
    e ∈ t.within r ↔ r.contains e.key = true ∧ t.get? e.key = some e.value := by
  rw [within, List.mem_filter, mem_entries_iff, and_comm]

/-- No stored key begins with more bytes than a key can have. -/
lemma Table.KeysValid.within_eq_nil {t : Table} (h : t.KeysValid) {stem : Bytes}
    (hstem : stem.length > Key.limit) : t.within (Range.ofBeginning stem) = [] := by
  rw [List.eq_nil_iff_forall_not_mem]
  intro e he
  obtain ⟨hcontains, hvalue⟩ := mem_within_iff.1 he
  have hprefix := (Range.contains_ofBeginning.1 hcontains).length_le
  have hlimit := (h e.key e.value hvalue).2
  omega

namespace Store

/--
The stores that a run can lead to. A store opens empty, or with what an earlier one has left, and
it may then be asked for anything.
-/
inductive Reachable : Store → Prop
  | opened {s : Store} (hopen : s.closed = false) (hlog : s.log ≠ .fenced)
      (hempty : s.table = ∅) : Reachable s
  | reopened {s s' : Store} (hs : Reachable s) (hopen : s'.closed = false)
      (hlog : s'.log ≠ .fenced) (htable : s'.table = s.table) : Reachable s'
  | served {s : Store} (hs : Reachable s) (r : Request) : Reachable (s.serve r).1

variable {s : Store}

lemma keysValid_serve (hs : s.table.KeysValid) (r : Request) : (s.serve r).1.table.KeysValid := by
  rcases s.serve_cases r with h | ⟨ops, -, hops, h⟩ | ⟨-, closed, h⟩
  · rwa [h]
  · rw [h]
    exact hs.writeAll hops
  · rwa [h]

/-- No run stores a key that cannot be stored. -/
theorem Reachable.keysValid (hs : s.Reachable) : s.table.KeysValid := by
  induction hs with
  | opened _ _ hempty => exact hempty ▸ Table.keysValid_empty
  | reopened _ _ _ htable ih => exact htable ▸ ih
  | served _ r ih => exact keysValid_serve ih r

/-! ### What an open store shows -/

/-- An open store whose engine serves it has a value for a key exactly if its table has. -/
lemma get_eq_ok_iff (hopen : s.closed = false) (hlog : s.log ≠ .fenced)
    (hkeys : s.table.KeysValid) {key value : Bytes} :
    s.get key = .ok value ↔ s.table.get? key = some value := by
  rw [get_of_open hopen]
  constructor
  · intro h
    cases hkey : Key.error? key with
    | some e => simp [hkey] at h
    | none =>
      cases hvalue : s.table.get? key with
      | some v => simpa [hkey, hvalue, hlog] using h
      | none => simp [hkey, hvalue, hlog] at h
  · intro h
    simp [Key.error?_eq_none_iff.2 (hkeys key value h), hlog, h]

/-- The shortcut for overlong beginnings agrees with the walk that it spares. -/
theorem iterate_eq_walk (hopen : s.closed = false) (hlog : s.log ≠ .fenced)
    (hkeys : s.table.KeysValid) {σ : Type} (stem : Bytes) (visit : Visitor σ) (t : σ) :
    s.iterate stem visit t = visit.walk (s.table.within (Range.ofBeginning stem)) t := by
  rw [iterate_of_open hopen, if_neg hlog]
  split_ifs with hstem
  · rw [hkeys.within_eq_nil hstem]
    rfl
  · rfl

end Store

end ByteStore
