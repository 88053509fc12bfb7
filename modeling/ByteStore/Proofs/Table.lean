import ByteStore.Table
import Mathlib.Data.List.Sort
import Mathlib.Tactic.Common

/-!
# Tables as maps

The entries of a table are exactly its bindings, so tables that bind alike are equal, and what a
list of writes leaves at a key is the work of the last one on that key.
-/

namespace ByteStore

/-! ### Entries -/

lemma Entries.find?_eq_some_iff {es : List Entry} (h : Sorted es) {key value : Bytes} :
    find? key es = some value ↔ ⟨key, value⟩ ∈ es := by
  induction es with
  | nil => simp [find?]
  | cons e es ih =>
    obtain ⟨he, hes⟩ := List.pairwise_cons.1 h
    rw [List.mem_cons, ← ih hes, find?]
    by_cases hk : e.key = key
    · subst hk
      have hnot : find? e.key es ≠ some value := fun hf =>
        List.lt_irrefl e.key (he ⟨e.key, value⟩ ((ih hes).1 hf))
      cases e
      simp [hnot, eq_comm]
    · have hne : (⟨key, value⟩ : Entry) ≠ e := fun heq => hk (by rw [← heq])
      simp [hk, hne]

/-- The order of the keys leaves one list for each map. -/
lemma Entries.eq_of_find? {es es' : List Entry} (h : Sorted es) (h' : Sorted es')
    (heq : ∀ key, find? key es = find? key es') : es = es' := by
  have hirrefl : Std.Irrefl fun a b : Entry => a.key < b.key := ⟨fun e => List.lt_irrefl e.key⟩
  have hantisymm : Std.Antisymm fun a b : Entry => a.key < b.key :=
    ⟨fun a b hab hba => absurd (List.lt_trans hab hba) (List.lt_irrefl a.key)⟩
  apply h.eq_of_mem_iff h'
  intro e
  rw [← find?_eq_some_iff h, ← find?_eq_some_iff h', heq]

namespace Table

variable {t t' : Table}

lemma mem_entries_iff {e : Entry} : e ∈ t.entries ↔ t.get? e.key = some e.value :=
  (Entries.find?_eq_some_iff t.sorted).symm

/-- Tables that bind alike are equal. -/
lemma eq_of_get? (h : ∀ key, t.get? key = t'.get? key) : t = t' := by
  have hentries : t.entries = t'.entries := Entries.eq_of_find? t.sorted t'.sorted h
  cases t
  cases t'
  congr

end Table

/-! ### The last write wins -/

/-- The last of the operations on a key. -/
def Operation.last? (key : Bytes) (ops : List Operation) : Option Operation :=
  (ops.filter fun op => op.key = key).getLast?

lemma Operation.last?_cons (key : Bytes) (op : Operation) (ops : List Operation) :
    last? key (op :: ops) = (last? key ops).or (if op.key = key then some op else none) := by
  simp only [last?]
  by_cases h : op.key = key
  · rw [List.filter_cons_of_pos (by simpa using h), List.getLast?_cons, if_pos h]
    cases (ops.filter fun op => op.key = key).getLast? <;> rfl
  · rw [List.filter_cons_of_neg (by simpa using h), if_neg h, Option.or_none]

/-- What a list of writes leaves at a key is what the last one on that key has put there. -/
lemma Table.get?_writeAll (t : Table) (ops : List Operation) (key : Bytes) :
    (t.writeAll ops).get? key = (Operation.last? key ops).elim (t.get? key) Operation.value? := by
  induction ops generalizing t with
  | nil => rfl
  | cons op ops ih =>
    rw [writeAll_cons, ih, Operation.last?_cons, get?_write]
    cases Operation.last? key ops with
    | some last => rfl
    | none =>
      by_cases h : op.key = key
      · simp [h]
      · simp [h, Ne.symm h]

end ByteStore
