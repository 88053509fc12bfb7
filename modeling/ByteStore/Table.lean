import ByteStore.Bytes.Range
import ByteStore.Operation

/-!
# Tables

A table is a finite map from byte strings to byte strings, kept as its entries in strictly ascending
order of their keys. It is seen through `Table.get?`, which each operation changes at one key only,
and through `Table.entries`, which lists it in order.

A table stands for what an engine holds. So engines are taken to order keys by their bytes, and to
perform the writes of a batch one after the other, all of them or none.
-/

namespace ByteStore

namespace Entries

/-! ### Sorted lists of entries -/

/-- The entries with `value` at `key`, which takes its place in the order. -/
def insert (key value : Bytes) : List Entry → List Entry
  | [] => [⟨key, value⟩]
  | e :: es =>
    if key.before e.key then ⟨key, value⟩ :: e :: es
    else if e.key.before key then e :: insert key value es
    else ⟨key, value⟩ :: es

/-- The entries without the one at `key`. -/
def erase (key : Bytes) (es : List Entry) : List Entry :=
  es.filter fun e => e.key != key

/-- The value at `key`. -/
def find? (key : Bytes) : List Entry → Option Bytes
  | [] => none
  | e :: es => if e.key == key then some e.value else find? key es

/-- Whether the keys ascend strictly. -/
abbrev Sorted (es : List Entry) : Prop := es.Pairwise fun a b => a.key < b.key

theorem mem_insert {key value : Bytes} {es : List Entry} {e : Entry}
    (h : e ∈ insert key value es) : e = ⟨key, value⟩ ∨ e ∈ es := by
  induction es with
  | nil => simpa [insert] using h
  | cons x xs ih =>
    unfold insert at h
    split at h
    · simpa using h
    · split at h
      · rcases List.mem_cons.1 h with rfl | h
        · simp
        · rcases ih h with rfl | h <;> simp [*]
      · rcases List.mem_cons.1 h with rfl | h
        · simp
        · simp [h]

theorem sorted_insert {key value : Bytes} {es : List Entry} (h : Sorted es) :
    Sorted (insert key value es) := by
  induction es with
  | nil => simp [insert]
  | cons x xs ih =>
    obtain ⟨hx, hxs⟩ := List.pairwise_cons.1 h
    unfold insert
    split
    · rename_i hlt
      refine List.pairwise_cons.2 ⟨?_, h⟩
      intro y hy
      have hkx := Bytes.before_iff_lt.1 hlt
      rcases List.mem_cons.1 hy with rfl | hy
      · exact hkx
      · exact List.lt_trans hkx (hx y hy)
    · split
      · rename_i hlt
        refine List.pairwise_cons.2 ⟨?_, ih hxs⟩
        intro y hy
        rcases mem_insert hy with rfl | hy
        · exact Bytes.before_iff_lt.1 hlt
        · exact hx y hy
      · rename_i h1 h2
        have : key = x.key :=
          List.le_antisymm (Bytes.before_eq_false_iff.1 (by simpa using h2))
            (Bytes.before_eq_false_iff.1 (by simpa using h1))
        refine List.pairwise_cons.2 ⟨?_, hxs⟩
        intro y hy
        simpa [this] using hx y hy

theorem sorted_erase {key : Bytes} {es : List Entry} (h : Sorted es) : Sorted (erase key es) :=
  h.filter _

end Entries

/-- A finite map from byte strings to byte strings. -/
structure Table where
  /-- The bindings in the order of their keys. -/
  entries : List Entry
  sorted : Entries.Sorted entries
  deriving DecidableEq

namespace Table

/-! ### Operations -/

/-- The table that binds nothing. -/
def empty : Table := ⟨[], .nil⟩

/-- The value bound to `key`. -/
def get? (t : Table) (key : Bytes) : Option Bytes := Entries.find? key t.entries

/-- The table in which `key` is bound to `value`. -/
def insert (t : Table) (key value : Bytes) : Table :=
  ⟨Entries.insert key value t.entries, Entries.sorted_insert t.sorted⟩

/-- The table in which `key` is bound to nothing. -/
def erase (t : Table) (key : Bytes) : Table :=
  ⟨Entries.erase key t.entries, Entries.sorted_erase t.sorted⟩

/-- Performs one write. -/
def write (t : Table) : Operation → Table
  | .set key value => t.insert key value
  | .delete key => t.erase key

/-- Performs a list of writes, the first one first. -/
def writeAll (t : Table) (ops : List Operation) : Table := ops.foldl write t

/-- The entries whose keys lie in a range, in order. -/
def within (t : Table) (r : Range) : List Entry := t.entries.filter fun e => r.contains e.key

instance : EmptyCollection Table := ⟨empty⟩

/-! ### The table as a map -/

theorem get?_empty (key : Bytes) : empty.get? key = none := rfl

private theorem find?_insert {key value : Bytes} {es : List Entry} (h : Entries.Sorted es)
    (k : Bytes) :
    Entries.find? k (Entries.insert key value es)
      = if k = key then some value else Entries.find? k es := by
  induction es with
  | nil => simp [Entries.insert, Entries.find?, @eq_comm _ k]
  | cons x xs ih =>
    obtain ⟨hx, hxs⟩ := List.pairwise_cons.1 h
    unfold Entries.insert
    split
    · simp [Entries.find?, @eq_comm _ k]
    · split
      · rename_i hlt
        have hne : x.key ≠ key := fun he => by
          have := Bytes.before_iff_lt.1 hlt
          rw [he] at this
          exact List.lt_irrefl key this
        simp only [Entries.find?, ih hxs, beq_iff_eq]
        by_cases hk : k = key
        · subst hk
          simp [hne]
        · simp [hk]
      · rename_i h1 h2
        have : key = x.key :=
          List.le_antisymm (Bytes.before_eq_false_iff.1 (by simpa using h2))
            (Bytes.before_eq_false_iff.1 (by simpa using h1))
        subst this
        by_cases hk : k = x.key
        · simp [Entries.find?, hk]
        · simp [Entries.find?, hk, Ne.symm hk]

private theorem find?_erase {key : Bytes} {es : List Entry} (k : Bytes) :
    Entries.find? k (Entries.erase key es) = if k = key then none else Entries.find? k es := by
  induction es with
  | nil => simp [Entries.erase, Entries.find?]
  | cons x xs ih =>
    unfold Entries.erase at ih ⊢
    by_cases hx : x.key = key
    · rw [List.filter_cons_of_neg (by simp [hx]), ih]
      by_cases hk : k = key
      · simp [hk]
      · simp [Entries.find?, hk, hx, Ne.symm hk]
    · rw [List.filter_cons_of_pos (by simp [hx])]
      simp only [Entries.find?, ih, beq_iff_eq]
      by_cases hk : k = key
      · subst hk
        simp [hx]
      · simp [hk]

@[simp] theorem get?_insert (t : Table) (key value k : Bytes) :
    (t.insert key value).get? k = if k = key then some value else t.get? k :=
  find?_insert t.sorted k

@[simp] theorem get?_erase (t : Table) (key k : Bytes) :
    (t.erase key).get? k = if k = key then none else t.get? k :=
  find?_erase k

theorem get?_write (t : Table) (op : Operation) (k : Bytes) :
    (t.write op).get? k = if k = op.key then op.value? else t.get? k := by
  cases op with
  | set key value => exact t.get?_insert key value k
  | delete key => exact t.get?_erase key k

@[simp] theorem writeAll_nil (t : Table) : t.writeAll [] = t := rfl

@[simp] theorem writeAll_cons (t : Table) (op : Operation) (ops : List Operation) :
    t.writeAll (op :: ops) = (t.write op).writeAll ops := rfl

theorem writeAll_append (t : Table) (ops ops' : List Operation) :
    t.writeAll (ops ++ ops') = (t.writeAll ops).writeAll ops' := by
  simp [writeAll]

end Table

end ByteStore
