import ByteStore.Bytes
import ByteStore.Error

/-!
# Keys, entries and operations

A key that can be stored has at least one byte and at most `Key.limit` bytes. An operation is one
write of a batch; an entry is a key with its value.
-/

namespace ByteStore

/-! ### Keys -/

namespace Key

/-- The length of the longest key that can be stored. -/
def limit : Nat := 65535

/-- What keeps a byte string from being a key. -/
inductive Fault
  | empty
  | tooLong (length : Nat)
  deriving DecidableEq, Repr

/-- The error a faulty key leads to. -/
def Fault.toError : Fault → Error
  | .empty => .malformedInput "key must not be empty"
  | .tooLong n => .malformedInput s!"key of {n} bytes exceeds the {limit} byte limit"

/-- What is wrong with a key, if anything is. -/
def fault? (key : Bytes) : Option Fault :=
  if key.isEmpty then some .empty
  else if key.length > limit then some (.tooLong key.length)
  else none

/-- Passes a key that can be stored. -/
def check (key : Bytes) : Except Error Unit :=
  match fault? key with
  | none => .ok ()
  | some f => .error f.toError

/-- Whether a byte string can be stored as a key. -/
def Valid (key : Bytes) : Prop := key ≠ [] ∧ key.length ≤ limit

instance (key : Bytes) : Decidable (Valid key) := inferInstanceAs (Decidable (_ ∧ _))

theorem fault?_eq_none_iff {key : Bytes} : fault? key = none ↔ Valid key := by
  unfold fault? Valid
  cases key with
  | nil => simp
  | cons b bs =>
    simp only [List.isEmpty_cons, Bool.false_eq_true, if_false, ne_eq, reduceCtorEq,
      not_false_eq_true, true_and]
    split
    · rename_i h
      simpa using h
    · rename_i h
      simpa using h

theorem check_eq_ok_iff {key : Bytes} : check key = .ok () ↔ Valid key := by
  rw [← fault?_eq_none_iff]
  unfold check
  cases fault? key <;> simp

end Key

/-! ### Entries -/

/-- A key with its value. -/
structure Entry where
  key : Bytes
  value : Bytes
  deriving DecidableEq, Repr

/-! ### Operations -/

/-- One write of a batch. -/
inductive Operation
  | set (key value : Bytes)
  | delete (key : Bytes)
  deriving DecidableEq, Repr

namespace Operation

/-- The key an operation writes to. -/
def key : Operation → Bytes
  | .set k _ => k
  | .delete k => k

/-- The value an operation leaves at its key. -/
def value? : Operation → Option Bytes
  | .set _ v => some v
  | .delete _ => none

/-- The number that marks an operation in a payload. -/
def code : Operation → UInt8
  | .set .. => 0
  | .delete _ => 1

@[simp] theorem key_set (k v : Bytes) : (set k v).key = k := rfl
@[simp] theorem key_delete (k : Bytes) : (delete k).key = k := rfl
@[simp] theorem value?_set (k v : Bytes) : (set k v).value? = some v := rfl
@[simp] theorem value?_delete (k : Bytes) : (delete k).value? = none := rfl

/-- Passes a list of operations whose keys can all be stored; otherwise the first bad key counts. -/
def checkAll : List Operation → Except Error Unit
  | [] => .ok ()
  | op :: ops =>
    match Key.check op.key with
    | .ok () => checkAll ops
    | .error e => .error e

theorem checkAll_eq_ok_iff {ops : List Operation} :
    checkAll ops = .ok () ↔ ∀ op ∈ ops, Key.Valid op.key := by
  induction ops with
  | nil => simp [checkAll]
  | cons op ops ih =>
    rw [List.forall_mem_cons, ← ih, ← Key.check_eq_ok_iff, checkAll]
    cases Key.check op.key <;> simp

end Operation

end ByteStore
