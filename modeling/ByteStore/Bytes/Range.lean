import ByteStore.Bytes

/-!
# Ranges of byte strings

A range has two bounds, each of them absent, included or excluded. `Range.ofBeginning` is the range
that holds exactly the byte strings with a given beginning.
-/

namespace ByteStore

/-- One end of a range. -/
inductive Bound
  | unbounded
  | included (key : Bytes)
  | excluded (key : Bytes)
  deriving DecidableEq, Repr

/-- A range of byte strings. -/
structure Range where
  lower : Bound
  upper : Bound
  deriving DecidableEq, Repr

/-! ### Membership -/

/-- Whether `k` lies on the right side of a lower bound. -/
def Bound.admitsAbove (b : Bound) (k : Bytes) : Bool :=
  match b with
  | .unbounded => true
  | .included s => !k.before s
  | .excluded s => s.before k

/-- Whether `k` lies on the right side of an upper bound. -/
def Bound.admitsBelow (b : Bound) (k : Bytes) : Bool :=
  match b with
  | .unbounded => true
  | .included e => !e.before k
  | .excluded e => k.before e

namespace Range

/-- Whether `k` lies in the range. A range whose bounds cross holds nothing. -/
def contains (r : Range) (k : Bytes) : Bool :=
  r.lower.admitsAbove k && r.upper.admitsBelow k

/-! ### Particular ranges -/

/-- The range of all byte strings. -/
def all : Range := ⟨.unbounded, .unbounded⟩

/-- The range of the byte strings that begin with `p`. -/
def ofBeginning (p : Bytes) : Range :=
  if p.isEmpty then
    all
  else
    match p.successor with
    | some e => ⟨.included p, .excluded e⟩
    | none => ⟨.included p, .unbounded⟩

@[simp] theorem contains_all (k : Bytes) : all.contains k = true := rfl

@[simp] theorem ofBeginning_nil : ofBeginning [] = all := rfl

end Range

end ByteStore
