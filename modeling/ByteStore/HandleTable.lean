import ByteStore.Error

/-!
# Handle tables

A handle table gives out numbers for the things it holds: 1, 2, 3 and so on, never the same number
twice. A released handle stays invalid, so a stale handle cannot reach a newer thing.

A table is used by one caller after the other. The lock by which callers at the same time would take
turns is left out, and so is the error of a lock whose holder has died.
-/

namespace ByteStore

/-- Things under their handles. -/
structure HandleTable (α : Type) where
  /-- The next handle to be given out. -/
  next : UInt64
  /-- The things held, the latest first. -/
  live : List (UInt64 × α)
  deriving DecidableEq

namespace HandleTable

variable {α : Type}

/-- A table that holds nothing. -/
def empty : HandleTable α := ⟨1, []⟩

/-- Holds a thing, under a new handle. -/
def register (t : HandleTable α) (a : α) : UInt64 × HandleTable α :=
  (t.next, ⟨t.next + 1, (t.next, a) :: t.live⟩)

/-- The thing under a handle, if there is one. -/
def get? (t : HandleTable α) (h : UInt64) : Option α := t.live.lookup h

/-- The thing under a handle. -/
def lookup (t : HandleTable α) (h : UInt64) : Except Error α :=
  match t.get? h with
  | some a => .ok a
  | none => .error (.invalidHandle h)

/-- Forgets a handle. -/
def release (t : HandleTable α) (h : UInt64) : Except Error (HandleTable α) :=
  match t.get? h with
  | some _ => .ok { t with live := t.live.filter fun entry => entry.1 != h }
  | none => .error (.invalidHandle h)

/-- Replaces the thing under a handle. -/
def update (t : HandleTable α) (h : UInt64) (a : α) : HandleTable α :=
  { t with live := t.live.map fun entry => if entry.1 = h then (h, a) else entry }

/-! ### What handles look up to -/

@[simp] theorem get?_empty (h : UInt64) : (empty : HandleTable α).get? h = none := rfl

private theorem lookup_cons (x k : UInt64) (a : α) (l : List (UInt64 × α)) :
    ((x, a) :: l).lookup k = if k = x then some a else l.lookup k := by
  rw [List.lookup_cons]
  by_cases h : k = x
  · simp [h]
  · simp [h, beq_eq_false_iff_ne.2 h]

@[simp] theorem get?_register (t : HandleTable α) (a : α) (h : UInt64) :
    (t.register a).2.get? h = if h = t.next then some a else t.get? h :=
  lookup_cons ..

private theorem lookup_filter (l : List (UInt64 × α)) (h k : UInt64) :
    (l.filter fun entry => entry.1 != h).lookup k = if k = h then none else l.lookup k := by
  induction l with
  | nil => simp
  | cons entry l ih =>
    obtain ⟨x, a⟩ := entry
    by_cases hx : x = h
    · subst hx
      rw [List.filter_cons_of_neg (by simp), ih, lookup_cons]
      by_cases hk : k = x <;> simp [hk]
    · rw [List.filter_cons_of_pos (by simp [hx]), lookup_cons, ih, lookup_cons]
      by_cases hk : k = h
      · subst hk
        simp [Ne.symm hx]
      · simp [hk]

theorem get?_release {t t' : HandleTable α} {h : UInt64} (hr : t.release h = .ok t')
    (k : UInt64) : t'.get? k = if k = h then none else t.get? k := by
  unfold release at hr
  split at hr
  · simp only [Except.ok.injEq] at hr
    subst hr
    exact lookup_filter ..
  · simp at hr

private theorem lookup_map (l : List (UInt64 × α)) (h k : UInt64) (a : α) :
    (l.map fun entry => if entry.1 = h then (h, a) else entry).lookup k
      = if k = h then (l.lookup h).map fun _ => a else l.lookup k := by
  induction l with
  | nil => simp
  | cons entry l ih =>
    obtain ⟨x, b⟩ := entry
    rw [List.map_cons, lookup_cons, lookup_cons]
    by_cases hx : x = h
    · subst hx
      rw [if_pos rfl, lookup_cons, ih]
      by_cases hk : k = x <;> simp [hk]
    · rw [if_neg hx, lookup_cons, ih]
      by_cases hk : k = h
      · subst hk
        simp [Ne.symm hx]
      · simp [hk]

@[simp] theorem get?_update (t : HandleTable α) (h k : UInt64) (a : α) :
    (t.update h a).get? k = if k = h then (t.get? h).map fun _ => a else t.get? k :=
  lookup_map ..

end HandleTable

end ByteStore
