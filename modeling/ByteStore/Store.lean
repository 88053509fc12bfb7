import ByteStore.FileTree.Place
import ByteStore.Table

/-!
# Stores

A store is a table with an engine that keeps it, a place where it is kept, the log of its writes,
and a flag that says whether it has been closed. An operation first asks whether the store is open,
then whether its keys can be stored, then whether it has been fenced off; a refused operation
changes no entry.
-/

namespace ByteStore

/--
The engines a store can run on. They keep their data apart, and they are not asked for quite the
same; that this shows in no answer is `Store.apply_eq` and `Store.shutDown_eq_persist`.
-/
inductive Engine
  /-- A log-structured merge tree on local files. -/
  | tree
  /-- A database on an object store. -/
  | objects
  deriving DecidableEq, Repr

/--
The log that the writes of a store go to when they are made durable. An engine makes writes durable
on its own as well, from time to time; that is left out here, so a log that has been lost fences its
store off at a sync or a close, and at no other time.
-/
inductive Log
  /-- The log takes all writes. -/
  | sound
  /-- The end of the log cannot be found. `pending` says whether there are writes for it. -/
  | lost (pending : Bool)
  /-- A write has met another one, so the store holds itself to be fenced off by a newer one. -/
  | fenced
  deriving DecidableEq, Repr

namespace Log

/-- The log of a store that opens. A tree has its log at hand, a database looks for it. -/
def new : Engine → Bool → Log
  | .tree, _ => .sound
  | .objects, findable => if findable then .sound else .lost false

/-- The log of a store to which something has been written. -/
def write : Log → Log
  | .lost _ => .lost true
  | log => log

/-- The log after its writes have been made durable by a sync or a close, as far as possible. -/
def flush : Log → Log
  | .lost true => .fenced
  | log => log

@[simp] theorem new_tree (findable : Bool) : new .tree findable = .sound := rfl

theorem new_ne_fenced (e : Engine) (findable : Bool) : new e findable ≠ .fenced := by
  cases e <;> cases findable <;> exact Log.noConfusion

@[simp] theorem write_sound : Log.sound.write = .sound := rfl

@[simp] theorem flush_sound : Log.sound.flush = .sound := rfl

end Log

/-- A store in the hands of its user. -/
structure Store where
  /-- Tells the store from every other one that its host has opened. -/
  serial : Nat
  engine : Engine
  /-- The directory that keeps the data; a store in memory has none. -/
  home : Option Place
  table : Table
  log : Log
  closed : Bool
  /-- A tree does not lose its log. -/
  sound : engine = .tree → log = .sound
  deriving DecidableEq

/-- One step of a walk over entries: a new state, and whether the walk goes on. -/
abbrev Visitor (σ : Type) := σ → Entry → σ × Except Error Unit

/-- Shows entries to a visitor, one after the other, until it refuses one. -/
def Visitor.walk {σ : Type} (visit : Visitor σ) : List Entry → σ → σ × Except Error Unit
  | [], s => (s, .ok ())
  | e :: es, s =>
    match visit s e with
    | (s', .ok ()) => visit.walk es s'
    | (s', .error x) => (s', .error x)

namespace Store

/-- The error of every operation on a closed store. -/
def closedError : Error := .storage "store is closed"

/-- Passes a store that is open. -/
def checkOpen (s : Store) : Except Error Unit :=
  if s.closed then .error closedError else .ok ()

/-- The error of every operation on a store that has been fenced off. -/
def fencedError : Error := .storage "Closed error: detected newer DB client"

/-- Passes a store that has not been fenced off. -/
def checkLog (s : Store) : Except Error Unit :=
  if s.log = .fenced then .error fencedError else .ok ()

/-! ### Engines -/

/-- The store with another table, which is yet to be made durable. -/
def write (s : Store) (table : Table) : Store :=
  { s with
    table
    log := s.log.write
    sound := fun h => by rw [s.sound h, Log.write_sound] }

/-- The store after its writes have been made durable, as far as that is possible. -/
def flush (s : Store) : Store :=
  { s with
    log := s.log.flush
    sound := fun h => by rw [s.sound h, Log.flush_sound] }

/-- Has the engine perform writes, all of them in order. -/
def commit (s : Store) (ops : List Operation) : Except Error Store := do
  s.checkLog
  return s.write (s.table.writeAll ops)

/-- Has the engine make all writes durable. -/
def persist (s : Store) : Store × Except Error Unit := (s.flush, s.flush.checkLog)

/-- Shuts the engine down. A database makes its writes durable first, and once more as it closes. -/
def shutDown (s : Store) : Store × Except Error Unit :=
  match s.engine with
  | .tree => s.persist
  | .objects =>
    match s.persist with
    | (s', .error e) => (s', .error e)
    | (s', .ok ()) => s'.persist

/-! ### Single keys -/

/-- Binds `key` to `value`. -/
def set (s : Store) (key value : Bytes) : Except Error Store := do
  s.checkOpen
  Key.check key
  s.checkLog
  return s.write (s.table.insert key value)

/-- The value bound to `key`. -/
def get (s : Store) (key : Bytes) : Except Error Bytes := do
  s.checkOpen
  Key.check key
  s.checkLog
  match s.table.get? key with
  | some value => return value
  | none => throw .notFound

/-- Removes what is bound to `key`, if anything is. -/
def delete (s : Store) (key : Bytes) : Except Error Store := do
  s.checkOpen
  Key.check key
  s.checkLog
  return s.write (s.table.erase key)

/-! ### Many keys -/

/--
Performs all operations of a batch in order, or none if one of its keys cannot be stored. A database
is not asked for a batch without operations.
-/
def apply (s : Store) (ops : List Operation) : Except Error Store := do
  s.checkOpen
  Operation.checkAll ops
  match s.engine with
  | .tree => s.commit ops
  | .objects => if ops.isEmpty then return s else s.commit ops

/--
Shows a visitor the entries whose keys begin with `stem`, in the order of their keys. No stored key
begins with more bytes than a key can have.
-/
def iterate {σ : Type} (s : Store) (stem : Bytes) (visit : Visitor σ) (state : σ) :
    σ × Except Error Unit :=
  match s.checkOpen with
  | .error e => (state, .error e)
  | .ok () =>
    if stem.length > Key.limit then (state, .ok ())
    else
      match s.checkLog with
      | .error e => (state, .error e)
      | .ok () => visit.walk (s.table.within (Range.ofBeginning stem)) state

/-! ### Durability -/

/-- Makes the writes of a store durable. -/
def sync (s : Store) : Store × Except Error Unit :=
  match s.checkOpen with
  | .error e => (s, .error e)
  | .ok () => s.persist

/-- Closes the store for good, once its engine has been shut down. -/
def close (s : Store) : Store × Except Error Unit :=
  match s.checkOpen with
  | .error e => (s, .error e)
  | .ok () =>
    match s.shutDown with
    | (s', .error e) => (s', .error e)
    | (s', .ok ()) => ({ s' with closed := true }, .ok ())

end Store

end ByteStore
