import ByteStore.Proofs.Store.Operations
import ByteStore.Proofs.Table
import Mathlib.Data.Finmap

/-!
# The reference machine

`Reference` is the least that the answers of a store can depend on: a flag that says whether the
store has been closed, and a finite map. A store that starts empty, on an engine that does not
fail, answers every run of requests as this machine does (`Represents.serveAll`), and what it has
for a key is what the last successful write of the run has put there.
-/

namespace ByteStore

/-! ### Requests -/

/-- The keys that a request names, in order. -/
def Request.keys : Request → List Bytes
  | .set key _ | .get key | .delete key => [key]
  | .apply ops => ops.map Operation.key
  | .sync | .close => []

/-- The operations that a request performs, in order. -/
def Request.writes (r : Request) : List Operation := r.batch?.getD []

/-- The answer to a request for a value. -/
def Answer.ofValue : Option Bytes → Answer
  | some v => .value v
  | none => .failed .notFound

/-! ### The machine -/

/-- A closed flag and a finite map. -/
structure Reference where
  closed : Bool
  bindings : Finmap fun _ : Bytes => Bytes

namespace Reference

/-- A machine that is open and empty. -/
def start : Reference := ⟨false, ∅⟩

/-- Why a key cannot be stored, if it cannot. -/
def complaint? (key : Bytes) : Option Error :=
  if key = [] then some (.malformedInput "key must not be empty")
  else if key.length > 65535 then
    some (.malformedInput s!"key of {key.length} bytes exceeds the 65535 byte limit")
  else none

/-- Performs one write. -/
def write (bindings : Finmap fun _ : Bytes => Bytes) : Operation → Finmap fun _ : Bytes => Bytes
  | .set key value => bindings.insert key value
  | .delete key => bindings.erase key

/--
Serves a request. A closed machine refuses everything, an open one what names a bad key; nothing
else is refused.
-/
def step (m : Reference) (r : Request) : Reference × Answer :=
  if m.closed then (m, .failed (.storage "store is closed"))
  else
    match r.keys.findSome? complaint? with
    | some e => (m, .failed e)
    | none =>
      match r with
      | .get key => (m, .ofValue (m.bindings.lookup key))
      | .close => ({ m with closed := true }, .done)
      | r => ({ m with bindings := r.writes.foldl write m.bindings }, .done)

/-- Serves requests one after the other. -/
def run (m : Reference) : List Request → Reference × List Answer
  | [] => (m, [])
  | r :: rs =>
    let (m', a) := m.step r
    let (m'', as) := m'.run rs
    (m'', a :: as)

/-! ### What the machine does -/

@[simp] lemma lookup_start (key : Bytes) : start.bindings.lookup key = none :=
  Finmap.lookup_empty key

lemma toError_tooLong (n : Nat) :
    Key.Fault.toError (.tooLong n)
      = .malformedInput s!"key of {n} bytes exceeds the 65535 byte limit" := by
  have h : " bytes exceeds the " ++ toString Key.limit ++ " byte limit"
      = " bytes exceeds the 65535 byte limit" := by decide
  simp only [Key.Fault.toError, Error.malformedInput.injEq, toString, String.append_assoc] at h ⊢
  rw [h]

lemma complaint?_eq (key : Bytes) : complaint? key = Key.error? key := by
  rw [complaint?, Key.error?, Key.fault?]
  cases key with
  | nil => rfl
  | cons b bs =>
    simp only [reduceCtorEq, if_false, List.isEmpty_cons, Bool.false_eq_true]
    by_cases h : (b :: bs).length > 65535
    · have hlimit : (b :: bs).length > Key.limit := h
      rw [if_pos h, if_pos hlimit, Option.map_some, toError_tooLong]
    · have hlimit : ¬(b :: bs).length > Key.limit := h
      rw [if_neg h, if_neg hlimit, Option.map_none]

lemma findSome?_complaint? (ops : List Operation) :
    (ops.map Operation.key).findSome? complaint? = Operation.error? ops := by
  rw [List.findSome?_map, Operation.error?]
  congr 1
  funext op
  exact complaint?_eq op.key

lemma lookup_write (bindings : Finmap fun _ : Bytes => Bytes) (op : Operation) (key : Bytes) :
    (write bindings op).lookup key = if key = op.key then op.value? else bindings.lookup key := by
  cases op with
  | set k value =>
    by_cases h : key = k
    · subst h
      simp [write]
    · simp [write, h, Finmap.lookup_insert_of_ne _ h]
  | delete k =>
    by_cases h : key = k
    · subst h
      simp [write]
    · simp [write, h, Finmap.lookup_erase_ne h]

lemma lookup_foldl_write (bindings : Finmap fun _ : Bytes => Bytes) (ops : List Operation)
    (key : Bytes) :
    (ops.foldl write bindings).lookup key
      = (Operation.last? key ops).elim (bindings.lookup key) Operation.value? := by
  induction ops generalizing bindings with
  | nil => rfl
  | cons op ops ih =>
    rw [List.foldl_cons, ih, Operation.last?_cons, lookup_write]
    cases Operation.last? key ops with
    | some last => rfl
    | none =>
      by_cases h : op.key = key
      · simp [h]
      · simp [h, Ne.symm h]

variable {m : Reference}

lemma step_of_closed (h : m.closed = true) (r : Request) :
    m.step r = (m, .failed (.storage "store is closed")) := by
  unfold step
  rw [if_pos h]

lemma step_of_batch (h : m.closed = false) {r : Request} {ops : List Operation}
    (hr : r.batch? = some ops) :
    m.step r = match Operation.error? ops with
      | some e => (m, .failed e)
      | none => ({ m with bindings := ops.foldl write m.bindings }, .done) := by
  unfold step
  rw [if_neg (Bool.eq_false_iff.1 h), ← findSome?_complaint?]
  cases r <;> cases hr <;> rfl

lemma step_get (h : m.closed = false) (key : Bytes) :
    m.step (.get key) = match Key.error? key with
      | some e => (m, .failed e)
      | none => (m, .ofValue (m.bindings.lookup key)) := by
  unfold step
  rw [if_neg (Bool.eq_false_iff.1 h), Request.keys, List.findSome?_singleton, complaint?_eq]

lemma step_sync (h : m.closed = false) : m.step .sync = (m, .done) := by
  unfold step
  rw [if_neg (Bool.eq_false_iff.1 h)]
  rfl

lemma step_close (h : m.closed = false) : m.step .close = ({ m with closed := true }, .done) := by
  unfold step
  rw [if_neg (Bool.eq_false_iff.1 h)]
  rfl

/-! ### The simulation -/

/-- A store stands for a machine. The engine of the store has not failed so far. -/
structure Represents (m : Reference) (s : Store) : Prop where
  closed : s.closed = m.closed
  sound : s.log = .sound
  get? : ∀ key, s.table.get? key = m.bindings.lookup key

variable {s : Store}

lemma Represents.not_fenced (h : Represents m s) : s.log ≠ .fenced := by
  rw [h.sound]
  exact Log.noConfusion

lemma Represents.serve_batch (h : Represents m s) (hm : m.closed = false) {r : Request}
    {ops : List Operation} (hr : r.batch? = some ops) :
    (s.serve r).2 = (m.step r).2 ∧ Represents (m.step r).1 (s.serve r).1 := by
  rw [Store.serve_of_batch hr, Store.apply_of_open (h.closed.trans hm), step_of_batch hm hr]
  cases Operation.error? ops with
  | some e => exact ⟨rfl, h⟩
  | none =>
    by_cases hops : ops = []
    · subst hops
      exact ⟨rfl, h⟩
    · simp only [if_neg hops, if_neg h.not_fenced]
      refine ⟨rfl, h.closed, by simp [Store.settle, h.sound], fun key => ?_⟩
      rw [Store.settle, Store.write_table, Table.get?_writeAll, lookup_foldl_write, h.get?]

lemma Represents.serve_get (h : Represents m s) (hm : m.closed = false) (key : Bytes) :
    (s.serve (.get key)).2 = (m.step (.get key)).2 ∧
      Represents (m.step (.get key)).1 (s.serve (.get key)).1 := by
  rw [Store.serve, Store.get_of_open (h.closed.trans hm), step_get hm]
  cases Key.error? key with
  | some e => exact ⟨rfl, h⟩
  | none =>
    simp only [if_neg h.not_fenced, h.get?]
    cases m.bindings.lookup key <;> exact ⟨rfl, h⟩

lemma Represents.flush_log (h : Represents m s) : s.flush.log = .sound := by
  rw [Store.flush_log, h.sound, Log.flush_sound]

lemma Represents.serve_sync (h : Represents m s) (hm : m.closed = false) :
    (s.serve .sync).2 = (m.step .sync).2 ∧ Represents (m.step .sync).1 (s.serve .sync).1 := by
  rw [Store.serve, Store.sync_of_open (h.closed.trans hm), step_sync hm, h.sound]
  exact ⟨rfl, h.closed, h.flush_log, h.get?⟩

lemma Represents.serve_close (h : Represents m s) (hm : m.closed = false) :
    (s.serve .close).2 = (m.step .close).2 ∧ Represents (m.step .close).1 (s.serve .close).1 := by
  rw [Store.serve, Store.close_of_open (h.closed.trans hm), step_close hm, h.sound]
  exact ⟨rfl, rfl, h.flush_log, h.get?⟩

/-- A store serves one request as the machine does. -/
theorem Represents.serve (h : Represents m s) (r : Request) :
    (s.serve r).2 = (m.step r).2 ∧ Represents (m.step r).1 (s.serve r).1 := by
  cases hm : m.closed with
  | true =>
    rw [Store.serve_of_closed (h.closed.trans hm), step_of_closed hm]
    exact ⟨rfl, h⟩
  | false =>
    match r with
    | .set .. | .delete _ | .apply _ => exact h.serve_batch hm rfl
    | .get key => exact h.serve_get hm key
    | .sync => exact h.serve_sync hm
    | .close => exact h.serve_close hm

/-- A store serves a run of requests as the machine does. -/
theorem Represents.serveAll (h : Represents m s) (rs : List Request) :
    (s.serveAll rs).2 = (m.run rs).2 ∧ Represents (m.run rs).1 (s.serveAll rs).1 := by
  induction rs generalizing m s with
  | nil => exact ⟨rfl, h⟩
  | cons r rs ih =>
    obtain ⟨hanswer, hnext⟩ := h.serve r
    obtain ⟨hanswers, hlast⟩ := ih hnext
    refine ⟨?_, hlast⟩
    simp only [Store.serveAll, run, hanswer, hanswers]

lemma represents_start (hempty : s.table = ∅) (hopen : s.closed = false)
    (hsound : s.log = .sound) : Represents start s where
  closed := hopen
  sound := hsound
  get? key := by
    rw [hempty, lookup_start]
    exact Table.get?_empty key

/-! ### The history of a run -/

/-- The operations that have been performed in a run, in order. -/
def performed (history : List (Request × Answer)) : List Operation :=
  history.flatMap fun x => if x.2 = .done then x.1.writes else []

lemma performed_cons (r : Request) (a : Answer) (history : List (Request × Answer)) :
    performed ((r, a) :: history) = (if a = .done then r.writes else []) ++ performed history :=
  List.flatMap_cons

/-- One request changes the map by what it performs. -/
lemma bindings_step (m : Reference) (r : Request) :
    (m.step r).1.bindings
      = (if (m.step r).2 = .done then r.writes else []).foldl write m.bindings := by
  cases hm : m.closed with
  | true => simp [step_of_closed hm]
  | false =>
    match r with
    | .sync => simp [step_sync hm, Request.writes, Request.batch?]
    | .close => simp [step_close hm, Request.writes, Request.batch?]
    | .get key =>
      rw [step_get hm, Request.writes, Request.batch?]
      cases Key.error? key <;> simp
    | .set .. | .delete _ | .apply _ =>
      rw [step_of_batch hm rfl, Request.writes, Request.batch?]
      cases Operation.error? _ <;> simp

lemma closed_step (h : m.closed = false) {r : Request} (hr : (m.step r).1.closed = true) :
    r = .close ∧ (m.step r).2 = .done := by
  match r with
  | .close => exact ⟨rfl, by rw [step_close h]⟩
  | .sync => simp [step_sync h, h] at hr
  | .get key =>
    rw [step_get h] at hr
    cases hk : Key.error? key <;> simp [hk, h] at hr
  | .set .. | .delete _ | .apply _ =>
    rw [step_of_batch h rfl] at hr
    split at hr <;> simp [h] at hr

lemma bindings_run (m : Reference) (rs : List Request) :
    (m.run rs).1.bindings = (performed (rs.zip (m.run rs).2)).foldl write m.bindings := by
  induction rs generalizing m with
  | nil => rfl
  | cons r rs ih =>
    rw [run, List.zip_cons_cons, performed_cons, List.foldl_append, ← bindings_step]
    exact ih _

lemma closed_run (h : m.closed = false) {rs : List Request}
    (hrs : (.close, .done) ∉ rs.zip (m.run rs).2) : (m.run rs).1.closed = false := by
  induction rs generalizing m with
  | nil => exact h
  | cons r rs ih =>
    rw [run, List.zip_cons_cons, List.mem_cons, not_or] at hrs
    refine ih (Bool.eq_false_iff.2 fun hclosed => hrs.1 ?_) hrs.2
    obtain ⟨rfl, hanswer⟩ := closed_step h hclosed
    rw [hanswer]

end Reference

/--
A store that starts empty, on an engine that does not fail, answers every run of requests as the
reference machine does. As long as it has not been closed, what it has for a key is the work of the
last operation on that key that the run has performed.
-/
theorem Store.serveAll_eq_reference {s : Store} (hempty : s.table = ∅) (hopen : s.closed = false)
    (hsound : s.log = .sound) (rs : List Request) :
    (s.serveAll rs).2 = (Reference.start.run rs).2 ∧
      ∀ key, Key.Valid key → (.close, .done) ∉ rs.zip (s.serveAll rs).2 →
        ((s.serveAll rs).1.serve (.get key)).2 = .ofValue
          ((Operation.last? key (Reference.performed (rs.zip (s.serveAll rs).2))).bind
            Operation.value?) := by
  obtain ⟨hanswers, hlast⟩ := (Reference.represents_start hempty hopen hsound).serveAll rs
  refine ⟨hanswers, fun key hkey hclose => ?_⟩
  rw [hanswers] at hclose ⊢
  have hstill : (Reference.start.run rs).1.closed = false := Reference.closed_run rfl hclose
  rw [(hlast.serve (.get key)).1, Reference.step_get hstill, Key.error?_eq_none_iff.2 hkey,
    Reference.bindings_run, Reference.lookup_foldl_write, Reference.lookup_start]
  cases Operation.last? key _ <;> rfl

/-- A refused batch leaves nothing behind, and the last operation of an accepted one counts. -/
theorem Store.serveAll_eq_reference_batches :
    let s : Store := ⟨0, .objects, none, ∅, .sound, false, nofun⟩
    let rs : List Request :=
      [.set [107] [1], .apply [.set [107] [2], .delete []], .get [107],
        .apply [.delete [107], .set [107] [3]], .sync]
    s.table = ∅ ∧ s.closed = false ∧ s.log = .sound ∧ Key.Valid [107] ∧
      (.close, .done) ∉ rs.zip (s.serveAll rs).2 ∧
      (s.serveAll rs).2 = (Reference.start.run rs).2 ∧
      ((s.serveAll rs).1.serve (.get [107])).2 = .value [3] := by
  intro s rs
  have hkey : Key.Valid [107] := by decide
  have hclose : (.close, .done) ∉ rs.zip (s.serveAll rs).2 := by decide
  obtain ⟨hanswers, hget⟩ := Store.serveAll_eq_reference (s := s) rfl rfl rfl rs
  exact ⟨rfl, rfl, rfl, hkey, hclose, hanswers, (hget [107] hkey hclose).trans (by decide)⟩

end ByteStore
