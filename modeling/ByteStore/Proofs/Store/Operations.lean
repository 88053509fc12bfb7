import ByteStore.Store.Request
import Mathlib.Tactic.Common

/-!
# Operations of a store

What the operations of an open store come to. A single write is a batch of one operation, so one
equation, `Store.apply_of_open`, says of every write what it does and why it is refused. A closed
store refuses everything, and only `close` closes a store.
-/

namespace ByteStore

/-! ### Keys -/

/-- The error of a key that cannot be stored. -/
def Key.error? (key : Bytes) : Option Error := (fault? key).map Fault.toError

@[simp] lemma Key.error?_eq_none_iff {key : Bytes} : error? key = none ↔ Valid key := by
  rw [error?, Option.map_eq_none_iff, fault?_eq_none_iff]

lemma Key.check_eq (key : Bytes) :
    check key = match error? key with
      | some e => .error e
      | none => .ok () := by
  rw [check, error?]
  cases fault? key <;> rfl

/-- A bad key is malformed input; no other error comes from a key. -/
lemma Key.exists_of_error?_eq_some {key : Bytes} {e : Error} (h : error? key = some e) :
    ∃ reason, e = .malformedInput reason := by
  obtain ⟨f, -, rfl⟩ := Option.map_eq_some_iff.1 h
  cases f <;> exact ⟨_, rfl⟩

/-- The error of a batch in which some key cannot be stored: that of the first such key. -/
def Operation.error? (ops : List Operation) : Option Error :=
  ops.findSome? fun op => Key.error? op.key

@[simp] lemma Operation.error?_nil : error? [] = none := rfl

lemma Operation.error?_cons (op : Operation) (ops : List Operation) :
    error? (op :: ops) = (Key.error? op.key).or (error? ops) := by
  rw [error?, List.findSome?_cons]
  cases Key.error? op.key <;> rfl

lemma Operation.error?_eq_none_iff {ops : List Operation} :
    error? ops = none ↔ ∀ op ∈ ops, Key.Valid op.key := by
  simp [error?]

lemma Operation.checkAll_eq (ops : List Operation) :
    checkAll ops = match error? ops with
      | some e => .error e
      | none => .ok () := by
  induction ops with
  | nil => rfl
  | cons op ops ih =>
    rw [checkAll, Key.check_eq, error?_cons, ih]
    cases Key.error? op.key <;> rfl

/-! ### Requests that write -/

/-- The operations that a request performs, if it is one that writes. -/
def Request.batch? : Request → Option (List Operation)
  | .set key value => some [.set key value]
  | .delete key => some [.delete key]
  | .apply ops => some ops
  | .get _ | .sync | .close => none

/-- The request that performs one operation. -/
def Operation.request : Operation → Request
  | .set key value => .set key value
  | .delete key => .delete key

@[simp] lemma Operation.batch?_request (op : Operation) : op.request.batch? = some [op] := by
  cases op <;> rfl

/-! ### Logs -/

namespace Log

@[simp] lemma write_eq_fenced_iff {log : Log} : log.write = .fenced ↔ log = .fenced := by
  cases log <;> simp [write]

@[simp] lemma write_write (log : Log) : log.write.write = log.write := by
  cases log <;> rfl

@[simp] lemma flush_flush (log : Log) : log.flush.flush = log.flush := by
  rcases log with _ | (_ | _) | _ <;> rfl

end Log

namespace Store

variable {s : Store}

/-! ### Engines -/

@[simp] lemma write_table (s : Store) (t : Table) : (s.write t).table = t := rfl

@[simp] lemma write_log (s : Store) (t : Table) : (s.write t).log = s.log.write := rfl

@[simp] lemma write_closed (s : Store) (t : Table) : (s.write t).closed = s.closed := rfl

@[simp] lemma flush_log (s : Store) : s.flush.log = s.log.flush := rfl

lemma flush_flush (s : Store) : s.flush.flush = s.flush := by
  simp only [flush, Log.flush_flush]

/-- A tree is asked for a batch without operations as well, and nothing comes of it. -/
lemma commit_nil (h : s.engine = .tree) : s.commit [] = .ok s := by
  obtain ⟨serial, engine, home, table, log, closed, sound⟩ := s
  obtain rfl : log = .sound := sound h
  rfl

/-- What a database has made durable is not made durable again as it closes. -/
lemma shutDown_eq_persist (s : Store) : s.shutDown = s.persist := by
  rw [shutDown, persist]
  cases s.engine with
  | tree => rfl
  | objects =>
    cases hlog : s.flush.checkLog with
    | error e => rfl
    | ok _ => simp only [persist, flush_flush, hlog]

/-- So both engines perform every batch alike. -/
lemma apply_eq (s : Store) (ops : List Operation) :
    s.apply ops = (do
      s.checkOpen
      Operation.checkAll ops
      if ops = [] then return s else s.commit ops) := by
  rw [apply]
  cases h : s.engine with
  | tree =>
    by_cases hops : ops = []
    · simp only [hops, commit_nil h]
      rfl
    · simp only [if_neg hops]
  | objects => cases ops <;> rfl

/-! ### Single keys -/

lemma set_eq_apply (s : Store) (key value : Bytes) :
    s.set key value = s.apply [.set key value] := by
  rw [set, apply_eq, commit]
  cases h : Key.check key <;> simp [Operation.checkAll, h, Table.insert, Table.write]

lemma delete_eq_apply (s : Store) (key : Bytes) : s.delete key = s.apply [.delete key] := by
  rw [delete, apply_eq, commit]
  cases h : Key.check key <;> simp [Operation.checkAll, h, Table.erase, Table.write]

/-- A request that writes is answered as the batch of its operations is. -/
lemma serve_of_batch {r : Request} {ops : List Operation} (hr : r.batch? = some ops) :
    s.serve r = s.settle (s.apply ops) := by
  cases r <;> cases hr
  case set key value => rw [serve, set_eq_apply]
  case delete key => rw [serve, delete_eq_apply]
  case apply => rfl

/-! ### Closed stores -/

lemma checkOpen_of_open (h : s.closed = false) : s.checkOpen = .ok () := by
  rw [checkOpen, h, if_neg Bool.false_ne_true]

lemma checkOpen_of_closed (h : s.closed = true) : s.checkOpen = .error closedError := by
  rw [checkOpen, h, if_pos rfl]

/-- A closed store fails every request in the same way. -/
theorem serve_of_closed (h : s.closed = true) (r : Request) :
    s.serve r = (s, .failed closedError) := by
  cases r <;>
    simp [serve, set, get, delete, apply, sync, close, settle, checkOpen_of_closed h, bind,
      Except.bind, Answer.ofResult]

/-! ### Open stores -/

lemma apply_of_open (h : s.closed = false) (ops : List Operation) :
    s.apply ops = match Operation.error? ops with
      | some e => .error e
      | none =>
        if ops = [] then .ok s
        else if s.log = .fenced then .error fencedError
        else .ok (s.write (s.table.writeAll ops)) := by
  rw [apply_eq, commit, checkLog, checkOpen_of_open h, Operation.checkAll_eq]
  cases Operation.error? ops with
  | some e => rfl
  | none =>
    simp only [bind, Except.bind]
    split_ifs <;> rfl

/-- What a request that writes may change: nothing, or the table and the log. -/
lemma serve_batch_cases (h : s.closed = false) {r : Request} (hr : r.batch?.isSome) :
    (s.serve r).1 = s ∨
      ∃ ops : List Operation, (∀ op ∈ ops, Key.Valid op.key) ∧
        (s.serve r).1 = s.write (s.table.writeAll ops) := by
  obtain ⟨ops, hops⟩ := Option.isSome_iff_exists.1 hr
  rw [serve_of_batch hops, apply_of_open h]
  cases herror : Operation.error? ops with
  | some e => exact Or.inl rfl
  | none =>
    dsimp only
    split_ifs
    · exact Or.inl rfl
    · exact Or.inl rfl
    · exact Or.inr ⟨ops, Operation.error?_eq_none_iff.1 herror, rfl⟩

lemma get_of_open (h : s.closed = false) (key : Bytes) :
    s.get key = match Key.error? key with
      | some e => .error e
      | none =>
        if s.log = .fenced then .error fencedError
        else
          match s.table.get? key with
          | some value => .ok value
          | none => .error .notFound := by
  rw [get, checkLog, checkOpen_of_open h, Key.check_eq]
  cases Key.error? key with
  | some e => rfl
  | none =>
    simp only [bind, Except.bind]
    split_ifs
    · rfl
    · cases s.table.get? key <;> rfl

lemma sync_of_open (h : s.closed = false) :
    s.sync = (s.flush, if s.log.flush = .fenced then .error fencedError else .ok ()) := by
  rw [sync, checkOpen_of_open h]
  rfl

lemma close_of_open (h : s.closed = false) :
    s.close = if s.log.flush = .fenced then (s.flush, .error fencedError)
      else ({ s.flush with closed := true }, .ok ()) := by
  rw [close, checkOpen_of_open h, shutDown_eq_persist, persist, checkLog, flush_log]
  split_ifs <;> rfl

/-- An open store asks its engine for entries only under a beginning that a key can have. -/
lemma iterate_of_open (h : s.closed = false) {σ : Type} (stem : Bytes) (visit : Visitor σ) (t : σ) :
    s.iterate stem visit t =
      if Key.limit < stem.length then (t, .ok ())
      else if s.log = .fenced then (t, .error fencedError)
      else visit.walk (s.table.within (Range.ofBeginning stem)) t := by
  rw [iterate, checkLog, checkOpen_of_open h]
  dsimp only
  split_ifs <;> rfl

/-! ### Any store -/

/-- What a request may change: nothing, the table and the log, or the log and the flag. -/
theorem serve_cases (s : Store) (r : Request) :
    (s.serve r).1 = s ∨
      (∃ ops, r.batch? = some ops ∧ (∀ op ∈ ops, Key.Valid op.key) ∧
        s.serve r = (s.write (s.table.writeAll ops), .done)) ∨
      r.makesDurable = true ∧ ∃ closed,
        (s.serve r).1 = { s with log := s.log.flush, closed, sound := s.flush.sound } := by
  cases h : s.closed with
  | true => exact Or.inl (by rw [serve_of_closed h])
  | false =>
    cases hbatch : r.batch? with
    | some ops =>
      rw [serve_of_batch hbatch, apply_of_open h]
      cases herror : Operation.error? ops with
      | some e => exact Or.inl rfl
      | none =>
        dsimp only
        split_ifs
        · exact Or.inl rfl
        · exact Or.inl rfl
        · exact Or.inr (Or.inl ⟨ops, rfl, Operation.error?_eq_none_iff.1 herror, rfl⟩)
    | none =>
      cases r with
      | set key value => cases hbatch
      | delete key => cases hbatch
      | apply ops => cases hbatch
      | get key =>
        refine Or.inl ?_
        rw [serve]
        split <;> rfl
      | sync =>
        refine Or.inr (Or.inr ⟨rfl, s.closed, ?_⟩)
        rw [serve, sync_of_open h]
        rfl
      | close =>
        refine Or.inr (Or.inr ⟨rfl, ?_⟩)
        rw [serve, close_of_open h]
        split_ifs
        · exact ⟨s.closed, rfl⟩
        · exact ⟨true, rfl⟩

/-- Only what has been done changes an entry. -/
lemma table_serve_of_ne_done {r : Request} (hr : (s.serve r).2 ≠ .done) :
    (s.serve r).1.table = s.table := by
  rcases s.serve_cases r with h | ⟨ops, -, -, h⟩ | ⟨-, closed, h⟩
  · rw [h]
  · rw [h] at hr
    exact absurd rfl hr
  · rw [h]

@[simp] lemma engine_serve (s : Store) (r : Request) : (s.serve r).1.engine = s.engine := by
  rcases s.serve_cases r with h | ⟨ops, -, -, h⟩ | ⟨-, closed, h⟩
  · rw [h]
  · rw [h]
    rfl
  · rw [h]

@[simp] lemma home_serve (s : Store) (r : Request) : (s.serve r).1.home = s.home := by
  rcases s.serve_cases r with h | ⟨ops, -, -, h⟩ | ⟨-, closed, h⟩
  · rw [h]
  · rw [h]
    rfl
  · rw [h]

/-- A close has no value to answer with. -/
lemma answer_close (s : Store) :
    (s.serve .close).2 = .done ∨ ∃ e, (s.serve .close).2 = .failed e := by
  rw [serve, Prod.map_snd]
  cases s.close.2 with
  | ok _ => exact Or.inl rfl
  | error e => exact Or.inr ⟨e, rfl⟩

/-- A close that succeeds closes the store. -/
lemma closed_serve_close (h : s.closed = false) (hdone : (s.serve .close).2 = .done) :
    (s.serve .close).1.closed = true := by
  rw [serve, close_of_open h] at hdone ⊢
  split_ifs with hfenced
  · rw [if_pos hfenced] at hdone
    cases hdone
  · rfl

/-- An open store stays open unless a close succeeds. -/
theorem closed_serve (h : s.closed = false) {r : Request}
    (hr : r ≠ .close ∨ ∃ e, (s.serve r).2 = .failed e) : (s.serve r).1.closed = false := by
  cases hbatch : r.batch? with
  | some ops =>
    rcases serve_batch_cases h (Option.isSome_of_mem hbatch) with heq | ⟨ops, -, heq⟩
    · rw [heq, h]
    · rw [heq, write_closed, h]
  | none =>
    cases r with
    | set key value => cases hbatch
    | delete key => cases hbatch
    | apply ops => cases hbatch
    | get key =>
      rw [serve]
      split <;> exact h
    | sync =>
      rw [serve, sync_of_open h]
      exact h
    | close =>
      obtain ⟨e, he⟩ := hr.resolve_left fun hne => hne rfl
      rw [serve, close_of_open h] at he ⊢
      split_ifs with hfenced
      · exact h
      · rw [if_neg hfenced] at he
        cases he

end Store

end ByteStore
