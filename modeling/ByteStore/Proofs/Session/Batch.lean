import ByteStore.Proofs.Session.Failure
import ByteStore.Proofs.Store.Batch
import ByteStore.Proofs.Wire.Batch

/-!
# A batch in one call, or an operation a call

A caller can hand over a batch at once, in its wire form, or perform its operations one call at a
time. Both ways succeed together, and then they leave the same store. Where they fail, the batch
leaves the store alone and reports what the first of the calls to fail reports.

One thing sets the ways apart. A batch has the keys of all its operations checked before the log is
asked for, a single call only its own. So on a store that has been fenced off, where all calls fail,
a batch reports the first key that cannot be stored, if there is one.
-/

namespace ByteStore

/-! ### Outcomes -/

/-- What a caller sees of an answer without a value. -/
def Outcome.ofAnswer : Answer → Outcome
  | .failed e => ⟨.status (.ofError e), some (Failure.ofError e).text⟩
  | _ => ⟨.status .ok, none⟩

/-- The first outcome of a call that failed. -/
def Outcome.firstFailed? (os : List Outcome) : Option Outcome :=
  os.find? fun o => o.reply ≠ .status .ok

/-- The first outcome of a call that was given malformed input. -/
def Outcome.firstMalformed? (os : List Outcome) : Option Outcome :=
  os.find? fun o => o.reply = .status .malformedInput

@[simp] lemma Outcome.reply_failed_ne_ok (e : Error) :
    (ofAnswer (.failed e)).reply ≠ .status .ok := by
  intro h
  exact Failure.status_ofError_ne_ok e (Reply.status.inj h)

lemma Outcome.reply_eq_ok_iff {refusal : Option Error} :
    (ofAnswer (.ofRefusal refusal)).reply = .status .ok ↔ refusal = none := by
  cases refusal with
  | none => exact iff_of_true rfl rfl
  | some e => exact iff_of_false (reply_failed_ne_ok e) (Option.some_ne_none e)

/-- The call that performs one operation. -/
def Operation.call (handle : UInt64) : Operation → Call
  | .set key value => .set handle (.bytes key) (.bytes value)
  | .delete key => .delete handle (.bytes key)

lemma Operation.request_ne_close (op : Operation) : op.request ≠ .close := by
  cases op <;> exact Request.noConfusion

/--
Where a test picks the outcomes of the operations whose keys cannot be stored, the first outcome
that it picks is the failure of the first such key.
-/
lemma Outcome.find?_map_eq_error? {p : Outcome → Bool} {f : Operation → Outcome}
    (hbad : ∀ op e, Key.error? op.key = some e → p (f op) = true ∧ f op = .ofAnswer (.failed e))
    (hgood : ∀ op, Key.error? op.key = none → p (f op) = false) (ops : List Operation) :
    (ops.map f).find? p = (Operation.error? ops).map fun e => .ofAnswer (.failed e) := by
  induction ops with
  | nil => rfl
  | cons op ops ih =>
    rw [List.map_cons, Operation.error?_cons]
    cases hkey : Key.error? op.key with
    | none =>
      rw [List.find?_cons_of_neg (by rw [hgood op hkey]; exact Bool.false_ne_true), ih]
      rfl
    | some e =>
      obtain ⟨hp, heq⟩ := hbad op e hkey
      rw [List.find?_cons_of_pos hp, heq]
      rfl

namespace Session

variable {s : Session} {handle : UInt64} {store : Store}

/-! ### Calls that write -/

lemma finish_resultOf (s : Session) (a : Answer) :
    (⟨(finish (s, resultOf a)).2, (finish (s, resultOf a)).1.lastError⟩ : Outcome)
      = .ofAnswer a := by
  cases a with
  | failed e => exact outcome_fail s (.ofError e) _
  | done => rfl
  | value v => rfl

lemma call_operation (hlive : s.stores.get? handle = some store) (op : Operation) :
    s.call (op.call handle)
      = finish (s.served handle store op.request, resultOf (store.serve op.request).2) := by
  rw [← serve_of_ne_close hlive op.request_ne_close]
  cases op <;> rfl

/-- A batch that can be read reaches the store as it is. -/
lemma call_apply (hlive : s.stores.get? handle = some store) {ops : List Operation}
    {payload : Bytes} (hpayload : Wire.Batch.decode payload = .ok ops) :
    s.call (.apply handle (.bytes payload))
      = finish (s.served handle store (.apply ops), resultOf (store.serve (.apply ops)).2) := by
  rw [← serve_of_ne_close hlive Request.noConfusion, call, apply, readBatch]
  simp only [Argument.read, bind, Except.bind, store_of_live hlive, hpayload]
  rfl

/-- Calls that perform operations are answered by the store, one after the other. -/
theorem callAll_operations (hlive : s.stores.get? handle = some store) (ops : List Operation) :
    (s.callAll (ops.map (Operation.call handle))).1.stores.get? handle
        = some (store.serveAll (ops.map Operation.request)).1 ∧
      (s.callAll (ops.map (Operation.call handle))).2
        = (store.serveAll (ops.map Operation.request)).2.map .ofAnswer := by
  induction ops generalizing s store with
  | nil => exact ⟨hlive, rfl⟩
  | cons op ops ih =>
    have hnext : (s.call (op.call handle)).1.stores.get? handle
        = some (store.serve op.request).1 := by
      rw [call_operation hlive, finish_stores, get?_served hlive, if_pos rfl]
    obtain ⟨hstore, houtcomes⟩ := ih hnext
    rw [List.map_cons, callAll_cons, List.map_cons, Store.serveAll]
    refine ⟨hstore, ?_⟩
    dsimp only
    rw [houtcomes, List.map_cons, call_operation hlive, finish_resultOf]

/-! ### The two ways compared -/

/-- What a caller sees of a batch for an open store. -/
lemma outcome_apply (hlive : s.stores.get? handle = some store) (hopen : store.closed = false)
    {ops : List Operation} {payload : Bytes} (hpayload : Wire.Batch.decode payload = .ok ops) :
    (⟨(s.call (.apply handle (.bytes payload))).2,
      (s.call (.apply handle (.bytes payload))).1.lastError⟩ : Outcome)
      = .ofAnswer (.ofRefusal (store.refusal? ops)) := by
  rw [call_apply hlive hpayload, finish_resultOf, Store.serve_apply_of_open hopen]

lemma get?_call_apply (hlive : s.stores.get? handle = some store) {ops : List Operation}
    {payload : Bytes} (hpayload : Wire.Batch.decode payload = .ok ops) :
    (s.call (.apply handle (.bytes payload))).1.stores.get? handle
      = some (store.serve (.apply ops)).1 := by
  rw [call_apply hlive hpayload, finish_stores, get?_served hlive, if_pos rfl]

/-- What a caller sees of the calls that perform operations on an open store. -/
lemma outcomes_operations (hlive : s.stores.get? handle = some store)
    (hopen : store.closed = false) (ops : List Operation) :
    (s.callAll (ops.map (Operation.call handle))).2
      = ops.map fun op => .ofAnswer (.ofRefusal (store.refusal? [op])) := by
  rw [(callAll_operations hlive ops).2, Store.answers_serveAll_requests hopen, List.map_map]
  rfl

/-- On a store that has not been fenced off, the first call to fail fails as the batch does. -/
lemma firstFailed?_of_not_fenced (hlog : store.log ≠ .fenced) (ops : List Operation) :
    Outcome.firstFailed? (ops.map fun op => .ofAnswer (.ofRefusal (store.refusal? [op])))
      = (Operation.error? ops).map fun e => .ofAnswer (.failed e) := by
  have hrefusal (op : Operation) : store.refusal? [op] = Key.error? op.key := by
    rw [Store.refusal?_singleton, if_neg hlog, Option.or_none]
  refine Outcome.find?_map_eq_error? (fun op e hkey => ?_) (fun op hkey => ?_) ops
  · rw [hrefusal, hkey]
    exact ⟨decide_eq_true (Outcome.reply_failed_ne_ok e), rfl⟩
  · rw [hrefusal, hkey]
    rfl

/-- On a store that has been fenced off, only a bad key makes a call fail as malformed. -/
lemma firstMalformed?_of_fenced (hlog : store.log = .fenced) (ops : List Operation) :
    Outcome.firstMalformed? (ops.map fun op => .ofAnswer (.ofRefusal (store.refusal? [op])))
      = (Operation.error? ops).map fun e => .ofAnswer (.failed e) := by
  have hrefusal (op : Operation) :
      store.refusal? [op] = (Key.error? op.key).or (some Store.fencedError) := by
    rw [Store.refusal?_singleton, if_pos hlog]
  refine Outcome.find?_map_eq_error? (fun op e hkey => ?_) (fun op hkey => ?_) ops
  · rw [hrefusal, hkey]
    obtain ⟨reason, rfl⟩ := Key.exists_of_error?_eq_some hkey
    exact ⟨rfl, rfl⟩
  · rw [hrefusal, hkey]
    rfl

/-- On a store that has been fenced off, the first call fails. -/
lemma firstFailed?_of_fenced (hlog : store.log = .fenced) {ops : List Operation} (hops : ops ≠ [])
    (hkeys : Operation.error? ops = none) :
    Outcome.firstFailed? (ops.map fun op => .ofAnswer (.ofRefusal (store.refusal? [op])))
      = some (.ofAnswer (.failed Store.fencedError)) := by
  obtain ⟨op, ops, rfl⟩ := List.exists_cons_of_ne_nil hops
  rw [Operation.error?_cons, Option.or_eq_none_iff] at hkeys
  have hrefusal : store.refusal? [op] = some Store.fencedError := by
    rw [Store.refusal?_singleton, hkeys.1, if_pos hlog, Option.none_or]
  rw [List.map_cons, hrefusal]
  exact List.find?_cons_of_pos (decide_eq_true (Outcome.reply_failed_ne_ok _))

/--
In every state of a session, a batch in one call and its operations in a call each succeed together,
and leave the store alike. A batch that fails leaves the store as it was, and fails as the first of
the calls to fail does. On a store that has been fenced off, it fails as the first call with
malformed input does, if there is one.
-/
theorem Reached.call_apply_eq_operations {host : Host} (hs : s.Reached host)
    (hlive : s.stores.get? handle = some store) {ops : List Operation}
    (hops : ∀ op ∈ ops, op.Fits) :
    ∃ payload, Wire.Batch.encode ops = .ok payload ∧
      let batch := s.call (.apply handle (.bytes payload))
      let singles := s.callAll (ops.map (Operation.call handle))
      (batch.2 = .status .ok ↔ ∀ o ∈ singles.2, o.reply = .status .ok) ∧
      (batch.2 = .status .ok → ∃ store', batch.1.stores.get? handle = some store' ∧
        singles.1.stores.get? handle = some store') ∧
      (batch.2 ≠ .status .ok → batch.1.stores.get? handle = some store ∧
        (store.log ≠ .fenced →
          Outcome.firstFailed? singles.2 = some ⟨batch.2, batch.1.lastError⟩) ∧
        (store.log = .fenced →
          (Outcome.firstMalformed? singles.2).or (Outcome.firstFailed? singles.2)
            = some ⟨batch.2, batch.1.lastError⟩)) := by
  have hopen : store.closed = false := hs.open_of_live hlive
  obtain ⟨payload, hpayload⟩ : ∃ payload, Wire.Batch.encode ops = .ok payload :=
    ⟨_, Wire.Batch.encode_eq_ok_iff.2 ⟨hops, rfl⟩⟩
  have hdecode : Wire.Batch.decode payload = .ok ops :=
    Wire.Batch.decode_eq_ok_iff.2 (Wire.Batch.encode_eq_ok_iff.1 hpayload)
  refine ⟨payload, hpayload, ?_⟩
  intro batch singles
  have hbatch : (⟨batch.2, batch.1.lastError⟩ : Outcome)
      = .ofAnswer (.ofRefusal (store.refusal? ops)) := outcome_apply hlive hopen hdecode
  have hsingles : singles.2 = ops.map fun op => .ofAnswer (.ofRefusal (store.refusal? [op])) :=
    outcomes_operations hlive hopen ops
  have hstore : batch.1.stores.get? handle = some (store.serve (.apply ops)).1 :=
    get?_call_apply hlive hdecode
  have hok : batch.2 = .status .ok ↔ store.refusal? ops = none := by
    rw [← Outcome.reply_eq_ok_iff, ← hbatch]
  refine ⟨?_, fun haccepted => ?_, fun hrefused => ?_⟩
  · rw [hok, Store.refusal?_eq_none_iff_forall, hsingles, List.forall_mem_map]
    simp only [Outcome.reply_eq_ok_iff]
  · refine ⟨_, hstore, ?_⟩
    rw [← Store.serveAll_requests_eq_apply hopen (hok.1 haccepted)]
    exact (callAll_operations hlive ops).1
  · obtain ⟨e, he⟩ := Option.ne_none_iff_exists'.1 (mt hok.2 hrefused)
    refine ⟨?_, fun hlog => ?_, fun hlog => ?_⟩
    · rw [hstore, Store.serve_apply_of_open hopen, if_neg (mt hok.2 hrefused)]
    · rw [hsingles, firstFailed?_of_not_fenced hlog, hbatch, he,
        ← Store.refusal?_of_not_fenced hlog, he]
      rfl
    · have hne : ops ≠ [] := fun h => hrefused (hok.2 (h ▸ store.refusal?_nil))
      rw [hsingles, firstMalformed?_of_fenced hlog, hbatch, Store.refusal?_of_fenced hlog hne]
      -- The fence is what the batch reports exactly if all its keys can be stored.
      cases hkeys : Operation.error? ops with
      | none =>
        rw [firstFailed?_of_fenced hlog hne hkeys]
        rfl
      | some e => rfl

/-- A batch that is refused as a whole, for its second operation. -/
theorem Reached.call_apply_eq_operations_refused :
    let s := ((Session.start Host.new).call (.openStore none true)).1
    let ops : List Operation := [.set [107] [1], .delete [], .set [] [2]]
    let singles := s.callAll (ops.map (Operation.call 1))
    s.Reached Host.new ∧ s.stores.get? 1 = some ⟨0, .tree, none, ∅, .sound, false, fun _ => rfl⟩ ∧
      (∀ op ∈ ops, op.Fits) ∧ ∃ payload, Wire.Batch.encode ops = .ok payload ∧
        (s.call (.apply 1 (.bytes payload))).1.stores.get? 1 = s.stores.get? 1 ∧
        Outcome.firstFailed? singles.2 = some ⟨(s.call (.apply 1 (.bytes payload))).2,
          (s.call (.apply 1 (.bytes payload))).1.lastError⟩ := by
  intro s ops singles
  have hs : s.Reached Host.new := Reached.start.call _
  have hlive : s.stores.get? 1 = some ⟨0, .tree, none, ∅, .sound, false, fun _ => rfl⟩ := by decide
  have hops : ∀ op ∈ ops, op.Fits := by decide
  have hfails : ¬ ∀ o ∈ singles.2, o.reply = .status .ok := by decide
  obtain ⟨payload, hpayload, hok, -, hrefused⟩ := Reached.call_apply_eq_operations hs hlive hops
  obtain ⟨hkept, hfirst, -⟩ := hrefused fun h => hfails (hok.1 h)
  exact ⟨hs, hlive, hops, payload, hpayload, hkept.trans hlive.symm, hfirst Log.noConfusion⟩

/--
A store whose log had lost its end when it was written to is fenced off after a flush. There the
first call fails for the fence, the batch for the key of its second operation.
-/
theorem Reached.call_apply_ne_operations :
    let location : Bytes := [115, 108, 97, 116, 101, 100, 98, 58, 126, 107, 118]
    let s := ((Session.start Host.new).callAll
      [.openStore (some location) false, .set 1 (.bytes [97]) (.bytes [98]), .sync 1]).1
    let ops : List Operation := [.set [107] [118], .delete []]
    let singles := s.callAll (ops.map (Operation.call 1))
    s.Reached Host.new ∧ (s.stores.get? 1).isSome ∧ (∀ op ∈ ops, op.Fits) ∧
      ∃ payload, Wire.Batch.encode ops = .ok payload ∧
        (s.call (.apply 1 (.bytes payload))).2 = .status .malformedInput ∧
        (Outcome.firstFailed? singles.2).map Outcome.reply = some (.status .storage) := by
  intro location s ops singles
  have hs : s.Reached Host.new := Reached.callAll .start _
  refine ⟨hs, by decide +kernel, by decide, _, rfl, by decide +kernel, by decide +kernel⟩

end Session

end ByteStore
