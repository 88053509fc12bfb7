import ByteStore.Proofs.Session.Stored
import ByteStore.Proofs.Store.Batch
import ByteStore.Proofs.Store.Iteration
import ByteStore.Proofs.Store.Reference

/-!
# The order of checks

A call that names a store has to pass six checks, one after the other. The first that it does not
pass is what it reports; a call that passes all of them succeeds, as long as the engine of its store
serves (`Session.failure?_eq_firstFault`). No call that fails changes anything, whatever the reason.
-/

namespace ByteStore

/-- What is checked of a call, in this order. -/
inductive Check
  /-- There is a place for the length of the result. -/
  | place
  /-- No byte string that claims to have bytes is absent. -/
  | bytes
  /-- The handle is live. -/
  | handle
  /-- The payload can be decoded. -/
  | payload
  /-- All keys can be stored. -/
  | key
  /-- The key has a value. -/
  | value
  deriving DecidableEq, Repr

namespace Check

def all : List Check := [.place, .bytes, .handle, .payload, .key, .value]

/-- The statuses of the calls that do not pass a check. -/
def statuses : Check → List Status
  | .place | .bytes => [.invalidInput]
  | .handle => [.invalidHandle]
  | .payload => [.malformedInput, .unknownOperation]
  | .key => [.malformedInput]
  | .value => [.notFound]

end Check

/-! ### Checks of arguments -/

namespace Call

/-- The store that a call names. -/
def handle? : Call → Option UInt64
  | .close handle | .sync handle | .set handle _ _ | .delete handle _ | .apply handle _
  | .get handle _ _ | .scan handle _ _ => some handle
  | .openStore .. | .initLogging => none

/-- The byte strings of a call with their names, from left to right. -/
def arguments : Call → List (String × Argument)
  | .set _ key value => [("key", key), ("value", value)]
  | .delete _ key | .get _ key _ => [("key", key)]
  | .apply _ payload => [("ops", payload)]
  | .scan _ stem _ => [("prefix", stem)]
  | _ => []

/-- The keys of a call, as far as they can be read. What a scan looks for is no key. -/
def keys : Call → List Bytes
  | .set _ key _ | .delete _ key | .get _ key _ => [key.given]
  | .apply _ payload =>
    match Wire.Batch.decode payload.given with
    | .ok ops => ops.map Operation.key
    | .error _ => []
  | _ => []

def noPlace? : Call → Option Failure
  | .get _ _ false => some (.noPlace "out_value_len")
  | .scan _ _ false => some (.noPlace "out_len")
  | _ => none

def noBytes? (c : Call) : Option Failure := c.arguments.findSome? fun a => a.2.fault? a.1

def undecodable? : Call → Option Failure
  | .apply _ payload =>
    match Wire.Batch.decode payload.given with
    | .error f => some (.ofError f.toError)
    | .ok _ => none
  | _ => none

/-- The failure of a call for its first key that is empty or has more than 65535 bytes. -/
def badKey? (c : Call) : Option Failure := (c.keys.findSome? Reference.complaint?).map .ofError

/-- Whether a call makes writes durable. -/
def flushes : Call → Bool
  | .close _ | .sync _ => true
  | _ => false

end Call

namespace Session

variable {s : Session} {c : Call} {handle : UInt64} {store : Store} {f : Failure}

/-- The failure of a call that asks a store for a value that is not there. -/
def absent? (s : Session) : Call → Option Failure
  | .get handle key _ =>
    (s.stores.get? handle).bind fun store =>
      if store.table.get? key.given = none then some (.ofError .notFound) else none
  | _ => none

/-- The failure that a call reports for not passing a check. -/
def fault? (s : Session) (c : Call) : Check → Option Failure
  | .place => c.noPlace?
  | .bytes => c.noBytes?
  | .handle => c.handle?.bind s.dead?
  | .payload => c.undecodable?
  | .key => c.badKey?
  | .value => s.absent? c

/-- The failure that a call reports for the first check that it does not pass. -/
def firstFault? (s : Session) (c : Call) : Option Failure := Check.all.findSome? (s.fault? c)

/-- Whether the engine of the store that a call names serves it, and has not fenced it off. -/
def EngineServes (s : Session) (c : Call) : Prop :=
  ∀ handle store, c.handle? = some handle → s.stores.get? handle = some store →
    (if c.flushes then store.log.flush else store.log) ≠ .fenced

/-- Whether one session has the same handles, entries and kept tables as another. -/
structure Keeps (s s' : Session) : Prop where
  host : s'.host = s.host
  next : s'.stores.next = s.stores.next
  contents : ∀ handle,
    (s'.stores.get? handle).map Store.table = (s.stores.get? handle).map Store.table

lemma findSome?_cons_eq_or {α : Type} (g : α → Option Failure) (a : α) (as : List α) :
    (a :: as).findSome? g = (g a).or (as.findSome? g) := by
  rw [List.findSome?_cons]
  cases g a <;> rfl

lemma firstFault?_eq (s : Session) (c : Call) :
    s.firstFault? c = c.noPlace?.or (c.noBytes?.or ((c.handle?.bind s.dead?).or
      (c.undecodable?.or (c.badKey?.or (s.absent? c))))) := by
  rw [firstFault?, Check.all]
  simp only [findSome?_cons_eq_or, List.findSome?_nil, Option.or_none]
  rfl

/-! ### The statuses of checks -/

/-- A call that does not pass a check reports a status of that check. -/
lemma status_of_fault? {k : Check} (hf : s.fault? c k = some f) : f.status ∈ k.statuses := by
  cases k with
  | place =>
    change c.noPlace? = some f at hf
    unfold Call.noPlace? at hf
    split at hf <;> cases hf <;> exact List.mem_singleton_self _
  | bytes =>
    obtain ⟨a, -, ha⟩ := List.exists_of_findSome?_eq_some hf
    exact List.mem_singleton.2 (Argument.status_of_fault? ha)
  | handle =>
    obtain ⟨handle, -, hdead⟩ := Option.bind_eq_some_iff.1 hf
    exact List.mem_singleton.2 (status_of_dead? hdead)
  | payload =>
    change c.undecodable? = some f at hf
    unfold Call.undecodable? at hf
    split at hf
    · split at hf
      · rename_i fault _
        cases hf
        cases fault with
        | unknownOperation code => exact List.mem_cons_of_mem _ List.mem_cons_self
        | _ => exact List.mem_cons_self
      · cases hf
    · cases hf
  | key =>
    obtain ⟨e, he, rfl⟩ := Option.map_eq_some_iff.1 hf
    obtain ⟨key, -, hkey⟩ := List.exists_of_findSome?_eq_some he
    rw [Reference.complaint?_eq] at hkey
    obtain ⟨reason, rfl⟩ := Key.exists_of_error?_eq_some hkey
    exact List.mem_singleton_self _
  | value =>
    change s.absent? c = some f at hf
    unfold absent? at hf
    split at hf
    · obtain ⟨store, -, hvalue⟩ := Option.bind_eq_some_iff.1 hf
      split_ifs at hvalue
      cases hvalue
      exact List.mem_singleton_self _
    · cases hf

/-! ### What is checked of arguments -/

lemma noBytes?_singleton {name : String} {a : Argument} (ha : c.arguments = [(name, a)]) :
    c.noBytes? = a.fault? name := by
  rw [Call.noBytes?, ha, List.findSome?_singleton]

lemma noBytes?_set (handle : UInt64) (key value : Argument) :
    (Call.set handle key value).noBytes? = (key.fault? "key").or (value.fault? "value") := by
  rw [Call.noBytes?, Call.arguments, findSome?_cons_eq_or, List.findSome?_singleton]

lemma badKey?_singleton {key : Bytes} (hkeys : c.keys = [key]) :
    c.badKey? = (Key.error? key).map .ofError := by
  rw [Call.badKey?, hkeys, List.findSome?_singleton, Reference.complaint?_eq]

lemma badKey?_eq (ops : List Operation) (hkeys : c.keys = ops.map Operation.key) :
    c.badKey? = (Operation.error? ops).map .ofError := by
  rw [Call.badKey?, hkeys, Reference.findSome?_complaint?]

/-! ### What stores check -/

lemma failure?_serve_batch (hopen : store.closed = false) (hlog : store.log ≠ .fenced) {r : Request}
    {ops : List Operation} (hr : r.batch? = some ops) :
    (store.serve r).2.failure? = (Operation.error? ops).map .ofError := by
  have happly : (store.serve r).2 = .ofRefusal (Operation.error? ops) := by
    rw [Store.serve_of_batch hr, ← Store.refusal?_of_not_fenced hlog]
    exact congrArg Prod.snd (Store.serve_apply_of_open hopen ops)
  rw [happly]
  cases Operation.error? ops <;> rfl

lemma failure?_serve_sync (hopen : store.closed = false) (hlog : store.log.flush ≠ .fenced) :
    (store.serve .sync).2.failure? = none := by
  rw [Store.serve, Store.sync_of_open hopen, if_neg hlog]
  rfl

lemma failure?_serve_close (hopen : store.closed = false) (hlog : store.log.flush ≠ .fenced) :
    (store.serve .close).2.failure? = none := by
  rw [Store.serve, Store.close_of_open hopen, if_neg hlog]
  rfl

lemma of?_store_get (hopen : store.closed = false) (hlog : store.log ≠ .fenced) (key : Bytes) :
    Failure.of? (orFail (store.get key)) = ((Key.error? key).map .ofError).or
      (if store.table.get? key = none then some (.ofError .notFound) else none) := by
  rw [Store.get_of_open hopen, if_neg hlog]
  cases Key.error? key with
  | some e => rfl
  | none => cases store.table.get? key <;> rfl

/-- A scan of entries that fit does not fail. -/
lemma of?_store_iterate (hopen : store.closed = false) (hlog : store.log ≠ .fenced)
    (hfits : store.table.Fits) (stem : Bytes) :
    Failure.of? (orFail (store.iterate stem collect .empty).2) = none := by
  have hwithin : ∀ e ∈ store.table.within (Range.ofBeginning stem), e.Fits :=
    fun e he => hfits e (List.mem_filter.1 he).1
  rw [Store.iterate_of_open hopen, if_neg hlog]
  split_ifs
  · rfl
  · rw [walk_collect hwithin]
    rfl

/-! ### The first fault -/

/-- Behind the check of a handle, only a store that is live matters. -/
lemma dead?_or_congr {x y : Option Failure}
    (hxy : ∀ store, s.stores.get? handle = some store → x = y) :
    (s.dead? handle).or x = (s.dead? handle).or y := by
  cases hlive : s.stores.get? handle with
  | none => rw [dead?_of_dead hlive, Option.some_or, Option.some_or]
  | some store => rw [hxy store hlive]

/-- A request whose handle is live fails as its store answers. -/
lemma of?_serve_of_live {r : Request} {x : Option Failure}
    (hx : ∀ store, s.stores.get? handle = some store → (store.serve r).2.failure? = x) :
    Failure.of? (s.serve handle r).2 = (s.dead? handle).or x := by
  rw [of?_serve]
  refine dead?_or_congr fun store hlive => ?_
  rw [hlive, Option.bind_some, hx store hlive]

/-- As long as its engine serves, a call fails for the first check that it does not pass. -/
theorem failure?_eq_firstFault (hc : c.handle?.isSome)
    (hopen : ∀ handle store, s.stores.get? handle = some store → store.closed = false)
    (hfits : ∀ handle store, s.stores.get? handle = some store → store.table.Fits)
    (hserves : s.EngineServes c) : s.failure? c = s.firstFault? c := by
  -- One case for each call: the checks that it lacks fall away, the others stand in their order.
  rw [firstFault?_eq]
  cases c with
  | openStore location inMemory => cases hc
  | initLogging => cases hc
  | close handle =>
    rw [failure?, of?_serve_of_live fun store hlive =>
      failure?_serve_close (hopen _ _ hlive) (hserves _ _ rfl hlive)]
    rfl
  | sync handle =>
    rw [failure?, of?_serve_of_live fun store hlive =>
      failure?_serve_sync (hopen _ _ hlive) (hserves _ _ rfl hlive)]
    rfl
  | set handle key value =>
    rw [failure?_set, noBytes?_set, badKey?_eq [.set key.given value.given] rfl]
    rw [of?_serve_of_live fun store hlive =>
      failure?_serve_batch (hopen _ _ hlive) (hserves _ _ rfl hlive) rfl]
    simp only [Call.noPlace?, Call.handle?, Call.undecodable?, absent?, Option.bind_some,
      Option.none_or, Option.or_none, Option.or_assoc]
  | delete handle key =>
    rw [failure?_delete, noBytes?_singleton rfl, badKey?_eq [.delete key.given] rfl]
    rw [of?_serve_of_live fun store hlive =>
      failure?_serve_batch (hopen _ _ hlive) (hserves _ _ rfl hlive) rfl]
    simp only [Call.noPlace?, Call.handle?, Call.undecodable?, absent?, Option.bind_some,
      Option.none_or, Option.or_none]
  | apply handle payload =>
    rw [failure?_apply, noBytes?_singleton rfl]
    refine congrArg _ (dead?_or_congr fun store hlive => ?_)
    cases hdecode : Wire.Batch.decode payload.given with
    | error fault => simp only [Call.undecodable?, hdecode, Option.some_or]
    | ok ops =>
      have hserve : Failure.of? (s.serve handle (.apply ops)).2
          = (s.dead? handle).or ((Operation.error? ops).map .ofError) :=
        of?_serve_of_live fun store hlive =>
          failure?_serve_batch (hopen _ _ hlive) (hserves _ _ rfl hlive) rfl
      rw [badKey?_eq ops (by simp only [Call.keys, hdecode])]
      simp only [Call.undecodable?, absent?, hdecode, hserve, dead?_of_live hlive, Option.none_or,
        Option.or_none]
  | get handle key place =>
    cases place with
    | false => rfl
    | true =>
      rw [failure?, if_pos rfl, of?_get, noBytes?_singleton rfl, badKey?_singleton rfl]
      refine congrArg _ (dead?_or_congr fun store hlive => ?_)
      rw [hlive, Option.bind_some, of?_store_get (hopen _ _ hlive) (hserves _ _ rfl hlive)]
      rw [absent?, hlive, Option.bind_some]
      rfl
  | scan handle stem place =>
    cases place with
    | false => rfl
    | true =>
      rw [failure?, if_pos rfl, of?_scan, noBytes?_singleton rfl]
      refine congrArg _ (dead?_or_congr fun store hlive => ?_)
      rw [hlive, Option.bind_some]
      exact of?_store_iterate (hopen _ _ hlive) (hserves _ _ rfl hlive) (hfits _ _ hlive) _

/-! ### Calls that fail -/

lemma Keeps.refl (s : Session) : s.Keeps s := ⟨rfl, rfl, fun _ => rfl⟩

lemma keeps_serve_of_failed {r : Request} (hf : Failure.of? (s.serve handle r).2 = some f) :
    s.Keeps (s.serve handle r).1 := by
  cases hlive : s.stores.get? handle with
  | none =>
    rw [serve_of_dead hlive]
    exact .refl s
  | some store =>
    rw [of?_serve, dead?_of_live hlive, hlive, Option.bind_some, Option.none_or] at hf
    obtain ⟨e, he⟩ : ∃ e, (store.serve r).2 = .failed e := by
      cases ha : (store.serve r).2 with
      | failed e => exact ⟨e, rfl⟩
      | _ =>
        rw [ha] at hf
        cases hf
    have hne : (store.serve r).2 ≠ .done := by
      rw [he]
      exact Answer.noConfusion
    rw [serve_of_failed hlive he]
    refine ⟨Host.serve_of_ne_done hne, rfl, fun k => ?_⟩
    dsimp only
    rw [get?_served hlive]
    split_ifs with hk
    · rw [hk, hlive, Option.map_some, Option.map_some, Store.table_serve_of_ne_done hne]
    · rfl

/-- A call that fails keeps all handles and all entries, unless it is one that opens a store. -/
theorem keeps_of_failed (hopens : c.opens = false) (hf : s.failure? c = some f) :
    s.Keeps (s.call c).1 := by
  rcases s.call_cases hopens with ⟨hhost, hstores⟩ | ⟨handle, r, -, hfailure, hhost, hstores⟩
  · exact ⟨hhost, congrArg _ hstores, fun handle => by rw [hstores]⟩
  · have hkeeps := keeps_serve_of_failed (hfailure ▸ hf)
    exact ⟨hhost.trans hkeeps.host, (congrArg _ hstores).trans hkeeps.next,
      fun k => hstores ▸ hkeeps.contents k⟩

/-! ### All sessions -/

/--
In every session whose calls have passed no value that is too long for its length word, a call on a
store reports the first check that it does not pass, with a status of that check, and succeeds if it
passes all of them; that the engine serves the store is assumed. Whether it is or not, a call that
fails keeps all handles, the next handle and all entries.
-/
theorem call_firstFault {host : Host} (hhost : ∀ e p, (host.table e p).Fits) {cs : List Call}
    (hcs : ∀ c ∈ cs, c.Fits) {c : Call} (hc : c.handle?.isSome) :
    let s := ((start host).callAll cs).1
    (s.EngineServes c →
      match s.firstFault? c with
      | some f => s.outcome c = .ofFailure c f
      | none => (s.outcome c).Succeeded c ∧ (s.outcome c).message = none) ∧
    (∀ check f, s.fault? c check = some f → f.status ∈ check.statuses) ∧
    (¬(s.outcome c).Succeeded c → s.Keeps (s.call c).1) := by
  intro s
  have hopens : c.opens = false := by
    cases c with
    | openStore location inMemory => cases hc
    | _ => rfl
  have hsucceeded : (s.outcome c).Succeeded c ↔ s.failure? c = none := by
    refine succeeded_iff fun h => ?_
    rw [hopens] at h
    cases h
  refine ⟨fun hserves => ?_, fun check f => status_of_fault?, fun hfailed => ?_⟩
  · have hs : s.Reached host := Reached.callAll .start cs
    have hfits : s.Fits := (fits_start hhost).callAll hcs
    have hfirst : s.failure? c = s.firstFault? c :=
      failure?_eq_firstFault hc (fun _ _ => hs.open_of_live) hfits.stores hserves
    cases hfault : s.firstFault? c with
    | some f => exact outcome_of_failure (hfirst.trans hfault)
    | none =>
      have hnone : s.failure? c = none := hfirst.trans hfault
      exact ⟨hsucceeded.2 hnone, (delivers_of_success hnone).1⟩
  · obtain ⟨f, hf⟩ := Option.ne_none_iff_exists'.1 (mt hsucceeded.2 hfailed)
    exact keeps_of_failed hopens hf

/-- An empty key and an absent value, of which only the value is reported. -/
theorem call_firstFault_value :
    let cs : List Call := [.openStore none true, .set 1 (.bytes [107]) (.bytes [118])]
    let c : Call := .set 1 (.bytes []) (.absent 2)
    let s := ((start Host.new).callAll cs).1
    (∀ e p, (Host.new.table e p).Fits) ∧ (∀ c ∈ cs, c.Fits) ∧ c.handle?.isSome ∧
      s.EngineServes c ∧ (s.fault? c .key).isSome ∧
      s.outcome c = .ofFailure c (.invalidInput "value must not be null when length > 0") ∧
      s.Keeps (s.call c).1 := by
  intro cs c s
  have hhost : ∀ e p, (Host.new.table e p).Fits := fun _ _ => Table.fits_empty
  have hcs : ∀ c ∈ cs, c.Fits :=
    List.forall_mem_cons.2 ⟨trivial, List.forall_mem_singleton.2 (show 1 < Word.limit by decide)⟩
  have hserves : s.EngineServes c := by
    rintro handle store ⟨⟩ hlive
    have hsound : (s.stores.get? 1).map Store.log = some .sound := by decide
    rw [hlive] at hsound
    change store.log ≠ .fenced
    rw [Option.some.inj hsound]
    exact Log.noConfusion
  obtain ⟨hfirst, -, hkeeps⟩ := call_firstFault hhost hcs (c := c) rfl
  have hfault : s.firstFault? c = some (.invalidInput "value must not be null when length > 0") := by
    decide
  have houtcome := hfirst hserves
  rw [hfault] at houtcome
  refine ⟨hhost, hcs, rfl, hserves, by decide, houtcome, hkeeps ?_⟩
  rw [houtcome]
  exact Status.noConfusion

end Session

end ByteStore
