import ByteStore.Proofs.Session.Reached

/-!
# How calls fail

A call fails for one reason, `Session.failure?`, or it succeeds. What its caller sees follows from
that: `outcome_of_failure` for a call that fails, `delivers_of_success` for one that does not. The
message of a failure is handed out with every NUL in it spelled out (`Failure.text`). The equations
from `failure?_set` to `of?_scan` take the reason apart, one check after the other, and
`fails_of_failure?` says where a failure can come from at all.
-/

namespace ByteStore

/-! ### Parts of a failure -/

/-- The failure that a result is, if it is one. -/
def Failure.of? {α : Type} : Except Failure α → Option Failure
  | .ok _ => none
  | .error f => some f

lemma Failure.eq_error_of_of? {α : Type} {x : Except Failure α} {f : Failure}
    (hx : of? x = some f) : x = .error f := by
  cases x with
  | error g =>
    cases hx
    rfl
  | ok a => cases hx

lemma Failure.exists_of_of?_eq_none {α : Type} {x : Except Failure α} (hx : of? x = none) :
    ∃ a, x = .ok a := by
  cases x with
  | error f => cases hx
  | ok a => exact ⟨a, rfl⟩

lemma Failure.of?_orFail_eq_some_iff {α : Type} {x : Except Error α} {f : Failure} :
    of? (Session.orFail x) = some f ↔ ∃ e, x = .error e ∧ f = .ofError e := by
  cases x <;> simp [Session.orFail, of?, eq_comm]

/-- The failure of a call that has no place for the length of its result. -/
def Failure.noPlace (place : String) : Failure := .invalidInput s!"{place} must not be null"

/-- The failure of a call that a store answers. -/
def Answer.failure? : Answer → Option Failure
  | .failed e => some (.ofError e)
  | _ => none

lemma Answer.failure?_eq_some_iff {a : Answer} {f : Failure} :
    a.failure? = some f ↔ ∃ e, a = .failed e ∧ f = .ofError e := by
  cases a <;> simp [failure?, eq_comm]

lemma Answer.of?_resultOf (a : Answer) : Failure.of? (Session.resultOf a) = a.failure? := by
  cases a <;> rfl

namespace Argument

/-- The bytes that an argument stands for. -/
def given : Argument → Bytes
  | .bytes bs => bs
  | .absent _ => []

/-- What is wrong with an argument: it is absent and claims to have bytes. -/
def fault? (name : String) : Argument → Option Failure
  | .bytes _ => none
  | .absent length =>
    if length > 0 then some (.invalidInput s!"{name} must not be null when length > 0") else none

lemma read_eq (a : Argument) (name : String) :
    a.read name = match a.fault? name with
      | some f => .error f
      | none => .ok a.given := by
  cases a with
  | bytes bs => rfl
  | absent length =>
    rw [read, fault?]
    split_ifs <;> rfl

lemma status_of_fault? {a : Argument} {name : String} {f : Failure}
    (hf : a.fault? name = some f) : f.status = .invalidInput := by
  cases a with
  | bytes bs => cases hf
  | absent length =>
    rw [fault?] at hf
    split_ifs at hf
    cases hf
    rfl

end Argument

/-! ### Outcomes -/

namespace Failure

/-- Characters as they are handed out: a backslash and a zero for each NUL, any other as it is. -/
def spelled : List Char → List Char
  | [] => []
  | c :: cs => if c = '\x00' then '\\' :: '0' :: spelled cs else c :: spelled cs

/-- The message of a failure as a caller reads it. -/
def text (f : Failure) : String := String.ofList (spelled f.message.toList)

lemma spellNul_message (f : Failure) : Session.spellNul f.message = f.text := by
  rw [Session.spellNul, text]
  congr 1
  induction f.message.toList with
  | nil => rfl
  | cons c cs ih =>
    rw [List.flatMap_cons, ih, spelled]
    split_ifs <;> rfl

end Failure

/-- What the caller sees of a call that fails. -/
def Outcome.ofFailure (c : Call) (f : Failure) : Outcome where
  reply := match c with
    | .openStore .. => .handle 0
    | .get _ _ place | .scan _ _ place => .buffer none (if place then some 0 else none)
    | _ => .status f.status
  message := some f.text

/--
Whether a caller can tell that a call has succeeded: by the status, by the handle, by the bytes, and
where a scan has no bytes by the length and the message.
-/
def Outcome.Succeeded (c : Call) (o : Outcome) : Prop :=
  match c, o.reply with
  | .openStore .., .handle h => h ≠ 0
  | .get .., .buffer bytes _ => bytes ≠ none
  | .scan .., .buffer (some _) (some length) => 0 < length
  | .scan .., .buffer none (some length) => length = 0 ∧ o.message = none
  | _, .status status => status = .ok
  | _, _ => False

/-- Whether there is a place for the length of the result, for a call with such a result. -/
def Call.lengthPlace? : Call → Option Bool
  | .get _ _ place | .scan _ _ place => some place
  | _ => none

/-- Whether a call opens a store. -/
def Call.opens : Call → Bool
  | .openStore .. => true
  | _ => false

namespace Session

variable {s : Session} {handle : UInt64} {store : Store} {c : Call} {f : Failure}

/-- Why a call fails, if it does. -/
def failure? (s : Session) : Call → Option Failure
  | .openStore location inMemory =>
    match readLocation location with
    | .error f => some f
    | .ok text => Failure.of? (orFail (s.host.openStore text inMemory).2)
  | .close handle => Failure.of? (s.serve handle .close).2
  | .sync handle => Failure.of? (s.serve handle .sync).2
  | .set handle key value => Failure.of? (s.set handle key value).2
  | .delete handle key => Failure.of? (s.delete handle key).2
  | .apply handle ops => Failure.of? (s.apply handle ops).2
  | .get handle key place =>
    if place then Failure.of? (s.get handle key)
    else some (.noPlace "out_value_len")
  | .scan handle stem place =>
    if place then Failure.of? (s.scan handle stem)
    else some (.noPlace "out_len")
  | .initLogging => none

/-- What the caller of a call sees. -/
def outcome (s : Session) (c : Call) : Outcome := ⟨(s.call c).2, (s.call c).1.lastError⟩

/-- The replies of calls that succeed. -/
inductive Delivers (s : Session) : Call → Reply → Prop
  | handle (location : Option Bytes) (inMemory : Bool) :
      s.Delivers (.openStore location inMemory) (.handle s.stores.next)
  | value (handle : UInt64) (key : Argument) (value : Bytes) :
      s.Delivers (.get handle key true) (.buffer (some value) (some value.length))
  | entries (handle : UInt64) (stem : Argument) (bytes : Bytes) :
      s.Delivers (.scan handle stem true) (.buffer (nonempty bytes) (some bytes.length))
  | status {c : Call} (hc : c.lengthPlace? = none) (hopens : c.opens = false) :
      s.Delivers c (.status .ok)

lemma length_nonempty (bytes : Bytes) : (nonempty bytes).elim 0 List.length = bytes.length := by
  cases bytes <;> rfl

lemma outcome_fail (s : Session) (f : Failure) (reply : Reply) :
    (⟨reply, (s.fail f).lastError⟩ : Outcome) = ⟨reply, some f.text⟩ := by
  rw [fail, lastError, Option.map_some, Failure.spellNul_message]

lemma outcome_finish (p : Session × Except Failure Unit) :
    (⟨(finish p).2, (finish p).1.lastError⟩ : Outcome) = match Failure.of? p.2 with
      | some f => ⟨.status f.status, some f.text⟩
      | none => ⟨.status .ok, none⟩ := by
  obtain ⟨s, (f | ⟨⟩)⟩ := p
  · exact outcome_fail s f _
  · rfl

lemma outcome_finish_of_failure {p : Session × Except Failure Unit}
    (hf : Failure.of? p.2 = some f) :
    (⟨(finish p).2, (finish p).1.lastError⟩ : Outcome)
      = ⟨.status f.status, some f.text⟩ := by
  rw [outcome_finish, hf]

lemma outcome_finish_of_success {p : Session × Except Failure Unit} (hp : Failure.of? p.2 = none) :
    (⟨(finish p).2, (finish p).1.lastError⟩ : Outcome) = ⟨.status .ok, none⟩ := by
  rw [outcome_finish, hp]

lemma outcome_openStore (s : Session) (location : Option Bytes) (inMemory : Bool) :
    s.outcome (.openStore location inMemory)
      = match s.failure? (.openStore location inMemory) with
        | some f => .ofFailure (.openStore location inMemory) f
        | none => ⟨.handle s.stores.next, none⟩ := by
  rcases hread : readLocation location with f | text
  · simp only [outcome, call, openStore, failure?, hread]
    exact outcome_fail s f _
  · rcases hopen : s.host.openStore text inMemory with ⟨host, (e | store)⟩
    · simp only [outcome, call, openStore, failure?, hread, hopen]
      exact outcome_fail { s with host } (.ofError e) _
    · simp only [outcome, call, openStore, failure?, hread, hopen]
      rfl

lemma outcome_get (s : Session) (handle : UInt64) (key : Argument) :
    s.outcome (.get handle key true) = match s.get handle key with
      | .error f => .ofFailure (.get handle key true) f
      | .ok value => ⟨.buffer (some value) (some value.length), none⟩ := by
  rw [outcome, call]
  cases s.get handle key with
  | error f => exact outcome_fail s f _
  | ok value => rfl

lemma outcome_scan (s : Session) (handle : UInt64) (stem : Argument) :
    s.outcome (.scan handle stem true) = match s.scan handle stem with
      | .error f => .ofFailure (.scan handle stem true) f
      | .ok bytes => ⟨.buffer (nonempty bytes) (some bytes.length), none⟩ := by
  rw [outcome, call]
  cases s.scan handle stem with
  | error f => exact outcome_fail s f _
  | ok bytes => cases bytes <;> rfl

/-- A call that fails says so, leaves its message, and hands out nothing. -/
theorem outcome_of_failure (hf : s.failure? c = some f) : s.outcome c = .ofFailure c f := by
  cases c with
  | openStore location inMemory => rw [outcome_openStore, hf]
  | close handle | sync handle | set handle key value | delete handle key | apply handle ops =>
    exact outcome_finish_of_failure hf
  | get handle key place =>
    cases place with
    | false =>
      cases hf
      exact outcome_fail s _ _
    | true =>
      rw [failure?, if_pos rfl] at hf
      rw [outcome_get, Failure.eq_error_of_of? hf]
  | scan handle stem place =>
    cases place with
    | false =>
      cases hf
      exact outcome_fail s _ _
    | true =>
      rw [failure?, if_pos rfl] at hf
      rw [outcome_scan, Failure.eq_error_of_of? hf]
  | initLogging => cases hf

/-- A call that succeeds leaves no message, and hands out what it has been asked for. -/
theorem delivers_of_success (hc : s.failure? c = none) :
    (s.outcome c).message = none ∧ s.Delivers c (s.outcome c).reply := by
  cases c with
  | openStore location inMemory =>
    rw [outcome_openStore, hc]
    exact ⟨rfl, .handle location inMemory⟩
  | close handle | sync handle | set handle key value | delete handle key | apply handle ops =>
    rw [outcome, call, outcome_finish_of_success hc]
    exact ⟨rfl, .status rfl rfl⟩
  | get handle key place =>
    cases place with
    | false => cases hc
    | true =>
      rw [failure?, if_pos rfl] at hc
      obtain ⟨value, hvalue⟩ := Failure.exists_of_of?_eq_none hc
      rw [outcome_get, hvalue]
      exact ⟨rfl, .value handle key value⟩
  | scan handle stem place =>
    cases place with
    | false => cases hc
    | true =>
      rw [failure?, if_pos rfl] at hc
      obtain ⟨bytes, hbytes⟩ := Failure.exists_of_of?_eq_none hc
      rw [outcome_scan, hbytes]
      exact ⟨rfl, .entries handle stem bytes⟩
  | initLogging => exact ⟨rfl, .status rfl rfl⟩

/-! ### Checks, one after the other -/

/-- The failure of a call on a store under a handle that is not live. -/
def dead? (s : Session) (handle : UInt64) : Option Failure :=
  if s.stores.get? handle = none then some (.ofError (.invalidHandle handle)) else none

lemma dead?_of_live (hlive : s.stores.get? handle = some store) : s.dead? handle = none := by
  rw [dead?, hlive, if_neg (Option.some_ne_none store)]

lemma dead?_of_dead (hdead : s.stores.get? handle = none) :
    s.dead? handle = some (.ofError (.invalidHandle handle)) := by
  rw [dead?, if_pos hdead]

/-- A request fails for its handle, or else as the store under the handle answers. -/
lemma of?_serve (s : Session) (handle : UInt64) (r : Request) :
    Failure.of? (s.serve handle r).2 = (s.dead? handle).or
      ((s.stores.get? handle).bind fun store => (store.serve r).2.failure?) := by
  cases hlive : s.stores.get? handle with
  | none =>
    rw [serve_of_dead hlive, dead?_of_dead hlive]
    rfl
  | some store =>
    rw [dead?_of_live hlive, Option.none_or, Option.bind_some, result_serve hlive]
    exact (store.serve r).2.of?_resultOf

lemma failure?_set (s : Session) (handle : UInt64) (key value : Argument) :
    s.failure? (.set handle key value) = (key.fault? "key").or ((value.fault? "value").or
      (Failure.of? (s.serve handle (.set key.given value.given)).2)) := by
  rw [failure?, set, key.read_eq, value.read_eq]
  cases key.fault? "key" with
  | some f => cases value.fault? "value" <;> rfl
  | none => cases value.fault? "value" <;> rfl

lemma failure?_delete (s : Session) (handle : UInt64) (key : Argument) :
    s.failure? (.delete handle key) = (key.fault? "key").or
      (Failure.of? (s.serve handle (.delete key.given)).2) := by
  rw [failure?, delete, key.read_eq]
  cases key.fault? "key" <;> rfl

lemma readBatch_eq (s : Session) (handle : UInt64) (payload : Argument) :
    s.readBatch handle payload = match (payload.fault? "ops").or (s.dead? handle) with
      | some f => .error f
      | none =>
        match Wire.Batch.decode payload.given with
        | .error f => .error (.ofError f.toError)
        | .ok ops => .ok ops := by
  rw [readBatch, payload.read_eq]
  cases payload.fault? "ops" with
  | some f => rfl
  | none =>
    cases hlive : s.stores.get? handle with
    | none =>
      rw [store_of_dead hlive, dead?_of_dead hlive]
      rfl
    | some store =>
      rw [store_of_live hlive, dead?_of_live hlive]
      simp only [bind, Except.bind]
      cases Wire.Batch.decode payload.given <;> rfl

lemma failure?_apply (s : Session) (handle : UInt64) (payload : Argument) :
    s.failure? (.apply handle payload) = (payload.fault? "ops").or ((s.dead? handle).or
      (match Wire.Batch.decode payload.given with
        | .error f => some (.ofError f.toError)
        | .ok ops => Failure.of? (s.serve handle (.apply ops)).2)) := by
  rw [failure?, apply, readBatch_eq, ← Option.or_assoc]
  cases (payload.fault? "ops").or (s.dead? handle) with
  | some f => rfl
  | none => cases Wire.Batch.decode payload.given <;> rfl

lemma of?_get (s : Session) (handle : UInt64) (key : Argument) :
    Failure.of? (s.get handle key) = (key.fault? "key").or ((s.dead? handle).or
      ((s.stores.get? handle).bind fun store => Failure.of? (orFail (store.get key.given)))) := by
  rw [get, key.read_eq]
  cases key.fault? "key" with
  | some f => rfl
  | none =>
    cases hlive : s.stores.get? handle with
    | none =>
      rw [store_of_dead hlive, dead?_of_dead hlive]
      rfl
    | some store =>
      rw [store_of_live hlive, dead?_of_live hlive]
      rfl

lemma of?_scan (s : Session) (handle : UInt64) (stem : Argument) :
    Failure.of? (s.scan handle stem) = (stem.fault? "prefix").or ((s.dead? handle).or
      ((s.stores.get? handle).bind fun store =>
        Failure.of? (orFail (store.iterate stem.given collect .empty).2))) := by
  rw [scan, stem.read_eq]
  cases stem.fault? "prefix" with
  | some f => rfl
  | none =>
    cases hlive : s.stores.get? handle with
    | none =>
      rw [store_of_dead hlive, dead?_of_dead hlive]
      rfl
    | some store =>
      rw [store_of_live hlive, dead?_of_live hlive, Option.none_or, Option.none_or,
        Option.bind_some]
      simp only [bind, Except.bind]
      rcases store.iterate stem.given collect .empty with ⟨buffer, (e | ⟨⟩)⟩ <;> rfl

/-! ### What calls ask of stores -/

@[simp] lemma finishBuffer_host (s : Session) (place : String) (lengthPlace : Bool)
    (result : Except Failure (Option Bytes)) :
    (s.finishBuffer place lengthPlace result).1.host = s.host := by
  cases lengthPlace with
  | false => rfl
  | true => rcases result with f | (_ | bytes) <;> rfl

@[simp] lemma finishBuffer_stores (s : Session) (place : String) (lengthPlace : Bool)
    (result : Except Failure (Option Bytes)) :
    (s.finishBuffer place lengthPlace result).1.stores = s.stores := by
  cases lengthPlace with
  | false => rfl
  | true => rcases result with f | (_ | bytes) <;> rfl

/-- The request that a call passes to a store, if its arguments can be read. -/
inductive Asks : Call → UInt64 → Request → Prop
  | close (handle : UInt64) : Asks (.close handle) handle .close
  | sync (handle : UInt64) : Asks (.sync handle) handle .sync
  | set (handle : UInt64) (key value : Argument) :
      Asks (.set handle key value) handle (.set key.given value.given)
  | delete (handle : UInt64) (key : Argument) :
      Asks (.delete handle key) handle (.delete key.given)
  | apply (handle : UInt64) {payload : Argument} {ops : List Operation}
      (hops : Wire.Batch.decode payload.given = .ok ops) :
      Asks (.apply handle payload) handle (.apply ops)

/-- A call that opens nothing leaves host and stores alone, or it does to them what a request does. -/
theorem call_cases (s : Session) (hc : c.opens = false) :
    (s.call c).1.host = s.host ∧ (s.call c).1.stores = s.stores ∨
      ∃ handle r, Asks c handle r ∧ s.failure? c = Failure.of? (s.serve handle r).2 ∧
        (s.call c).1.host = (s.serve handle r).1.host ∧
        (s.call c).1.stores = (s.serve handle r).1.stores := by
  cases c with
  | openStore location inMemory => cases hc
  | initLogging => exact Or.inl ⟨rfl, rfl⟩
  | get handle key place => exact Or.inl ⟨finishBuffer_host .., finishBuffer_stores ..⟩
  | scan handle stem place => exact Or.inl ⟨finishBuffer_host .., finishBuffer_stores ..⟩
  | close handle =>
    exact Or.inr ⟨handle, _, .close handle, rfl, finish_host _, finish_stores _⟩
  | sync handle =>
    exact Or.inr ⟨handle, _, .sync handle, rfl, finish_host _, finish_stores _⟩
  | set handle key value =>
    rw [failure?, call, finish_host, finish_stores, set, key.read_eq, value.read_eq]
    cases key.fault? "key" with
    | some f => cases value.fault? "value" <;> exact Or.inl ⟨rfl, rfl⟩
    | none =>
      cases value.fault? "value" with
      | some f => exact Or.inl ⟨rfl, rfl⟩
      | none => exact Or.inr ⟨handle, _, .set handle key value, rfl, rfl, rfl⟩
  | delete handle key =>
    rw [failure?, call, finish_host, finish_stores, delete, key.read_eq]
    cases key.fault? "key" with
    | some f => exact Or.inl ⟨rfl, rfl⟩
    | none => exact Or.inr ⟨handle, _, .delete handle key, rfl, rfl, rfl⟩
  | apply handle payload =>
    rw [failure?, call, finish_host, finish_stores, apply, readBatch_eq]
    cases (payload.fault? "ops").or (s.dead? handle) with
    | some f => exact Or.inl ⟨rfl, rfl⟩
    | none =>
      cases hdecode : Wire.Batch.decode payload.given with
      | error f => exact Or.inl ⟨rfl, rfl⟩
      | ok ops => exact Or.inr ⟨handle, _, .apply handle hdecode, rfl, rfl, rfl⟩

/-! ### Where failures come from -/

lemma status_of_dead? (hf : s.dead? handle = some f) : f.status = .invalidHandle := by
  rw [dead?] at hf
  split_ifs at hf
  cases hf
  rfl

lemma status_of_readLocation {location : Option Bytes} (hf : readLocation location = .error f) :
    f.status = .invalidInput := by
  cases location with
  | none => cases hf
  | some bytes =>
    rw [readLocation] at hf
    split at hf
    · cases hf
    · cases hf
      rfl

/-- What can bring a failure about: a check of the session, or something that it has asked for. -/
inductive Fails (s : Session) : Failure → Prop
  | argument {f : Failure} (hf : f.status = .invalidInput) : s.Fails f
  | handle {handle : UInt64} {f : Failure} (hf : s.dead? handle = some f) : s.Fails f
  | payload (fault : Wire.Fault) : s.Fails (.ofError fault.toError)
  | openStore {text : String} {inMemory : Bool} {e : Error}
      (he : (s.host.openStore text inMemory).2 = .error e) : s.Fails (.ofError e)
  | serve {handle : UInt64} {store : Store} {r : Request} {e : Error}
      (hlive : s.stores.get? handle = some store) (he : (store.serve r).2 = .failed e) :
      s.Fails (.ofError e)
  | iterate {handle : UInt64} {store : Store} {stem : Bytes} {e : Error}
      (hlive : s.stores.get? handle = some store)
      (he : (store.iterate stem collect .empty).2 = .error e) : s.Fails (.ofError e)

lemma fails_of_fault? {a : Argument} {name : String} (hf : a.fault? name = some f) : s.Fails f :=
  .argument (Argument.status_of_fault? hf)

lemma fails_of_serve {r : Request} (hf : Failure.of? (s.serve handle r).2 = some f) :
    s.Fails f := by
  rw [of?_serve, Option.or_eq_some_iff, Option.bind_eq_some_iff] at hf
  rcases hf with hf | ⟨-, store, hlive, hf⟩
  · exact .handle hf
  · obtain ⟨e, he, rfl⟩ := Answer.failure?_eq_some_iff.1 hf
    exact .serve hlive he

lemma fails_of_get {key : Argument} (hf : Failure.of? (s.get handle key) = some f) :
    s.Fails f := by
  rw [of?_get, Option.or_eq_some_iff, Option.or_eq_some_iff, Option.bind_eq_some_iff] at hf
  rcases hf with hf | ⟨-, hf | ⟨-, store, hlive, hf⟩⟩
  · exact fails_of_fault? hf
  · exact .handle hf
  · obtain ⟨e, he, rfl⟩ := Failure.of?_orFail_eq_some_iff.1 hf
    have hserve : (store.serve (.get key.given)).2 = .failed e := by rw [Store.serve, he]
    exact .serve hlive hserve

lemma fails_of_scan {stem : Argument} (hf : Failure.of? (s.scan handle stem) = some f) :
    s.Fails f := by
  rw [of?_scan, Option.or_eq_some_iff, Option.or_eq_some_iff, Option.bind_eq_some_iff] at hf
  rcases hf with hf | ⟨-, hf | ⟨-, store, hlive, hf⟩⟩
  · exact fails_of_fault? hf
  · exact .handle hf
  · obtain ⟨e, he, rfl⟩ := Failure.of?_orFail_eq_some_iff.1 hf
    exact .iterate hlive he

/-- Every failure of a call comes from somewhere. -/
theorem fails_of_failure? (hf : s.failure? c = some f) : s.Fails f := by
  cases c with
  | initLogging => cases hf
  | close handle => exact fails_of_serve hf
  | sync handle => exact fails_of_serve hf
  | openStore location inMemory =>
    rw [failure?] at hf
    split at hf
    · rename_i hread
      cases hf
      exact .argument (status_of_readLocation hread)
    · obtain ⟨e, he, rfl⟩ := Failure.of?_orFail_eq_some_iff.1 hf
      exact .openStore he
  | set handle key value =>
    rw [failure?_set, Option.or_eq_some_iff, Option.or_eq_some_iff] at hf
    rcases hf with hf | ⟨-, hf | ⟨-, hf⟩⟩
    · exact fails_of_fault? hf
    · exact fails_of_fault? hf
    · exact fails_of_serve hf
  | delete handle key =>
    rw [failure?_delete, Option.or_eq_some_iff] at hf
    rcases hf with hf | ⟨-, hf⟩
    · exact fails_of_fault? hf
    · exact fails_of_serve hf
  | apply handle payload =>
    rw [failure?_apply, Option.or_eq_some_iff, Option.or_eq_some_iff] at hf
    rcases hf with hf | ⟨-, hf | ⟨-, hf⟩⟩
    · exact fails_of_fault? hf
    · exact .handle hf
    · split at hf
      · rename_i fault _
        cases hf
        exact .payload fault
      · exact fails_of_serve hf
  | get handle key place =>
    rw [failure?] at hf
    split_ifs at hf
    · exact fails_of_get hf
    · cases hf
      exact .argument rfl
  | scan handle stem place =>
    rw [failure?] at hf
    split_ifs at hf
    · exact fails_of_scan hf
    · cases hf
      exact .argument rfl

/-- No call fails with the status of success. -/
lemma status_ne_ok (hf : s.failure? c = some f) : f.status ≠ .ok := by
  cases fails_of_failure? hf with
  | argument hstatus =>
    rw [hstatus]
    exact Status.noConfusion
  | handle hdead =>
    rw [status_of_dead? hdead]
    exact Status.noConfusion
  | payload fault => exact Failure.status_ofError_ne_ok _
  | openStore he => exact Failure.status_ofError_ne_ok _
  | serve hlive he => exact Failure.status_ofError_ne_ok _
  | iterate hlive he => exact Failure.status_ofError_ne_ok _

/-! ### What callers can tell -/

lemma not_succeeded_ofFailure (hf : s.failure? c = some f) :
    ¬(Outcome.ofFailure c f).Succeeded c := by
  intro hsucceeded
  cases c with
  | openStore location inMemory => exact hsucceeded rfl
  | get handle key place => exact hsucceeded rfl
  | scan handle stem place =>
    cases place with
    | false => exact hsucceeded
    | true => exact absurd hsucceeded.2 (Option.some_ne_none _)
  | initLogging => cases hf
  | close handle | sync handle | set handle key value | delete handle key | apply handle ops =>
    exact status_ne_ok hf hsucceeded

lemma Delivers.succeeded {o : Outcome} (ho : s.Delivers c o.reply) (hmessage : o.message = none)
    (hnext : c.opens = true → s.stores.next ≠ 0) : o.Succeeded c := by
  obtain ⟨reply, message⟩ := o
  subst hmessage
  cases ho with
  | handle location inMemory => exact hnext rfl
  | value handle key value => exact Option.some_ne_none value
  | entries handle stem bytes =>
    cases bytes with
    | nil => exact ⟨rfl, rfl⟩
    | cons b bs => exact Nat.succ_pos bs.length
  | status hc hopens =>
    cases c with
    | openStore location inMemory => cases hopens
    | get handle key place => cases hc
    | scan handle stem place => cases hc
    | _ => rfl

/--
A caller can tell from the outcome of a call whether it has failed. Of an open that holds as long as
there are handles left.
-/
theorem succeeded_iff (hnext : c.opens = true → s.stores.next ≠ 0) :
    (s.outcome c).Succeeded c ↔ s.failure? c = none := by
  constructor
  · intro hsucceeded
    by_contra hfailure
    obtain ⟨f, hf⟩ := Option.ne_none_iff_exists'.1 hfailure
    rw [outcome_of_failure hf] at hsucceeded
    exact not_succeeded_ofFailure hf hsucceeded
  · intro hc
    obtain ⟨hmessage, hdelivers⟩ := delivers_of_success hc
    exact hdelivers.succeeded hmessage hnext

end Session

end ByteStore
