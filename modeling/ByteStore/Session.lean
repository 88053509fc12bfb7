import ByteStore.HandleTable
import ByteStore.Host
import ByteStore.Status
import ByteStore.Text.Utf8
import ByteStore.Wire.Batch
import ByteStore.Wire.Scan

/-!
# Sessions

A session is the outer boundary of the library. Its callers name stores by handles and pass byte
strings that may be absent; it answers with plain data and remembers the message of the last failure
until another call has succeeded.

The arguments of a call are checked in a fixed order: first the place for the length of the result,
then the byte strings from left to right, then the handle, then the payload. Only then is the store
asked.
-/

namespace ByteStore

/-- A byte string as a caller passes it. -/
inductive Argument
  /-- No bytes, with the length that the caller claims. -/
  | absent (length : Nat)
  | bytes (bytes : Bytes)
  deriving DecidableEq, Repr

/-- The calls of a session. -/
inductive Call
  | openStore (location : Option Bytes) (inMemory : Bool)
  | close (handle : UInt64)
  | sync (handle : UInt64)
  | set (handle : UInt64) (key value : Argument)
  | delete (handle : UInt64) (key : Argument)
  | apply (handle : UInt64) (ops : Argument)
  /-- `lengthPlace` says whether there is a place for the length of the result. -/
  | get (handle : UInt64) (key : Argument) (lengthPlace : Bool)
  | scan (handle : UInt64) (stem : Argument) (lengthPlace : Bool)
  /-- Turns on logging, which is left out; only the answer matters. -/
  | initLogging
  deriving DecidableEq, Repr

/-- What a call returns. -/
inductive Reply
  | handle (handle : UInt64)
  | status (status : Status)
  /-- The bytes of a result, if there are any, and its length, if there is a place for it. -/
  | buffer (bytes : Option Bytes) (length : Option Nat)
  deriving DecidableEq, Repr

/-- Stores under their handles, and the message of the last call if it failed. -/
structure Session where
  host : Host
  stores : HandleTable Store
  lastFailure : Option String
  deriving DecidableEq

/-! ### Arguments -/

/-- The bytes of an argument. An absent one must not claim to have any. -/
def Argument.read (name : String) : Argument → Except Failure Bytes
  | .bytes bs => .ok bs
  | .absent length =>
    if length > 0 then .error (.invalidInput s!"{name} must not be null when length > 0")
    else .ok []

namespace Session

/-- The text of a location, which ends at the first NUL. An absent one is empty. -/
def readLocation : Option Bytes → Except Failure String
  | none => .ok ""
  | some bs =>
    match Text.Utf8.decode (bs.takeWhile (· != 0)) with
    | .ok text => .ok text
    | .error f => .error (.invalidInput s!"location is not valid UTF-8: {f.message}")

/-- An error as the failure of a call. -/
def orFail {α : Type} : Except Error α → Except Failure α
  | .ok a => .ok a
  | .error e => .error (.ofError e)

/-! ### Calls on one store -/

/-- The store under a handle. -/
def store (s : Session) (handle : UInt64) : Except Failure Store := orFail (s.stores.lookup handle)

/-- Passes a request to the store under a handle; a store that has been closed loses its handle. -/
def serve (s : Session) (handle : UInt64) (r : Request) : Session × Except Failure Unit :=
  match s.store handle with
  | .error f => (s, .error f)
  | .ok store =>
    let (host, store', answer) := s.host.serve store r
    let s' := { s with host, stores := s.stores.update handle store' }
    match answer with
    | .failed e => (s', .error (.ofError e))
    | _ =>
      if r = .close then
        match s'.stores.release handle with
        | .ok stores => ({ s' with stores }, .ok ())
        | .error e => (s', .error (.ofError e))
      else (s', .ok ())

/-- Sets the value of a key. -/
def set (s : Session) (handle : UInt64) (key value : Argument) : Session × Except Failure Unit :=
  match key.read "key", value.read "value" with
  | .ok key, .ok value => s.serve handle (.set key value)
  | .error f, _ | .ok _, .error f => (s, .error f)

/-- Removes the value of a key. -/
def delete (s : Session) (handle : UInt64) (key : Argument) : Session × Except Failure Unit :=
  match key.read "key" with
  | .ok key => s.serve handle (.delete key)
  | .error f => (s, .error f)

/-- The operations of a batch for the store under a handle. -/
def readBatch (s : Session) (handle : UInt64) (ops : Argument) :
    Except Failure (List Operation) := do
  let payload ← ops.read "ops"
  let _ ← s.store handle
  match Wire.Batch.decode payload with
  | .error f => throw (.ofError f.toError)
  | .ok ops => return ops

/-- Applies a batch. -/
def apply (s : Session) (handle : UInt64) (ops : Argument) : Session × Except Failure Unit :=
  match s.readBatch handle ops with
  | .ok ops => s.serve handle (.apply ops)
  | .error f => (s, .error f)

/-- The value of a key. There is room for every copy of a value: memory does not run out here. -/
def get (s : Session) (handle : UInt64) (key : Argument) : Except Failure Bytes := do
  let key ← key.read "key"
  let store ← s.store handle
  orFail (store.get key)

/-- Adds entries to a result until one cannot be written. -/
def collect : Visitor Wire.Scan.Buffer := fun buffer e =>
  match buffer.append e with
  | .ok buffer' => (buffer', .ok ())
  | .error f => (buffer, .error f.toError)

/-- The entries whose keys begin with `stem`, in their wire form. -/
def scan (s : Session) (handle : UInt64) (stem : Argument) : Except Failure Bytes := do
  let stem ← stem.read "prefix"
  let store ← s.store handle
  match store.iterate stem collect .empty with
  | (buffer, .ok ()) => return buffer.bytes
  | (_, .error e) => throw (.ofError e)

/-! ### Results -/

/-- The session after a call that succeeded. -/
def succeed (s : Session) : Session := { s with lastFailure := none }

/-- The session after a call that failed. -/
def fail (s : Session) (f : Failure) : Session := { s with lastFailure := some f.message }

/-- Finishes a call that returns a status. -/
def finish : Session × Except Failure Unit → Session × Reply
  | (s, .ok ()) => (s.succeed, .status .ok)
  | (s, .error f) => (s.fail f, .status f.status)

/-- Finishes a call that returns bytes, for which `place` names the place of their length. -/
def finishBuffer (s : Session) (place : String) (lengthPlace : Bool)
    (result : Except Failure (Option Bytes)) : Session × Reply :=
  if lengthPlace then
    match result with
    | .ok (some bytes) => (s.succeed, .buffer (some bytes) (some bytes.length))
    | .ok none => (s.succeed, .buffer none (some 0))
    | .error f => (s.fail f, .buffer none (some 0))
  else (s.fail (.invalidInput s!"{place} must not be null"), .buffer none none)

/-- The bytes of a scan. There are none if there is no entry. -/
def nonempty (bytes : Bytes) : Option Bytes := if bytes.isEmpty then none else some bytes

/-! ### Calls -/

/-- A session on a host, without any store. -/
def start (host : Host) : Session := ⟨host, .empty, none⟩

/-- Opens a store and gives it a handle. Where it fails, the handle is 0. -/
def openStore (s : Session) (location : Option Bytes) (inMemory : Bool) : Session × Reply :=
  match readLocation location with
  | .error f => (s.fail f, .handle 0)
  | .ok text =>
    match s.host.openStore text inMemory with
    | (host, .error e) => ({ s with host }.fail (.ofError e), .handle 0)
    | (host, .ok store) =>
      let (handle, stores) := s.stores.register store
      ({ s with host, stores }.succeed, .handle handle)

/-- Answers a call. -/
def call (s : Session) : Call → Session × Reply
  | .openStore location inMemory => s.openStore location inMemory
  | .close handle => finish (s.serve handle .close)
  | .sync handle => finish (s.serve handle .sync)
  | .set handle key value => finish (s.set handle key value)
  | .delete handle key => finish (s.delete handle key)
  | .apply handle ops => finish (s.apply handle ops)
  | .get handle key lengthPlace =>
    s.finishBuffer "out_value_len" lengthPlace ((s.get handle key).map some)
  | .scan handle stem lengthPlace =>
    s.finishBuffer "out_len" lengthPlace ((s.scan handle stem).map nonempty)
  | .initLogging => (s.succeed, .status .ok)

/-! ### The last failure -/

/-- A text in which each NUL is spelled out, as a backslash and a zero. -/
def spellNul (text : String) : String :=
  String.ofList (text.toList.flatMap fun c => if c = '\x00' then ['\\', '0'] else [c])

/-- The message of the last call, if it failed. -/
def lastError (s : Session) : Option String := s.lastFailure.map spellNul

end Session

end ByteStore
