import ByteStore.Store

/-!
# Requests

A request is a call on a store as a value, so that a run of a store is a list of requests. Scans,
which hand entries to a visitor, are no requests; they never change a store.
-/

namespace ByteStore

/-- What a store can be asked for. -/
inductive Request
  | set (key value : Bytes)
  | get (key : Bytes)
  | delete (key : Bytes)
  | apply (ops : List Operation)
  | sync
  | close
  deriving DecidableEq, Repr

/-- What a store answers. -/
inductive Answer
  | done
  | value (value : Bytes)
  | failed (error : Error)
  deriving DecidableEq, Repr

/-- Whether a request, once done, has made all writes durable. -/
def Request.makesDurable : Request → Bool
  | .sync | .close => true
  | _ => false

/-- The answer of an operation without a value. -/
def Answer.ofResult : Except Error Unit → Answer
  | .ok () => .done
  | .error e => .failed e

namespace Store

/-- A store after an operation that may have failed, and the answer. -/
def settle (s : Store) : Except Error Store → Store × Answer
  | .ok s' => (s', .done)
  | .error e => (s, .failed e)

/-- Serves a request. -/
def serve (s : Store) : Request → Store × Answer
  | .set key value => s.settle (s.set key value)
  | .get key =>
    match s.get key with
    | .ok value => (s, .value value)
    | .error e => (s, .failed e)
  | .delete key => s.settle (s.delete key)
  | .apply ops => s.settle (s.apply ops)
  | .sync => s.sync.map id .ofResult
  | .close => s.close.map id .ofResult

/-- Serves requests one after the other. -/
def serveAll (s : Store) : List Request → Store × List Answer
  | [] => (s, [])
  | r :: rs =>
    let (s', a) := s.serve r
    let (s'', as) := s'.serveAll rs
    (s'', a :: as)

end Store

end ByteStore
