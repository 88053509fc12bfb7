import ByteStore.Proofs.Host.Opening
import ByteStore.Proofs.Store.Operations
import ByteStore.Session

/-!
# The states of a session

`Session.moves_call` says once what a call can do to the host and to the stores of a session. What
holds of every state that a session can reach follows from it, one case for each kind of move.
-/

namespace ByteStore

/-- What a caller sees of a call: what it returns, and the last error afterwards. -/
structure Outcome where
  reply : Reply
  message : Option String
  deriving DecidableEq

namespace Session

variable {s : Session} {handle : UInt64} {store : Store}

/-! ### Live handles -/

lemma store_of_live (hlive : s.stores.get? handle = some store) : s.store handle = .ok store := by
  rw [Session.store, HandleTable.lookup, hlive]
  rfl

lemma store_of_dead (hdead : s.stores.get? handle = none) :
    s.store handle = .error (.ofError (.invalidHandle handle)) := by
  rw [Session.store, HandleTable.lookup, hdead]
  rfl

/-- A request to no store changes nothing. -/
lemma serve_of_dead (hdead : s.stores.get? handle = none) (r : Request) :
    s.serve handle r = (s, .error (.ofError (.invalidHandle handle))) := by
  rw [serve, store_of_dead hdead]

/-- How a request ends that is not a close. -/
def resultOf : Answer → Except Failure Unit
  | .failed e => .error (.ofError e)
  | _ => .ok ()

/-- The session after a store has served a request, while its handle is kept. -/
def served (s : Session) (handle : UInt64) (store : Store) (r : Request) : Session :=
  { s with
    host := (s.host.serve store r).1
    stores := s.stores.update handle (store.serve r).1 }

@[simp] lemma served_stores (s : Session) (handle : UInt64) (store : Store) (r : Request) :
    (s.served handle store r).stores = s.stores.update handle (store.serve r).1 := rfl

lemma get?_served (hlive : s.stores.get? handle = some store) (r : Request) (k : UInt64) :
    (s.served handle store r).stores.get? k
      = if k = handle then some (store.serve r).1 else s.stores.get? k := by
  rw [served_stores, HandleTable.get?_update, hlive, Option.map_some]

lemma serve_of_live (hlive : s.stores.get? handle = some store) (r : Request) :
    s.serve handle r = match (store.serve r).2 with
      | .failed e => (s.served handle store r, .error (.ofError e))
      | _ =>
        if r = .close then
          match (s.served handle store r).stores.release handle with
          | .ok stores => ({ s.served handle store r with stores }, .ok ())
          | .error e => (s.served handle store r, .error (.ofError e))
        else (s.served handle store r, .ok ()) := by
  rw [serve, store_of_live hlive]
  rfl

/-- A request other than a close is answered by the store. -/
lemma serve_of_ne_close (hlive : s.stores.get? handle = some store) {r : Request}
    (hr : r ≠ .close) :
    s.serve handle r = (s.served handle store r, resultOf (store.serve r).2) := by
  rw [serve_of_live hlive]
  cases (store.serve r).2 <;> simp only [if_neg hr] <;> rfl

/-- A request that fails keeps the handle. -/
lemma serve_of_failed (hlive : s.stores.get? handle = some store) {r : Request} {e : Error}
    (he : (store.serve r).2 = .failed e) :
    s.serve handle r = (s.served handle store r, .error (.ofError e)) := by
  rw [serve_of_live hlive, he]

/-- A close that succeeds releases the handle. -/
lemma serve_close_of_done (hlive : s.stores.get? handle = some store)
    (hdone : (store.serve .close).2 = .done) :
    ∃ stores, (s.served handle store .close).stores.release handle = .ok stores ∧
      s.serve handle .close = ({ s.served handle store .close with stores }, .ok ()) := by
  have hkept : (s.served handle store .close).stores.get? handle = some (store.serve .close).1 := by
    rw [get?_served hlive, if_pos rfl]
  obtain ⟨stores, hrelease⟩ :
      ∃ stores, (s.served handle store .close).stores.release handle = .ok stores := by
    rw [HandleTable.release, hkept]
    exact ⟨_, rfl⟩
  refine ⟨stores, hrelease, ?_⟩
  rw [serve_of_live hlive, hdone]
  simp only [hrelease, if_pos]

/-- A request to a live store keeps the handle, unless it is a close that succeeds. -/
theorem serve_cases (hlive : s.stores.get? handle = some store) (r : Request) :
    s.serve handle r = (s.served handle store r, resultOf (store.serve r).2) ∨
      ∃ stores, r = .close ∧ (store.serve r).2 = .done ∧
        (s.served handle store r).stores.release handle = .ok stores ∧
        s.serve handle r = ({ s.served handle store r with stores }, .ok ()) := by
  by_cases hr : r = .close
  · subst hr
    rcases store.answer_close with hdone | ⟨e, he⟩
    · obtain ⟨stores, hrelease, heq⟩ := serve_close_of_done hlive hdone
      exact Or.inr ⟨stores, rfl, hdone, hrelease, heq⟩
    · refine Or.inl ?_
      rw [serve_of_failed hlive he, he]
      rfl
  · exact Or.inl (serve_of_ne_close hlive hr)

lemma result_serve (hlive : s.stores.get? handle = some store) (r : Request) :
    (s.serve handle r).2 = resultOf (store.serve r).2 := by
  rcases serve_cases hlive r with heq | ⟨stores, -, hdone, -, heq⟩
  · rw [heq]
  · rw [heq, hdone]
    rfl

lemma host_serve (hlive : s.stores.get? handle = some store) (r : Request) :
    (s.serve handle r).1.host = (s.host.serve store r).1 := by
  rcases serve_cases hlive r with heq | ⟨stores, -, -, -, heq⟩
  · rw [heq]
    rfl
  · rw [heq]
    rfl

/-- What a request to a live store leaves under each handle. -/
lemma get?_serve (hlive : s.stores.get? handle = some store) (r : Request) (k : UInt64) :
    (s.serve handle r).1.stores.get? k
      = if k = handle then
          if r = .close ∧ (store.serve r).2 = .done then none else some (store.serve r).1
        else s.stores.get? k := by
  by_cases hclose : r = .close ∧ (store.serve r).2 = .done
  · rw [if_pos hclose]
    obtain ⟨rfl, hdone⟩ := hclose
    obtain ⟨stores, hrelease, heq⟩ := serve_close_of_done hlive hdone
    rw [heq]
    change stores.get? k = _
    rw [HandleTable.get?_release hrelease]
    split_ifs with hk
    · rfl
    · rw [get?_served hlive, if_neg hk]
  · rw [if_neg hclose]
    rcases serve_cases hlive r with heq | ⟨stores, hr, hdone, -, -⟩
    · rw [heq, get?_served hlive]
    · exact absurd ⟨hr, hdone⟩ hclose

/-! ### Moves -/

/-- The ways in which a call can move the host and the stores of a session. -/
inductive Moves (s : Session) : Host → HandleTable Store → Prop
  | stay : s.Moves s.host s.stores
  /-- A store serves a request and keeps its handle. -/
  | serve {handle : UInt64} {store : Store} {r : Request}
      (hlive : s.stores.get? handle = some store)
      (hr : r ≠ .close ∨ ∃ e, (store.serve r).2 = .failed e) :
      s.Moves (s.host.serve store r).1 (s.stores.update handle (store.serve r).1)
  /-- A store is closed and loses its handle. -/
  | close {handle : UInt64} {store : Store} {stores : HandleTable Store}
      (hlive : s.stores.get? handle = some store) (hdone : (store.serve .close).2 = .done)
      (hrelease : (s.stores.update handle (store.serve .close).1).release handle = .ok stores) :
      s.Moves (s.host.serve store .close).1 stores
  /-- A store opens and is given a handle. -/
  | register {location : String} {inMemory : Bool} {host : Host} {store : Store}
      (hopen : s.host.openStore location inMemory = (host, .ok store)) :
      s.Moves host (s.stores.register store).2
  /-- A store does not open. -/
  | refuse {location : String} {inMemory : Bool} {host : Host} {e : Error}
      (hopen : s.host.openStore location inMemory = (host, .error e)) :
      s.Moves host s.stores

@[simp] lemma finish_host (p : Session × Except Failure Unit) : (finish p).1.host = p.1.host := by
  obtain ⟨s, (f | ⟨⟩)⟩ := p <;> rfl

@[simp] lemma finish_stores (p : Session × Except Failure Unit) :
    (finish p).1.stores = p.1.stores := by
  obtain ⟨s, (f | ⟨⟩)⟩ := p <;> rfl

lemma moves_finishBuffer (s : Session) (place : String) (lengthPlace : Bool)
    (result : Except Failure (Option Bytes)) :
    s.Moves (s.finishBuffer place lengthPlace result).1.host
      (s.finishBuffer place lengthPlace result).1.stores := by
  cases lengthPlace with
  | false => exact .stay
  | true => rcases result with f | (_ | bytes) <;> exact .stay

lemma moves_serve (s : Session) (handle : UInt64) (r : Request) :
    s.Moves (s.serve handle r).1.host (s.serve handle r).1.stores := by
  cases hlive : s.stores.get? handle with
  | none =>
    rw [serve_of_dead hlive]
    exact .stay
  | some store =>
    by_cases hr : r = .close
    · subst hr
      rcases store.answer_close with hdone | ⟨e, he⟩
      · obtain ⟨stores, hrelease, heq⟩ := serve_close_of_done hlive hdone
        rw [heq]
        exact .close hlive hdone hrelease
      · rw [serve_of_failed hlive he]
        exact .serve hlive (Or.inr ⟨e, he⟩)
    · rw [serve_of_ne_close hlive hr]
      exact .serve hlive (Or.inl hr)

lemma moves_openStore (s : Session) (location : Option Bytes) (inMemory : Bool) :
    s.Moves (s.openStore location inMemory).1.host (s.openStore location inMemory).1.stores := by
  rw [openStore]
  split
  · exact .stay
  · rename_i text _
    split
    · exact .refuse ‹_›
    · exact .register ‹_›

/-- What a call can do to the host and to the stores of a session. -/
theorem moves_call (s : Session) (c : Call) : s.Moves (s.call c).1.host (s.call c).1.stores := by
  cases c with
  | openStore location inMemory => exact s.moves_openStore location inMemory
  | initLogging => exact .stay
  | get handle key lengthPlace => exact s.moves_finishBuffer _ _ _
  | scan handle stem lengthPlace => exact s.moves_finishBuffer _ _ _
  | close handle =>
    rw [call, finish_host, finish_stores]
    exact s.moves_serve handle .close
  | sync handle =>
    rw [call, finish_host, finish_stores]
    exact s.moves_serve handle .sync
  | set handle key value =>
    rw [call, finish_host, finish_stores, set]
    split
    · exact s.moves_serve handle _
    · exact .stay
    · exact .stay
  | delete handle key =>
    rw [call, finish_host, finish_stores, delete]
    split
    · exact s.moves_serve handle _
    · exact .stay
  | apply handle ops =>
    rw [call, finish_host, finish_stores, apply]
    split
    · exact s.moves_serve handle _
    · exact .stay

/-! ### Reached states -/

/-- The states of the sessions that start on a host. -/
inductive Reached (host : Host) : Session → Prop
  | start : Reached host (.start host)
  | call {s : Session} (hs : Reached host s) (c : Call) : Reached host (s.call c).1

/-- Stores that are all open are so after every call. -/
lemma closed_of_moves {host : Host} {stores : HandleTable Store} (hmoves : s.Moves host stores)
    (hs : ∀ k t, s.stores.get? k = some t → t.closed = false) {k : UInt64} {t : Store}
    (ht : stores.get? k = some t) : t.closed = false := by
  cases hmoves with
  | stay => exact hs k t ht
  | refuse hopen => exact hs k t ht
  | @serve handle store r hlive hr =>
    rw [HandleTable.get?_update, hlive, Option.map_some] at ht
    split_ifs at ht with hk
    · cases ht
      exact Store.closed_serve (hs _ _ hlive) hr
    · exact hs k t ht
  | @close handle store stores hlive hdone hrelease =>
    rw [HandleTable.get?_release hrelease] at ht
    split_ifs at ht with hk
    rw [HandleTable.get?_update, if_neg hk] at ht
    exact hs k t ht
  | register hopen =>
    rw [HandleTable.get?_register] at ht
    split_ifs at ht with hk
    · cases ht
      exact (Host.open_of_openStore hopen).1
    · exact hs k t ht

/-- A live handle of a session names a store that is open. -/
theorem Reached.open_of_live {host : Host} (hs : s.Reached host)
    (hlive : s.stores.get? handle = some store) : store.closed = false := by
  induction hs generalizing handle store with
  | start => cases hlive
  | call hs c ih => exact closed_of_moves (moves_call _ c) (fun _ _ => ih) hlive

/-! ### Runs -/

/-- Answers calls one after the other. -/
def callAll (s : Session) : List Call → Session × List Outcome
  | [] => (s, [])
  | c :: cs =>
    let (s', reply) := s.call c
    let (s'', outcomes) := s'.callAll cs
    (s'', ⟨reply, s'.lastError⟩ :: outcomes)

lemma callAll_cons (s : Session) (c : Call) (cs : List Call) :
    s.callAll (c :: cs) = (((s.call c).1.callAll cs).1,
      ⟨(s.call c).2, (s.call c).1.lastError⟩ :: ((s.call c).1.callAll cs).2) := rfl

lemma Reached.callAll {host : Host} (hs : s.Reached host) (cs : List Call) :
    (s.callAll cs).1.Reached host := by
  induction cs generalizing s with
  | nil => exact hs
  | cons c cs ih => exact ih (hs.call c)

end Session

end ByteStore
