import ByteStore.Proofs.Host.Additions
import ByteStore.Proofs.Session.Failure

/-!
# Foreseen failures

A call fails for what its caller has done, or because an engine has fenced a store off. As long as
the stores of a session are open, it fails for nothing else (`Session.foreseen_of_failure?`): no
call reports that a store is closed, and none reports that the program itself is at fault.
-/

namespace ByteStore

/--
Whether a failure is the refusal of an engine that has fenced a store off, or else neither a fault
of storage nor one of the program.
-/
def Failure.Foreseen (f : Failure) : Prop :=
  f = .ofError Store.fencedError ∨ f.status ≠ .storage ∧ f.status ≠ .internal

namespace Failure

lemma foreseen_of_status {f : Failure} {status : Status} (hf : f.status = status)
    (hstorage : status ≠ .storage) (hinternal : status ≠ .internal) : f.Foreseen :=
  .inr ⟨hf ▸ hstorage, hf ▸ hinternal⟩

lemma foreseen_malformedInput (reason : String) : (ofError (.malformedInput reason)).Foreseen :=
  foreseen_of_status rfl Status.noConfusion Status.noConfusion

lemma foreseen_toError (fault : Wire.Fault) : (ofError fault.toError).Foreseen := by
  cases fault with
  | unknownOperation code => exact foreseen_of_status rfl Status.noConfusion Status.noConfusion
  | truncated part need left => exact foreseen_malformedInput _
  | tooLong half length => exact foreseen_malformedInput _

lemma foreseen_key {key : Bytes} {e : Error} (he : Key.error? key = some e) :
    (ofError e).Foreseen := by
  obtain ⟨reason, rfl⟩ := Key.exists_of_error?_eq_some he
  exact foreseen_malformedInput reason

lemma Foreseen.ne_closedError {f : Failure} (hf : f.Foreseen) :
    f ≠ .ofError Store.closedError := by
  rintro rfl
  rcases hf with heq | ⟨hstorage, -⟩
  · exact absurd heq (by decide)
  · exact hstorage rfl

lemma Foreseen.status_ne_internal {f : Failure} (hf : f.Foreseen) : f.status ≠ .internal := by
  rcases hf with rfl | ⟨-, hinternal⟩
  · exact Status.noConfusion
  · exact hinternal

end Failure

/-! ### Stores -/

namespace Store

variable {s : Store} {e : Error}

lemma foreseen_apply (hopen : s.closed = false) {ops : List Operation}
    (he : s.apply ops = .error e) : (Failure.ofError e).Foreseen := by
  rw [apply_of_open hopen] at he
  cases herror : Operation.error? ops with
  | some x =>
    rw [herror] at he
    cases he
    obtain ⟨op, -, hkey⟩ := List.exists_of_findSome?_eq_some herror
    exact Failure.foreseen_key hkey
  | none =>
    rw [herror] at he
    dsimp only at he
    split_ifs at he
    cases he
    exact .inl rfl

lemma foreseen_get (hopen : s.closed = false) {key : Bytes} (he : s.get key = .error e) :
    (Failure.ofError e).Foreseen := by
  rw [get_of_open hopen] at he
  cases herror : Key.error? key with
  | some x =>
    rw [herror] at he
    cases he
    exact Failure.foreseen_key herror
  | none =>
    rw [herror] at he
    dsimp only at he
    split_ifs at he
    · cases he
      exact .inl rfl
    · cases hvalue : s.table.get? key with
      | some value =>
        rw [hvalue] at he
        cases he
      | none =>
        rw [hvalue] at he
        cases he
        exact Failure.foreseen_of_status rfl Status.noConfusion Status.noConfusion

lemma foreseen_walk_collect {es : List Entry} {buffer : Wire.Scan.Buffer}
    (he : (Session.collect.walk es buffer).2 = .error e) : (Failure.ofError e).Foreseen := by
  induction es generalizing buffer with
  | nil => cases he
  | cons entry es ih =>
    rw [Visitor.walk, Session.collect] at he
    cases happend : buffer.append entry with
    | ok buffer' =>
      rw [happend] at he
      exact ih he
    | error fault =>
      rw [happend] at he
      cases he
      exact Failure.foreseen_toError fault

lemma foreseen_iterate (hopen : s.closed = false) {stem : Bytes} {buffer : Wire.Scan.Buffer}
    (he : (s.iterate stem Session.collect buffer).2 = .error e) : (Failure.ofError e).Foreseen := by
  rw [iterate_of_open hopen] at he
  split_ifs at he
  · cases he
    exact .inl rfl
  · exact foreseen_walk_collect he

/-- An open store fails a request for what is wrong with it, or because it has been fenced off. -/
lemma foreseen_serve (hopen : s.closed = false) {r : Request} (he : (s.serve r).2 = .failed e) :
    (Failure.ofError e).Foreseen := by
  cases hbatch : r.batch? with
  | some ops =>
    rw [serve_of_batch hbatch] at he
    cases happly : s.apply ops with
    | ok s' =>
      rw [happly] at he
      cases he
    | error x =>
      rw [happly] at he
      cases he
      exact foreseen_apply hopen happly
  | none =>
    cases r with
    | set key value => cases hbatch
    | delete key => cases hbatch
    | apply ops => cases hbatch
    | get key =>
      rw [serve] at he
      cases hget : s.get key with
      | ok value =>
        rw [hget] at he
        cases he
      | error x =>
        rw [hget] at he
        cases he
        exact foreseen_get hopen hget
    | sync =>
      rw [serve, sync_of_open hopen] at he
      split_ifs at he <;> cases he
      exact .inl rfl
    | close =>
      rw [serve, close_of_open hopen] at he
      split_ifs at he <;> cases he
      exact .inl rfl

end Store

namespace Session

variable {s : Session} {handle : UInt64} {store : Store} {c : Call} {f : Failure}

/-! ### Calls -/

/-- Where all stores are open, a call fails for what its caller has done, or for its engine. -/
theorem foreseen_of_failure? (hopen : ∀ k t, s.stores.get? k = some t → t.closed = false)
    (hf : s.failure? c = some f) : f.Foreseen := by
  cases fails_of_failure? hf with
  | argument hstatus =>
    exact Failure.foreseen_of_status hstatus Status.noConfusion Status.noConfusion
  | handle hdead =>
    exact Failure.foreseen_of_status (status_of_dead? hdead) Status.noConfusion Status.noConfusion
  | payload fault => exact Failure.foreseen_toError fault
  | @openStore text inMemory e he =>
    rcases s.host.openStore_ok_or_openFailed text inMemory with ⟨store, h⟩ | ⟨reason, h⟩
    · rw [h] at he
      cases he
    · rw [h] at he
      cases he
      exact Failure.foreseen_of_status rfl Status.noConfusion Status.noConfusion
  | serve hlive he => exact Store.foreseen_serve (hopen _ _ hlive) he
  | iterate hlive he => exact Store.foreseen_iterate (hopen _ _ hlive) he

end Session

end ByteStore
