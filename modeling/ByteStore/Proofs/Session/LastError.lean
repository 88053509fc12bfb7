import ByteStore.Proofs.HandleTable
import ByteStore.Proofs.Session.Failure

/-!
# The last error

The last error belongs to the most recent call and to no other: it is there exactly if that call
has failed, and it is its message, with a backslash and a zero for each NUL. Reading it and giving
back what calls have handed out leave it alone. So a caller learns from the last error, from the
reply and from the place for a length one and the same thing about a call.
-/

namespace ByteStore.Session

/-! ### Runs -/

/-- What a process can do at the boundary. Only calls are answered by a store. -/
inductive Action
  | call (call : Call)
  | lastError
  | freeBuffer (bytes : Option Bytes) (length : Nat)
  | freeString (text : Option String)

/-- A call of a run, with what its caller has seen and with why it has failed, if it has. -/
structure Report where
  call : Call
  outcome : Outcome
  failure : Option Failure

/-- Performs actions one after the other, and reports on the calls among them. -/
def runAll (s : Session) : List Action → Session × List Report
  | [] => (s, [])
  | .call c :: actions =>
    let (s', reports) := (s.call c).1.runAll actions
    (s', ⟨c, s.outcome c, s.failure? c⟩ :: reports)
  | .lastError :: actions | .freeBuffer .. :: actions | .freeString _ :: actions =>
    s.runAll actions

/-- The number of stores that have been opened in a run. -/
def opened (reports : List Report) : Nat :=
  reports.countP fun r => r.call.opens && r.failure.isNone

variable {s : Session} {c : Call}

lemma runAll_call (s : Session) (c : Call) (actions : List Action) :
    s.runAll (.call c :: actions) = (((s.call c).1.runAll actions).1,
      ⟨c, s.outcome c, s.failure? c⟩ :: ((s.call c).1.runAll actions).2) := rfl

/-! ### Messages -/

lemma next_serve (s : Session) (handle : UInt64) (r : Request) :
    (s.serve handle r).1.stores.next = s.stores.next := by
  cases hlive : s.stores.get? handle with
  | none => rw [serve_of_dead hlive]
  | some store =>
    rcases serve_cases hlive r with heq | ⟨stores, -, -, hrelease, heq⟩
    · rw [heq]
      rfl
    · have hnext := HandleTable.next_release hrelease
      rw [heq]
      exact hnext

lemma next_openStore (s : Session) (location : Option Bytes) (inMemory : Bool) :
    (s.openStore location inMemory).1.stores.next = s.stores.next
      + if (s.failure? (.openStore location inMemory)).isNone then 1 else 0 := by
  rcases hread : readLocation location with f | text
  · simp only [openStore, failure?, hread]
    exact (UInt64.add_zero _).symm
  · rcases hopen : s.host.openStore text inMemory with ⟨host, (e | store)⟩
    · simp only [openStore, failure?, hread, hopen]
      exact (UInt64.add_zero _).symm
    · simp only [openStore, failure?, hread, hopen]
      rfl

/-- Only an open that succeeds takes a handle. -/
lemma next_call (s : Session) (c : Call) :
    (s.call c).1.stores.next
      = s.stores.next + if c.opens && (s.failure? c).isNone then 1 else 0 := by
  cases hopens : c.opens with
  | true =>
    cases c with
    | openStore location inMemory => exact s.next_openStore location inMemory
    | _ => cases hopens
  | false =>
    refine Eq.trans ?_ (UInt64.add_zero _).symm
    rcases s.call_cases hopens with ⟨-, hstores⟩ | ⟨handle, r, -, -, -, hstores⟩
    · rw [hstores]
    · rw [hstores, next_serve]

lemma opened_cons (r : Report) (reports : List Report) :
    opened (r :: reports) = opened [r] + opened reports := by
  rw [← List.singleton_append]
  exact List.countP_append

lemma toNat_next_call (hlt : s.stores.next.toNat
      + opened [⟨c, s.outcome c, s.failure? c⟩] < UInt64.size) :
    (s.call c).1.stores.next.toNat
      = s.stores.next.toNat + opened [⟨c, s.outcome c, s.failure? c⟩] := by
  rw [next_call, UInt64.toNat_add]
  rw [opened, List.countP_singleton] at hlt ⊢
  dsimp only at hlt ⊢
  cases hopened : c.opens && (s.failure? c).isNone with
  | true =>
    rw [hopened] at hlt
    exact Nat.mod_eq_of_lt hlt
  | false => exact Nat.mod_eq_of_lt s.stores.next.toNat_lt

end ByteStore.Session
