import ByteStore.Error

/-!
# Statuses

Every call on a session reports one of ten statuses. A failed call also leaves a message.
-/

namespace ByteStore

/-- How a call went. -/
inductive Status
  | ok
  | invalidHandle
  | openFailed
  | notFound
  | malformedInput
  | unknownOperation
  | allocationFailed
  | storage
  | invalidInput
  | internal
  deriving DecidableEq, Repr

namespace Status

/-- The number of a status. -/
def code : Status → Nat
  | .ok => 0
  | .invalidHandle => 1
  | .openFailed => 2
  | .notFound => 3
  | .malformedInput => 4
  | .unknownOperation => 5
  | .allocationFailed => 6
  | .storage => 7
  | .invalidInput => 8
  | .internal => 9

/-- The status of an error. -/
def ofError : Error → Status
  | .invalidHandle _ => .invalidHandle
  | .openFailed _ => .openFailed
  | .notFound => .notFound
  | .malformedInput _ => .malformedInput
  | .unknownOperation _ => .unknownOperation
  | .allocationFailed _ => .allocationFailed
  | .storage _ => .storage
  | .internal _ => .internal

end Status

/-- Why a call failed: its status and its message. -/
structure Failure where
  status : Status
  message : String
  deriving DecidableEq, Repr

namespace Failure

/-- An error as the failure of a call. -/
def ofError (e : Error) : Failure := ⟨.ofError e, e.message⟩

/-- The failure of a call whose arguments are unusable. -/
def invalidInput (message : String) : Failure := ⟨.invalidInput, message⟩

theorem status_ofError_ne_ok (e : Error) : (ofError e).status ≠ .ok := by
  cases e <;> simp [ofError, Status.ofError]

end Failure

end ByteStore
