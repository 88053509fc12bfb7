/-!
# Errors

Every operation of a store fails for one of eight causes. `Error.message` words each of them.
Setting up the surroundings of a store (its directory, its settings) fails with a `SetupError`,
which keeps its text when it becomes an `Error`.
-/

namespace ByteStore

/-- Why an operation failed. -/
inductive Error
  /-- The handle names no open store. -/
  | invalidHandle (handle : UInt64)
  /-- The store could not be opened. -/
  | openFailed (reason : String)
  /-- The key has no value. -/
  | notFound
  /-- A payload cannot be decoded, or a key cannot be stored. -/
  | malformedInput (reason : String)
  /-- A batch holds a record that neither sets nor deletes. -/
  | unknownOperation (code : UInt8)
  /-- There is no room for a result. It is worded here, but memory does not run out. -/
  | allocationFailed (reason : String)
  /-- The engine, or what it stands on, failed. -/
  | storage (reason : String)
  /-- The program itself is at fault. -/
  | internal (reason : String)
  deriving DecidableEq, Repr

/-- The wording of an error. What storage says is passed on as it is. -/
def Error.message : Error → String
  | .invalidHandle h => s!"invalid handle: {h}"
  | .openFailed r => s!"failed to open store: {r}"
  | .notFound => "key not found"
  | .malformedInput r => s!"malformed input: {r}"
  | .unknownOperation c => s!"unknown operation code: {c}"
  | .allocationFailed r => s!"allocation failed: {r}"
  | .storage r => r
  | .internal r => s!"Internal error: {r}"

/-- Why the surroundings of a store could not be set up. -/
inductive SetupError
  | storage (reason : String)
  | internal (reason : String)
  deriving DecidableEq, Repr

/-- The wording of a setup error, which names its kind. -/
def SetupError.message : SetupError → String
  | .storage r => s!"Storage error: {r}"
  | .internal r => s!"Internal error: {r}"

/-- A setup error as an error of the store: the same kind and the same reason. -/
def SetupError.toError : SetupError → Error
  | .storage r => .storage r
  | .internal r => .internal r

end ByteStore
