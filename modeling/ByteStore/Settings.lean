import ByteStore.Error
import ByteStore.FileTree
import ByteStore.Settings.Engine
import ByteStore.Toml.Document
import ByteStore.Yaml.Document

/-!
# Settings files

The objects engine takes its settings from a file in one of three formats, told by the end of the
file's name. A file that is not there settles nothing. What one that is there says is laid over the
engine's own settings, and has to leave each of them with a value of its shape.
-/

namespace ByteStore.Settings

/-! ### Formats -/

/-- The formats of settings files. -/
inductive Format
  | json
  | toml
  | yaml
  deriving DecidableEq, Repr

/-- The format that goes with what follows the last dot of a file's name. -/
def Format.ofExtension? (extension : List Char) : Option Format :=
  if extension = "json".toList then some .json
  else if extension = "toml".toList then some .toml
  else if extension = "yaml".toList ∨ extension = "yml".toList then some .yaml
  else none

/-- What follows the last dot of a name. A dot at its beginning does not count. -/
def extension? (name : List Char) : Option (List Char) :=
  match name.reverse.dropWhile (· != '.') with
  | [] => none
  | [_] => none
  | _ => some (name.reverse.takeWhile (· != '.')).reverse

/-- The last word of a path, which must name something. -/
def fileName? (path : List Char) : Option (List Char) := do
  let words := (Text.split '/' path).filter fun w => w ≠ [] ∧ w ≠ ['.']
  let last ← words.getLast?
  if last = ['.', '.'] then none else some last

/-- The format of the file at a path. -/
def format? (path : String) : Option Format := do
  Format.ofExtension? (← extension? (← fileName? path.toList))

/-! ### Contents -/

/-- The members of a JSON document, which has to be an object. -/
def jsonMembers? (text : String) : Option Members :=
  match Json.Value.parse text with
  | .ok (.object ms) => some (Members.ofList (Value.membersOfJson ms))
  | _ => none

/-- The members of a document. -/
def Format.members? (f : Format) (text : String) : Option Members :=
  match f with
  | .json => jsonMembers? text
  | .toml => Toml.members? text.toList
  | .yaml => Yaml.members? text.toList

/-- Whether the engine can run with the settings of a document. -/
def isUsable (f : Format) (text : String) : Bool :=
  (f.members? text).any fun ms => Engine.accepts (.table ms)

/-! ### Loading -/

/-- The text of the file that a path leads to from a directory, or else from one above it. -/
def textAbove? (t : FileTree) (path : String) (directory : Place) : Option String :=
  match t.status directory path, directory with
  | some (.file text), _ => some text
  | _, [] => none
  | _, _ :: above => textAbove? t path above

/-- Whether the file at a path can be loaded. -/
def canLoad (t : FileTree) (workingDirectory : Place) (path : String) : Bool :=
  match format? path with
  | none => false
  | some f => (textAbove? t path workingDirectory).all (isUsable f)

/-- Loads the settings file, if there is to be one. -/
def load (t : FileTree) (workingDirectory : Place) : Option String → Except SetupError Unit
  | none => .ok ()
  | some path =>
    if canLoad t workingDirectory path then .ok ()
    else .error (.storage s!"Failed to load SlateDB settings from {path}")

end ByteStore.Settings
