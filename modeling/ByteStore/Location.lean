import ByteStore.Error
import ByteStore.Location.Document
import ByteStore.Text.Blank

/-!
# Locations

A location is a text that says which engine a store runs on and where its data is.

* A text without the scheme `slatedb:` names a directory for the tree engine.
* After the scheme, with or without `//`, comes a JSON document, or the path of a directory in which
  the objects engine keeps everything.

Blanks around a location and after its scheme mean nothing, and the case of the scheme does not
matter. A path that is empty stands for a directory of the engine's own.
-/

namespace ByteStore

/-- Where the tree engine keeps its data. -/
inductive TreeSite
  | memory
  | directory (path : String)
  deriving DecidableEq, Repr

/-- Where the objects engine keeps its data. -/
structure ObjectsSite where
  /-- The directory of the store, and the beginning of the names of its objects. -/
  path : String
  objects : ObjectStore
  /-- The settings file of the engine. -/
  settings : Option String
  deriving DecidableEq, Repr

/-- Where a store is. -/
inductive Location
  | tree (site : TreeSite)
  | objects (site : ObjectsSite)
  deriving DecidableEq, Repr

namespace Location

/-- Why a text is no location. -/
inductive Fault
  /-- The document cannot be read. -/
  | document (complaint : Json.Complaint)
  /-- The document chooses a provider that needs a bucket, and describes none. -/
  | noBucket
  deriving DecidableEq, Repr

def Fault.toError : Fault → Error
  | .document c => .openFailed s!"invalid slatedb configuration: {c.message}"
  | .noBucket => .openFailed "aws provider requires an \"aws\" section"

/-! ### Defaults -/

/-- The directory of a tree whose path is empty. -/
def defaultTreePath : String := "data/lsm"

/-- The directory of objects whose path is empty. -/
def defaultObjectsPath : String := "data/slatedb"

/-! ### The tree engine -/

/-- The site of a tree. A store in memory needs no path. -/
def treeSite (path : String) (inMemory : Bool) : TreeSite :=
  if inMemory then .memory
  else if path.isEmpty then .directory defaultTreePath
  else .directory path

/-! ### The objects engine -/

/-- The name of a provider without blanks around it and with small letters only. -/
def providerName (p : Provider) : List Char :=
  match p.name with
  | none => []
  | some n => (Text.trim n.toList).map Char.toLower

/-- The object store of a provider. A provider that is not known keeps objects at `path`. -/
def objectStore (p : Provider) (path : String) : Except Fault ObjectStore :=
  if providerName p = "aws".toList then
    match p.bucket with
    | some b => .ok (.bucket b)
    | none => .error .noBucket
  else if providerName p = "memory".toList then .ok .memory
  else .ok (.directory path)

/-- The path that a document gives, or the default. -/
def objectsPath (d : Document) : String :=
  match d.path with
  | some path => if path.isEmpty then defaultObjectsPath else path
  | none => defaultObjectsPath

/-- The site that a document describes. -/
def objectsSite (d : Document) : Except Fault ObjectsSite := do
  let path := objectsPath d
  let objects ← objectStore (d.provider.getD ⟨none, none⟩) path
  return ⟨path, objects, d.settings⟩

/-! ### Reading -/

/-- The scheme of the objects engine. -/
def scheme : List Char := "slatedb:".toList

/-- What follows the scheme, if the text starts with it. -/
def afterScheme? (text : List Char) : Option (List Char) :=
  if (text.take scheme.length).map Char.toLower = scheme then some (text.drop scheme.length)
  else none

/-- A text without the two slashes that it may start with. -/
def dropSlashes : List Char → List Char
  | '/' :: '/' :: rest => rest
  | text => text

/-- What follows the scheme, as a document. -/
def document (rest : List Char) : Except Fault Document :=
  if (Text.trimStart rest).head? = some '\x7b' then
    match Document.parse (String.ofList rest) with
    | .ok d => .ok d
    | .error c => .error (.document c)
  else if rest.isEmpty then .ok .blank
  else .ok { Document.blank with path := some (String.ofList rest) }

/-- Reads a location. The flag has a say where the tree engine is chosen. -/
def read (raw : List Char) (inMemory : Bool) : Except Fault Location :=
  match afterScheme? (Text.trim raw) with
  | none => .ok (.tree (treeSite (String.ofList (Text.trim raw)) inMemory))
  | some rest => do
    let d ← document (dropSlashes (Text.trim rest))
    return .objects (← objectsSite d)

/-- Reads a location. -/
def parse (raw : String) (inMemory : Bool) : Except Error Location :=
  match read raw.toList inMemory with
  | .ok l => .ok l
  | .error f => .error f.toError

end Location

end ByteStore
