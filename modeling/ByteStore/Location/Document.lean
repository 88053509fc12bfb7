import ByteStore.ObjectStore

/-!
# Location documents

A location may be spelled out as a JSON document with a path, an object store and a settings file.
Each part may be left out or null.
-/

namespace ByteStore.Location

/-- The part of a document that says where objects are kept. -/
structure Provider where
  name : Option String
  /-- The bucket for the provider that needs one. -/
  bucket : Option Bucket
  deriving DecidableEq, Repr

/-- A document. -/
structure Document where
  path : Option String
  provider : Option Provider
  settings : Option String
  deriving DecidableEq, Repr

/-- The document that leaves out everything. -/
def Document.blank : Document := ⟨none, none, none⟩

/-! ### Shapes -/

/-- What has been read of a provider. -/
structure Provider.Draft where
  name : Option (Option String)
  bucket : Option (Option Bucket)

/-- A provider as a record. -/
def Provider.record : Json.Record Json.Reader Provider.Draft Provider where
  name := "ProviderConfig"
  blank := ⟨none, none⟩
  fields :=
    [⟨"provider", fun d => d.name.isSome,
        (Json.Reader.nullable .string).map fun s d => { d with name := some s }⟩,
      ⟨"aws", fun d => d.bucket.isSome,
        (Json.Reader.nullable Bucket.record.reader).map fun b d => { d with bucket := some b }⟩]
  other _ := Json.Reader.skip.map fun _ d => d
  finish d := .ok ⟨d.name.join, d.bucket.join⟩

/-- What has been read of a document. -/
structure Document.Draft where
  path : Option (Option String)
  provider : Option (Option Provider)
  settings : Option (Option String)

/-- A document as a record. -/
def Document.record : Json.Record Json.Reader Document.Draft Document where
  name := "SlateDbLocation"
  blank := ⟨none, none, none⟩
  fields :=
    [⟨"path", fun d => d.path.isSome,
        (Json.Reader.nullable .string).map fun s d => { d with path := some s }⟩,
      ⟨"store", fun d => d.provider.isSome,
        (Json.Reader.nullable Provider.record.reader).map fun p d =>
          { d with provider := some p }⟩,
      ⟨"settings_path", fun d => d.settings.isSome,
        (Json.Reader.nullable .string).map fun s d => { d with settings := some s }⟩]
  other _ := Json.Reader.skip.map fun _ d => d
  finish d := .ok ⟨d.path.join, d.provider.join, d.settings.join⟩

/-- Reads a document. -/
def Document.parse (text : String) : Except Json.Complaint Document :=
  Document.record.reader.parse text

end ByteStore.Location
