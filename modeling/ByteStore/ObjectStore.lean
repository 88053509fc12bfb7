import ByteStore.Json.Tagged

/-!
# Object stores

An object store keeps its objects in memory, in the files of a directory, or in a bucket of a cloud.
Its configuration is written as a JSON object that names the kind first, and is read back from the
members in any order.
-/

namespace ByteStore

/-- A bucket of a cloud. -/
structure Bucket where
  name : String
  /-- Where the bucket lies; empty if the surroundings decide. -/
  region : String
  /-- The address of a service other than the usual one. -/
  endpoint : Option String
  deriving DecidableEq, Repr

/-- Where objects are kept. -/
inductive ObjectStore
  | memory
  | directory (path : String)
  | bucket (bucket : Bucket)
  deriving DecidableEq, Repr

namespace ObjectStore

/-- The object store where none is configured. -/
def default : ObjectStore := .directory ""

/-- How an object store presents itself. The files are seen from the root. -/
def label : ObjectStore → String
  | .memory => "InMemory"
  | .directory _ => "LocalFileSystem(file:///)"
  | .bucket b => s!"AmazonS3({b.name})"

end ObjectStore

/-! ### Shapes of documents -/

/-- What has been read of a bucket. An endpoint may be read and found to be null. -/
structure Bucket.Draft where
  name : Option String
  region : Option String
  endpoint : Option (Option String)

/-- A bucket as a record: the region and the endpoint may be left out. -/
def Bucket.record {ρ : Type → Type} [Json.Source ρ] : Json.Record ρ Bucket.Draft Bucket where
  name := "AwsObjectStoreConfig"
  blank := ⟨none, none, none⟩
  fields :=
    [⟨"bucket", fun d => d.name.isSome,
        (fun s d => { d with name := some s }) <$> Json.Source.string⟩,
      ⟨"region", fun d => d.region.isSome,
        (fun s d => { d with region := some s }) <$> Json.Source.string⟩,
      ⟨"endpoint", fun d => d.endpoint.isSome,
        (fun s d => { d with endpoint := some s })
          <$> Json.Source.nullable Json.Source.string⟩]
  other _ := (fun _ d => d) <$> Json.Source.ignored
  finish d :=
    match d.name with
    | some name => .ok ⟨name, d.region.getD "", d.endpoint.join⟩
    | none => .error "bucket"

namespace ObjectStore

/-- A directory as a record: its path. -/
def directoryRecord {ρ : Type → Type} [Json.Source ρ] :
    Json.Record ρ (Option String) ObjectStore where
  name := "LocalObjectStoreConfig"
  blank := none
  fields := [⟨"path", Option.isSome, (fun s _ => some s) <$> Json.Source.string⟩]
  other _ := (fun _ d => d) <$> Json.Source.ignored
  finish
    | some path => .ok (.directory path)
    | none => .error "path"

/-- The kinds of object stores. -/
inductive Kind
  | memory
  | directory
  | bucket
  deriving DecidableEq, Repr

/-- The name of a kind in a document. -/
def Kind.name : Kind → String
  | .memory => "InMemory"
  | .directory => "Local"
  | .bucket => "Aws"

/-- An object store names its kind in the member `type`. -/
def tagged : Json.Tagged Kind where
  name := "ObjectStoreConfig"
  key := "type"
  variants := [Kind.memory, .directory, .bucket].map fun k => (k.name, k)

/-! ### Reading -/

/-- Makes an object store of its kind and its parts. Memory has no parts; members are ignored. -/
def ofParts : Kind → Json.Parts → Except Json.Cause ObjectStore
  | .memory, .members _ => .ok .memory
  | .memory, .items vs =>
    if vs.isEmpty then .ok .memory else .error (Json.Record.tooMany vs.length 0)
  | .directory, parts => directoryRecord.ofParts parts
  | .bucket, parts => (Bucket.record.ofParts parts).map .bucket

/-- Reads the document of an object store. -/
def parse (document : String) : Except Json.Complaint ObjectStore :=
  tagged.parse ofParts document

/-! ### Writing -/

/-- The kind of an object store. -/
def kind : ObjectStore → Kind
  | .memory => .memory
  | .directory _ => .directory
  | .bucket _ => .bucket

/-- The members of an object store beside the one that names its kind. -/
def members : ObjectStore → List (String × Json.Value)
  | .memory => []
  | .directory path => [("path", .string path)]
  | .bucket b =>
    [("bucket", .string b.name), ("region", .string b.region)]
      ++ (b.endpoint.map fun e => ("endpoint", Json.Value.string e)).toList

/-- An object store as a value. An endpoint that is not set is left out. -/
def toValue (s : ObjectStore) : Json.Value :=
  .object ((tagged.key, .string s.kind.name) :: s.members)

/-- The document of an object store. -/
def toDocument (s : ObjectStore) : String := s.toValue.toDocument

end ObjectStore

end ByteStore
