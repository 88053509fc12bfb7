import ByteStore.Location
import ByteStore.ObjectStore.Name
import ByteStore.Settings
import ByteStore.Store.Request

/-!
# Hosts

A host is what stores stand on: a file tree, the directory that paths start from, and the tables
that engines have made durable. It opens stores. A store that lives in a directory starts with what
was last made durable there by the same engine; a store in memory starts empty.

Setting up a store may leave new directories behind even if it fails, so every operation answers
with the host as it is afterwards.
-/

namespace ByteStore

/-- What stores stand on. -/
structure Host where
  tree : FileTree
  workingDirectory : Place
  isDirectory : tree.at? workingDirectory = some .directory
  /--
  The durable tables, the latest first. An engine that opens in a directory is taken to find there
  what it has last made durable in it, all of it and nothing else.
  -/
  kept : List ((Engine × Place) × Table)
  /-- The number of stores that have been opened. -/
  opened : Nat
  deriving DecidableEq

namespace Host

/-! ### A new host -/

/-- The directory of devices. -/
def devices : Name := ⟨['d', 'e', 'v'], by decide⟩

/-- The device that swallows everything. -/
def nullDevice : Name := ⟨['n', 'u', 'l', 'l'], by decide⟩

/-- The directory of temporary files. -/
def temporary : Name := ⟨['t', 'm', 'p'], by decide⟩

/-- The working directory, which is a temporary one. -/
def work : Name := ⟨['w', 'o', 'r', 'k'], by decide⟩

/-- The files of a new host: a device, and an empty working directory. -/
def newTree : FileTree :=
  let tree := (FileTree.empty.put [] devices .directory).put [] temporary .directory
  (tree.put [devices] nullDevice .device).put [temporary] work .directory

/-- A host on which nothing has been done yet. -/
def new : Host where
  tree := newTree
  workingDirectory := [work, temporary]
  isDirectory := by decide
  kept := []
  opened := 0

/-! ### Directories -/

/-- Makes the directory that a path leads to. -/
def makeDirectory (h : Host) (path : String) : Host × Except FileTree.Fault Unit :=
  let made := h.tree.makeDirectory h.workingDirectory path
  ({ h with
      tree := made.1
      isDirectory := FileTree.directory_makeDirectory h.isDirectory }, made.2)

/--
Makes the directory that a path leads to, and finds its place. Names are texts here, so every place
has a text; names in other bytes are left out.
-/
def prepareDirectory (h : Host) (path : String) : Host × Except SetupError Place :=
  match h.makeDirectory path with
  | (h', .error f) =>
    (h', .error (.storage s!"Failed to create storage directory '{path}': {f.message}"))
  | (h', .ok ()) =>
    match h'.tree.resolve h'.workingDirectory path with
    | .ok place => (h', .ok place)
    | .error f =>
      (h', .error (.storage s!"Failed to resolve storage directory '{path}': {f.message}"))

/-- Creates an object store; one in a directory makes the directory. -/
def createObjectStore (h : Host) (o : ObjectStore) : Host × Except SetupError Unit :=
  match o with
  | .directory path =>
    match h.prepareDirectory path with
    | (h', .error e) => (h', .error e)
    | (h', .ok _) => (h', .ok ())
  | _ => (h, .ok ())

/-- What a path leads to. -/
def status (h : Host) (path : String) : Option Node := h.tree.status h.workingDirectory path

/-- Writes a file, into a directory that is there. -/
def writeFile (h : Host) (path text : String) : Host :=
  { h with
    tree := h.tree.writeFile h.workingDirectory path text
    isDirectory := FileTree.directory_writeFile h.isDirectory }

/-- Loads the settings file, if there is to be one. -/
def loadSettings (h : Host) (path : Option String) : Except SetupError Unit :=
  Settings.load h.tree h.workingDirectory path

/-! ### Durability -/

/-- What an engine has made durable in a directory. -/
def table (h : Host) (e : Engine) (p : Place) : Table := (h.kept.lookup (e, p)).getD ∅

/-- Makes the table of a store durable. The table of a store in memory is lost with the store. -/
def keep (h : Host) (s : Store) : Host :=
  match s.home with
  | some p => { h with kept := ((s.engine, p), s.table) :: h.kept }
  | none => h

/-- Serves a request, and makes the store's table durable if that was asked for. -/
def serve (h : Host) (s : Store) (r : Request) : Host × Store × Answer :=
  let (s', a) := s.serve r
  (if r.makesDurable && a == .done then h.keep s' else h, s', a)

/-! ### Opening -/

/-- Starts a store. `findable` says whether the log of a database can be found again. -/
def start (h : Host) (e : Engine) (home : Option Place) (findable : Bool) : Host × Store :=
  ({ h with opened := h.opened + 1 },
    { serial := h.opened
      engine := e
      home
      table := match home with
        | some p => h.table e p
        | none => ∅
      log := .new e findable
      closed := false
      sound := fun h => by rw [h, Log.new_tree] })

/-- Starts a store if everything before has succeeded. -/
def startIf (h : Host) (e : Engine) (findable : Option Place → Bool) :
    Except Error (Option Place) → Host × Except Error Store
  | .ok home =>
    let (h', s) := h.start e home (findable home)
    (h', .ok s)
  | .error x => (h, .error x)

/--
Makes the directory of a tree, if it needs one. A tree in memory has files as well, in a temporary
directory that goes with the store. They are left out: nobody else sees them, and they are taken to
be made without fail.
-/
def prepareTree (h : Host) : TreeSite → Host × Except Error (Option Place)
  | .memory => (h, .ok none)
  | .directory path =>
    match h.makeDirectory path with
    | (h', .error f) =>
      (h', .error (.openFailed s!"failed to create directory '{path}': {f.message}"))
    | (h', .ok ()) =>
      match h'.tree.resolve h'.workingDirectory path with
      | .ok place => (h', .ok (some place))
      | .error f => (h', .error (.openFailed f.message))

/-- The directory of objects, made if the objects are to be kept in one. -/
def prepareObjects (h : Host) : ObjectStore → Host × Except SetupError (Option Place)
  | .directory path =>
    match h.prepareDirectory path with
    | (h', .ok place) => (h', .ok (some place))
    | (h', .error e) => (h', .error e)
  | _ => (h, .ok none)

/-- Reaches an object store. A host reaches nothing outside itself. -/
def reach : ObjectStore → Except Error Unit
  | .bucket b => .error (.openFailed s!"failed to open SlateDB: bucket {b.name} is out of reach")
  | _ => .ok ()

/--
Makes ready what a store of objects needs: its directory, its object store and its settings. The
threads that a database runs on are left out, and are taken to start without fail.
-/
def prepareSite (h : Host) (site : ObjectsSite) : Host × Except Error (Option Place) :=
  match h.prepareObjects site.objects with
  | (h₁, .error e) => (h₁, .error e.toError)
  | (h₁, .ok home) =>
    match h₁.createObjectStore site.objects with
    | (h₂, .error e) => (h₂, .error e.toError)
    | (h₂, .ok ()) =>
      match h₂.loadSettings site.settings with
      | .error e => (h₂, .error e.toError)
      | .ok () =>
        match reach site.objects with
        | .error e => (h₂, .error e)
        | .ok () => (h₂, .ok home)

/--
Whether the log of a database can be found again. The database has the name of its directory, or
that of its site if it has none.
-/
def isFindable (site : ObjectsSite) (home : Option Place) : Bool :=
  ObjectName.isFindable <|
    match home with
    | some p => p.text
    | none => site.path

/-- Opens the store at a location. -/
def openLocation (h : Host) : Location → Host × Except Error Store
  | .tree site =>
    let (h', home) := h.prepareTree site
    h'.startIf .tree (fun _ => true) home
  | .objects site =>
    let (h', home) := h.prepareSite site
    h'.startIf .objects (isFindable site) home

/-- Any error as the error of a store that could not be opened. -/
def asOpenFailed : Error → Error
  | .openFailed reason => .openFailed reason
  | e => .openFailed e.message

/-- Opens the store at the location that a text gives. -/
def openStore (h : Host) (location : String) (inMemory : Bool) : Host × Except Error Store :=
  match Location.parse location inMemory with
  | .error e => (h, .error e)
  | .ok l =>
    match h.openLocation l with
    | (h', .ok s) => (h', .ok s)
    | (h', .error e) => (h', .error (asOpenFailed e))

end Host

end ByteStore
