import ByteStore.Location
import ByteStore.Proofs.ObjectStore

/-!
# Locations of objects

A site of the objects engine can be written as a location: the scheme, and a document with the path,
the object store and the settings file (`ObjectsSite.toValue`). However the document is written, the
location is read back to the same site.
-/

namespace ByteStore

open Json

/-! ### Documents of sites -/

/-- The members that choose an object store by its provider. -/
def ObjectStore.providerMembers : ObjectStore → List (String × Value)
  | .memory => [("provider", .string "memory")]
  | .directory _ => [("provider", .string "local")]
  | .bucket b => [("provider", .string "aws"), ("aws", .object (ObjectStore.bucket b).members)]

/-- A site as a value. A settings file that is not set is left out. -/
def ObjectsSite.toValue (c : ObjectsSite) : Value :=
  .object ([("path", .string c.path), ("store", .object c.objects.providerMembers)]
    ++ (c.settings.map fun s => ("settings_path", Value.string s)).toList)

lemma ObjectStore.textual_providerMembers (o : ObjectStore) :
    (Value.object o.providerMembers).Textual := by
  cases o with
  | memory | directory path => exact Value.textual_nil.cons _ (.string _)
  | bucket b => exact (Value.textual_nil.cons _ (textual_members (.bucket b))).cons _ (.string _)

lemma ObjectsSite.textual_toValue (c : ObjectsSite) : c.toValue.Textual := by
  have hstore := c.objects.textual_providerMembers
  obtain ⟨path, objects, settings⟩ := c
  cases settings with
  | none => exact (Value.textual_nil.cons _ hstore).cons _ (.string _)
  | some settings =>
    exact ((Value.textual_nil.cons _ (.string _)).cons _ hstore).cons _ (.string _)

namespace Location

/-! ### Providers -/

namespace Provider

/-- The provider of an object store. -/
def ofObjectStore : ObjectStore → Provider
  | .memory => ⟨some "memory", none⟩
  | .directory _ => ⟨some "local", none⟩
  | .bucket b => ⟨some "aws", some b⟩

lemma independent_record {π : Type} {gives : ∀ {α : Type}, Reader α → π → α → Prop}
    (hmap : Record.ReadsThrough gives) : record.Independent gives := by
  refine Record.independent_of_maps hmap (.cons (.intro _ _ fun _ _ => rfl)
    (.cons (.intro _ _ fun _ _ => rfl) .nil)) ?_ fun _ => ⟨_, rfl⟩
  simp [Record.Part.apart_iff]

lemma gives_reader (o : ObjectStore) :
    record.reader.Gives (.object o.providerMembers) (ofObjectStore o) := by
  have hlawful := Reader.lawful_gives
  have hname (s : String) := hlawful.nullable Value.noConfusion (hlawful.string s)
  cases o with
  | memory =>
    refine Record.gives_reader (independent_record hlawful.exists_of_map)
      (d := ⟨some (some "memory"), none⟩) ?_ rfl
    exact .field rfl rfl (hlawful.map _ (hname _)) (.nil _)
  | directory path =>
    refine Record.gives_reader (independent_record hlawful.exists_of_map)
      (d := ⟨some (some "local"), none⟩) ?_ rfl
    exact .field rfl rfl (hlawful.map _ (hname _)) (.nil _)
  | bucket b =>
    have hbucket := hlawful.nullable Value.noConfusion (b.gives_reader)
    refine Record.gives_reader (independent_record hlawful.exists_of_map)
      (d := ⟨some (some "aws"), some (some b)⟩) ?_ rfl
    refine .field rfl rfl (hlawful.map _ (hname _)) ?_
    exact .field rfl rfl (hlawful.map _ hbucket) (.nil _)

end Provider

namespace Document

/-- The document of a site. -/
def ofSite (c : ObjectsSite) : Document := ⟨c.path, Provider.ofObjectStore c.objects, c.settings⟩

lemma independent_record {π : Type} {gives : ∀ {α : Type}, Reader α → π → α → Prop}
    (hmap : Record.ReadsThrough gives) : record.Independent gives := by
  refine Record.independent_of_maps hmap (.cons (.intro _ _ fun _ _ => rfl)
    (.cons (.intro _ _ fun _ _ => rfl) (.cons (.intro _ _ fun _ _ => rfl) .nil))) ?_
    fun _ => ⟨_, rfl⟩
  simp [Record.Part.apart_iff]

lemma gives_reader (c : ObjectsSite) : record.reader.Gives c.toValue (ofSite c) := by
  have hlawful := Reader.lawful_gives
  have hstring (s : String) := hlawful.nullable Value.noConfusion (hlawful.string s)
  have hprovider := hlawful.nullable Value.noConfusion (Provider.gives_reader c.objects)
  obtain ⟨path, objects, settings⟩ := c
  refine Record.gives_reader (independent_record hlawful.exists_of_map)
    (d := ⟨some (some path), some (some (.ofObjectStore objects)), settings.map some⟩) ?_ ?_
  · refine .field rfl rfl (hlawful.map _ (hstring path)) ?_
    refine .field rfl rfl (hlawful.map _ hprovider) ?_
    cases settings with
    | none => exact .nil _
    | some settings => exact .field rfl rfl (hlawful.map _ (hstring settings)) (.nil _)
  · cases settings <;> rfl

end Document

/-! ### Sites of documents -/

lemma objectStore_ofObjectStore {o : ObjectStore} {path : String}
    (hpath : ∀ p, o = .directory p → p = path) :
    objectStore (.ofObjectStore o) path = .ok o := by
  cases o with
  | memory => rfl
  | directory p =>
    obtain rfl := hpath p rfl
    rfl
  | bucket b => rfl

lemma objectsSite_ofSite {c : ObjectsSite} (hpath : c.path ≠ "")
    (hobjects : ∀ p, c.objects = .directory p → p = c.path) :
    objectsSite (.ofSite c) = .ok c := by
  have hdocument : objectsPath (.ofSite c) = c.path := by
    simp [objectsPath, Document.ofSite, hpath]
  rw [objectsSite, hdocument]
  change (do
    let objects ← objectStore (.ofObjectStore c.objects) c.path
    return (⟨c.path, objects, c.settings⟩ : ObjectsSite)) = _
  rw [objectStore_ofObjectStore hobjects]
  rfl

/-! ### Texts -/

lemma afterScheme?_append (rest : List Char) : afterScheme? (scheme ++ rest) = some rest := by
  have hscheme : scheme.map Char.toLower = scheme := by decide
  rw [afterScheme?, List.take_left, List.drop_left, if_pos hscheme]

lemma document_of_written {c : ObjectsSite} {text : List Char} (h : c.toValue.Written text) :
    document text = .ok (.ofSite c) := by
  obtain ⟨⟨t, rfl⟩, -⟩ := h.exists_braces
  have hparse : Document.parse (String.ofList ('\x7b' :: t)) = .ok (.ofSite c) :=
    (Document.gives_reader c).parse h
  rw [document, hparse, if_pos]
  rfl

/-- A text that starts and ends visibly is not trimmed, not even after the scheme. -/
lemma read_scheme_append {rest : List Char} (hfirst : ∀ c ∈ rest.head?, Text.isBlank c = false)
    (hlast : ∀ c ∈ rest.getLast?, Text.isBlank c = false) (inMemory : Bool) :
    read (scheme ++ rest) inMemory = (do
      let d ← document (dropSlashes rest)
      return .objects (← objectsSite d)) := by
  have htrim : Text.trim (scheme ++ rest) = scheme ++ rest := by
    apply Text.trim_eq_self
    · intro c hc
      cases hc
      rfl
    · intro c hc
      rw [Option.mem_def, List.getLast?_append, Option.or_eq_some_iff] at hc
      obtain hc | ⟨-, hc⟩ := hc
      · exact hlast c hc
      · cases hc
        rfl
  simp only [read, htrim, afterScheme?_append, Text.trim_eq_self hfirst hlast]

lemma parse_eq_ok {raw : String} {inMemory : Bool} {l : Location}
    (h : read raw.toList inMemory = .ok l) : parse raw inMemory = .ok l := by
  rw [parse, h]

lemma read_written {c : ObjectsSite} (hpath : c.path ≠ "")
    (hobjects : ∀ p, c.objects = .directory p → p = c.path) {text front : List Char}
    (h : c.toValue.Written text) (hfront : front = [] ∨ front = ['/', '/']) (inMemory : Bool) :
    read (scheme ++ (front ++ text)) inMemory = .ok (.objects c) := by
  obtain ⟨⟨t, rfl⟩, hlast⟩ := h.exists_braces
  have hrest : dropSlashes (front ++ '\x7b' :: t) = '\x7b' :: t := by
    rcases hfront with rfl | rfl <;> rfl
  rw [read_scheme_append, hrest, document_of_written h]
  · change (do
      let site ← objectsSite (.ofSite c)
      return Location.objects site) = _
    rw [objectsSite_ofSite hpath hobjects]
    rfl
  · intro a ha
    rcases hfront with rfl | rfl <;> cases ha <;> rfl
  · intro a ha
    rw [List.getLast?_append, hlast] at ha
    cases ha
    rfl

/--
A site can be written as a location, with or without slashes, unless its path is empty or its objects
are kept in a directory elsewhere. It is read back in whatever way its document is written.
-/
theorem parse_written_toValue (c : ObjectsSite) (hpath : c.path ≠ "")
    (hobjects : ∀ p, c.objects = .directory p → p = c.path) :
    c.toValue.Written c.toValue.render ∧
      ∀ text, c.toValue.Written text → ∀ inMemory,
        parse ("slatedb:" ++ String.ofList text) inMemory = .ok (.objects c) ∧
          parse ("slatedb://" ++ String.ofList text) inMemory = .ok (.objects c) := by
  refine ⟨c.textual_toValue.written_render, ?_⟩
  intro text htext inMemory
  have hread := read_written hpath hobjects htext (.inl rfl) inMemory
  have hread' := read_written hpath hobjects htext (.inr rfl) inMemory
  have htoList : (String.ofList text).toList = text := String.toList_ofList
  constructor
  · apply parse_eq_ok
    rw [String.toList_append, htoList]
    exact hread
  · apply parse_eq_ok
    rw [String.toList_append, htoList]
    exact hread'

theorem parse_written_toValue_slashes :
    parse "slatedb://\x7b\"path\":\" //\\u0000\",\"store\":\x7b\"provider\":\"local\"\x7d\x7d" true
      = .ok (.objects ⟨" //\x00", .directory " //\x00", none⟩) := by
  have hslashes := parse_written_toValue ⟨" //\x00", .directory " //\x00", none⟩ (by decide)
    fun p hp => (ObjectStore.directory.inj hp).symm
  exact (hslashes.2 _ hslashes.1 true).2

end Location

end ByteStore
