import ByteStore.Proofs.Location
import ByteStore.Proofs.Location.Enclosure

/-!
# Plain locations

A location without a document is plain: it names a directory, for the tree engine as it stands and
for the objects engine after the scheme. The texts that a plain location can come to name are the
ones that name themselves (`parse_plain`), so each of them has a normal form.
-/

namespace ByteStore

/-- The site that a path makes on its own: the objects are kept there, without settings. -/
def ObjectsSite.ofPath (path : String) : ObjectsSite := ⟨path, .directory path, none⟩

namespace Location

open Text

/-- The paths that can be given as the location of a tree. -/
structure IsTreePath (path : String) : Prop where
  ne_empty : path ≠ ""
  startsVisibly : StartsVisibly path.toList
  endsVisibly : EndsVisibly path.toList
  not_isScheme : ∀ s rest, path.toList = s ++ rest → ¬ IsScheme s

/-- The paths that can be given after the scheme and two slashes. -/
structure IsObjectsPath (path : String) : Prop where
  ne_empty : path ≠ ""
  endsVisibly : EndsVisibly path.toList
  not_brace : (trimStart path.toList).head? ≠ some '\x7b'

/-- Whether a location spells its site out in a document. -/
def HasDocument (raw : List Char) : Prop :=
  ∃ text, Encloses text raw ∧ (trimStart text).head? = some '\x7b'

instance (raw : List Char) : Decidable (HasDocument raw) :=
  decidable_of_iff (∃ text ∈ enclosed? raw, (trimStart text).head? = some '\x7b') <|
    exists_congr fun _ => and_congr_left' encloses_iff.symm

variable {raw text : List Char} {path : String} {inMemory : Bool} {l : Location}

/-! ### Trees -/

lemma afterScheme?_eq_none_iff :
    afterScheme? text = none ↔ ∀ s rest, text = s ++ rest → ¬ IsScheme s := by
  constructor
  · rintro h s rest rfl hs
    rw [hs.afterScheme?_append] at h
    cases h
  · intro h
    by_contra hne
    obtain ⟨rest, hrest⟩ := Option.ne_none_iff_exists'.1 hne
    obtain ⟨s, hs, htext⟩ := exists_of_afterScheme? hrest
    exact h s rest htext hs

lemma enclosed?_eq_none_iff :
    enclosed? raw = none ↔ ∀ s rest, trim raw = s ++ rest → ¬ IsScheme s := by
  rw [enclosed?, Option.map_eq_none_iff, afterScheme?_eq_none_iff]

lemma exists_of_readText (h : readText text = .ok l) : ∃ site, l = .objects site := by
  rw [readText] at h
  cases hd : document text with
  | error f =>
    rw [hd] at h
    cases h
  | ok d =>
    rw [hd] at h
    change (do return Location.objects (← objectsSite d)) = Except.ok l at h
    cases hsite : objectsSite d with
    | error f =>
      rw [hsite] at h
      cases h
    | ok site =>
      rw [hsite] at h
      cases h
      exact ⟨site, rfl⟩

lemma isTreePath_default : IsTreePath defaultTreePath where
  ne_empty := by decide
  startsVisibly := by
    intro c hc
    cases hc
    rfl
  endsVisibly := by
    intro c hc
    cases hc
    rfl
  not_isScheme := afterScheme?_eq_none_iff.1 (by decide)

lemma read_of_isTreePath (hpath : IsTreePath path) :
    read path.toList false = .ok (.tree (.directory path)) := by
  have htrim := trim_eq_self hpath.startsVisibly hpath.endsVisibly
  have hnone : enclosed? path.toList = none := by
    rw [enclosed?_eq_none_iff, htrim]
    exact hpath.not_isScheme
  rw [read_of_enclosed?_eq_none hnone, htrim, String.ofList_toList]
  simp [treeSite, hpath.ne_empty]

lemma isTreePath_of_read (h : read raw inMemory = .ok (.tree (.directory path))) :
    IsTreePath path := by
  cases henclosed : enclosed? raw with
  | some text =>
    rw [read_of_enclosed? henclosed] at h
    obtain ⟨site, hsite⟩ := exists_of_readText h
    cases hsite
  | none =>
    rw [read_of_enclosed?_eq_none henclosed, treeSite] at h
    split_ifs at h with hmemory hempty
    · cases h
    · cases h
      exact isTreePath_default
    · cases h
      refine ⟨fun hempty' => hempty (by rw [hempty']; rfl), ?_, ?_, ?_⟩
      all_goals rw [String.toList_ofList]
      · exact startsVisibly_trim raw
      · exact endsVisibly_trim raw
      · exact enclosed?_eq_none_iff.1 henclosed

/-! ### Objects -/

lemma isObjectsPath_default : IsObjectsPath defaultObjectsPath where
  ne_empty := by decide
  endsVisibly := by
    intro c hc
    cases hc
    rfl
  not_brace := by decide

lemma readText_nil : readText [] = .ok (.objects (.ofPath defaultObjectsPath)) := rfl

lemma readText_of_ne_nil (hne : text ≠ []) (hbrace : (trimStart text).head? ≠ some '\x7b') :
    readText text = .ok (.objects (.ofPath (String.ofList text))) := by
  have hdocument :
      document text = .ok { Document.blank with path := some (String.ofList text) } := by
    rw [document, if_neg hbrace, if_neg (by simpa using hne)]
  have hpath : objectsPath { Document.blank with path := some (String.ofList text) }
      = String.ofList text := by
    have hempty : (String.ofList text).isEmpty = false := by simpa using hne
    simp [objectsPath, hempty]
  rw [readText, hdocument]
  change (do
    let site ← objectsSite { Document.blank with path := some (String.ofList text) }
    return Location.objects site) = _
  rw [objectsSite, hpath]
  rfl

lemma read_of_isObjectsPath (hpath : IsObjectsPath path) (inMemory : Bool) :
    read ("slatedb://" ++ path).toList inMemory = .ok (.objects (.ofPath path)) := by
  have hencloses : Encloses path.toList ("slatedb://" ++ path).toList := by
    have h := Encloses.slashes allBlank_nil isScheme_scheme allBlank_nil hpath.endsVisibly
      allBlank_nil
    rw [List.append_nil] at h
    rw [String.toList_append]
    exact h
  have hne : path.toList ≠ [] := by simpa using hpath.ne_empty
  rw [read_of_enclosed? hencloses.enclosed?, readText_of_ne_nil hne hpath.not_brace,
    String.ofList_toList]

/-- What a location of the objects engine without a document comes to. -/
lemma exists_path_of_enclosed? (h : enclosed? raw = some text) (hplain : ¬ HasDocument raw)
    (inMemory : Bool) :
    ∃ path, IsObjectsPath path ∧ read raw inMemory = .ok (.objects (.ofPath path)) := by
  have hencloses := encloses_iff.2 h
  have hbrace : (trimStart text).head? ≠ some '\x7b' := fun hbrace =>
    hplain ⟨text, hencloses, hbrace⟩
  rw [read_of_enclosed? h]
  by_cases hne : text = []
  · subst hne
    exact ⟨_, isObjectsPath_default, readText_nil⟩
  · refine ⟨_, ⟨?_, ?_, ?_⟩, readText_of_ne_nil hne hbrace⟩
    · simpa using hne
    · rw [String.toList_ofList]
      exact hencloses.endsVisibly
    · rwa [String.toList_ofList]

/-! ### Normal forms -/

lemma read_of_parse {raw : String} (h : parse raw inMemory = .ok l) :
    read raw.toList inMemory = .ok l := by
  rw [parse] at h
  split at h
  · rename_i hread
    cases h
    exact hread
  · cases h

/--
The paths of trees on disk are the texts that are read to themselves, and the paths of objects
without a document are those that are read to themselves after the scheme and two slashes. So the
path that a plain location comes to is its normal form. Plain locations are never complained of.
-/
theorem parse_plain :
    (∀ path, IsTreePath path → parse path false = .ok (.tree (.directory path))) ∧
    (∀ raw inMemory path, parse raw inMemory = .ok (.tree (.directory path)) →
      IsTreePath path ∧ parse path false = .ok (.tree (.directory path))) ∧
    (∀ path, IsObjectsPath path → ∀ inMemory,
      parse ("slatedb://" ++ path) inMemory = .ok (.objects (.ofPath path))) ∧
    (∀ raw inMemory site, ¬ HasDocument raw.toList → parse raw inMemory = .ok (.objects site) →
      IsObjectsPath site.path ∧ site = .ofPath site.path ∧ ∀ inMemory',
        parse ("slatedb://" ++ site.path) inMemory' = .ok (.objects site)) ∧
    ∀ raw inMemory, ¬ HasDocument raw.toList → ∃ l, parse raw inMemory = .ok l := by
  have htree (path : String) (hpath : IsTreePath path) :
      parse path false = .ok (.tree (.directory path)) := parse_eq_ok (read_of_isTreePath hpath)
  have hobjects (path : String) (hpath : IsObjectsPath path) (inMemory : Bool) :
      parse ("slatedb://" ++ path) inMemory = .ok (.objects (.ofPath path)) :=
    parse_eq_ok (read_of_isObjectsPath hpath inMemory)
  refine ⟨htree, ?_, hobjects, ?_, ?_⟩
  · intro raw inMemory path hparse
    have hpath := isTreePath_of_read (read_of_parse hparse)
    exact ⟨hpath, htree path hpath⟩
  · intro raw inMemory site hraw hparse
    have hread := read_of_parse hparse
    cases henclosed : enclosed? raw.toList with
    | some text =>
      obtain ⟨path, hpath, hread'⟩ := exists_path_of_enclosed? henclosed hraw inMemory
      rw [hread] at hread'
      cases hread'
      exact ⟨hpath, rfl, hobjects path hpath⟩
    | none =>
      rw [read_of_enclosed?_eq_none henclosed] at hread
      cases hread
  · intro raw inMemory hraw
    cases henclosed : enclosed? raw.toList with
    | some text =>
      obtain ⟨path, -, hread⟩ := exists_path_of_enclosed? henclosed hraw inMemory
      exact ⟨_, parse_eq_ok hread⟩
    | none => exact ⟨_, parse_eq_ok (read_of_enclosed?_eq_none henclosed inMemory)⟩

theorem parse_plain_slashes :
    (parse "\u3000kv/slatedb:\n" false = .ok (.tree (.directory "kv/slatedb:")) ∧
      parse "kv/slatedb:" false = .ok (.tree (.directory "kv/slatedb:"))) ∧
    ¬ HasDocument "\tSlateDB:// //\x7b".toList ∧
    parse "\tSlateDB:// //\x7b" true = .ok (.objects (.ofPath " //\x7b")) ∧
    parse ("slatedb://" ++ " //\x7b") false = .ok (.objects (.ofPath " //\x7b")) := by
  have htree : parse "\u3000kv/slatedb:\n" false = .ok (.tree (.directory "kv/slatedb:")) := rfl
  have hdocument : ¬ HasDocument "\tSlateDB:// //\x7b".toList := by decide
  have hobjects : parse "\tSlateDB:// //\x7b" true = .ok (.objects (.ofPath " //\x7b")) := rfl
  have hplain := parse_plain
  exact ⟨⟨htree, (hplain.2.1 _ _ _ htree).2⟩, hdocument, hobjects,
    (hplain.2.2.2.1 _ _ _ hdocument hobjects).2.2 false⟩

end Location

end ByteStore
