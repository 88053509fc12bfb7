import ByteStore.Proofs.Location
import ByteStore.Proofs.Location.Enclosure

/-!
# Locations with a document

A document may leave out its parts, and it may choose a provider by any text. What site it describes
is decided by the path, by the provider it chooses, by the bucket if that provider needs one, and by
the settings file (`parse_described`). Only a provider without its bucket is complained of.
-/

namespace ByteStore.Location

open Text

/-- The document that a location spells out. -/
def Describes (raw : List Char) (d : Document) : Prop :=
  ∃ text, Encloses text raw ∧ (trimStart text).head? = some '\x7b' ∧
    Document.parse (String.ofList text) = .ok d

namespace Document

/-- The provider that a document names, as it stands there. -/
def provider? (d : Document) : Option String := d.provider.bind Provider.name

/-- The bucket that a document describes, if any. -/
def bucket? (d : Document) : Option Bucket := d.provider.bind Provider.bucket

/-- Whether a document chooses a provider. Blanks around its name and its case do not matter. -/
def Chooses (d : Document) (word : String) : Prop :=
  ∃ name ∈ d.provider?, (trim name.toList).map Char.toLower = word.toList

instance (d : Document) (word : String) : Decidable (d.Chooses word) :=
  inferInstanceAs (Decidable (∃ name ∈ d.provider?, _))

/-- Whether the path of a document comes to a path: itself, unless it is left out or empty. -/
def Leads (d : Document) (path : String) : Prop :=
  d.path = some path ∧ path ≠ "" ∨ (d.path = none ∨ d.path = some "") ∧ path = defaultObjectsPath

end Document

variable {raw : List Char} {d d' : Document} {word : String} {inMemory : Bool}

/-! ### Paths and providers -/

lemma leads_objectsPath (d : Document) : d.Leads (objectsPath d) := by
  obtain ⟨path, provider, settings⟩ := d
  cases path with
  | none => exact .inr ⟨.inl rfl, rfl⟩
  | some path =>
    by_cases hpath : path = ""
    · subst hpath
      exact .inr ⟨.inr rfl, rfl⟩
    · refine .inl ⟨?_, ?_⟩ <;> simp [objectsPath, hpath]

lemma Document.Leads.ne_empty {path : String} (h : d.Leads path) : path ≠ "" := by
  obtain ⟨-, hne⟩ | ⟨-, rfl⟩ := h
  · exact hne
  · decide

lemma providerName_eq_iff (hword : word ≠ "") :
    providerName (d.provider.getD ⟨none, none⟩) = word.toList ↔ d.Chooses word := by
  have hne : ([] : List Char) ≠ word.toList := fun h => hword (String.toList_eq_nil_iff.1 h.symm)
  obtain ⟨path, _ | ⟨_ | name, bucket⟩, settings⟩ := d <;>
    simp [providerName, Document.Chooses, Document.provider?, hne]

lemma bucket_getD (d : Document) : (d.provider.getD ⟨none, none⟩).bucket = d.bucket? := by
  obtain ⟨path, _ | provider, settings⟩ := d <;> rfl

/-- The object store of a document, by the provider that it chooses. -/
lemma objectStore_eq (d : Document) (path : String) :
    objectStore (d.provider.getD ⟨none, none⟩) path =
      if d.Chooses "aws" then
        match d.bucket? with
        | some b => .ok (.bucket b)
        | none => .error .noBucket
      else if d.Chooses "memory" then .ok .memory
      else .ok (.directory path) := by
  have haws := providerName_eq_iff (d := d) (by decide : "aws" ≠ "")
  have hmemory := providerName_eq_iff (d := d) (by decide : "memory" ≠ "")
  rw [objectStore, bucket_getD]
  cases d.bucket? <;> simp only [haws, hmemory]

lemma Document.Chooses.unique {word' : String} (h : d.Chooses word) (h' : d.Chooses word') :
    word = word' := by
  obtain ⟨name, hname, hword⟩ := h
  obtain ⟨name', hname', hword'⟩ := h'
  obtain rfl := Option.mem_unique hname hname'
  exact String.toList_inj.1 (hword.symm.trans hword')

lemma Document.Chooses.not_memory (h : d.Chooses "aws") : ¬ d.Chooses "memory" := by
  intro hmemory
  have hword := h.unique hmemory
  revert hword
  decide

/-! ### Sites -/

lemma objectsSite_eq (d : Document) : objectsSite d =
    (objectStore (d.provider.getD ⟨none, none⟩) (objectsPath d)).map
      fun o => ⟨objectsPath d, o, d.settings⟩ := by
  rw [objectsSite]
  cases objectStore (d.provider.getD ⟨none, none⟩) (objectsPath d) <;> rfl

lemma read_of_describes (h : Describes raw d) (inMemory : Bool) :
    read raw inMemory = (objectsSite d).map .objects := by
  obtain ⟨text, htext, hbrace, hd⟩ := h
  have hdocument : document text = .ok d := by rw [document, if_pos hbrace, hd]
  rw [read_of_enclosed? htext.enclosed?, readText, hdocument]
  change (do return Location.objects (← objectsSite d)) = _
  cases objectsSite d <;> rfl

lemma objectsSite_of_bucket {b : Bucket} (haws : d.Chooses "aws") (hb : d.bucket? = some b) :
    objectsSite d = .ok ⟨objectsPath d, .bucket b, d.settings⟩ := by
  rw [objectsSite_eq, objectStore_eq, if_pos haws, hb]
  rfl

lemma objectsSite_of_no_bucket (haws : d.Chooses "aws") (hb : d.bucket? = none) :
    objectsSite d = .error .noBucket := by
  rw [objectsSite_eq, objectStore_eq, if_pos haws, hb]
  rfl

/-- The site of a document that does not choose the provider with a bucket. -/
lemma objectsSite_of_not_chooses (haws : ¬ d.Chooses "aws") :
    objectsSite d = .ok ⟨objectsPath d,
      if d.Chooses "memory" then .memory else .directory (objectsPath d), d.settings⟩ := by
  rw [objectsSite_eq, objectStore_eq, if_neg haws]
  split_ifs <;> rfl

/--
A location with a document is complained of exactly if the document chooses the provider with a
bucket and describes no bucket. Otherwise it comes to a site with the path and the settings of the
document, and with the object store that the provider stands for; a bucket that is described beside
another provider makes no difference.
-/
theorem parse_described {raw : String} {d : Document} (h : Describes raw.toList d)
    (inMemory : Bool) :
    ((∃ e, parse raw inMemory = .error e) ↔ d.Chooses "aws" ∧ d.bucket? = none) ∧
    (¬ (d.Chooses "aws" ∧ d.bucket? = none) →
      ∃ site, parse raw inMemory = .ok (.objects site) ∧ d.Leads site.path ∧ site.path ≠ "" ∧
        site.settings = d.settings ∧
        (∀ b, site.objects = .bucket b ↔ d.Chooses "aws" ∧ d.bucket? = some b) ∧
        (site.objects = .memory ↔ d.Chooses "memory") ∧
        ∀ p, site.objects = .directory p ↔
          (¬ d.Chooses "aws" ∧ ¬ d.Chooses "memory") ∧ p = site.path) ∧
    (¬ d.Chooses "aws" → ∀ (raw' : String) (d' : Document) (inMemory' : Bool),
      Describes raw'.toList d' → d'.path = d.path → d'.provider? = d.provider? →
        d'.settings = d.settings → parse raw' inMemory' = parse raw inMemory) := by
  have hleads := leads_objectsPath d
  have hread := read_of_describes h inMemory
  have hok {site : ObjectsSite} (hsite : objectsSite d = .ok site) :
      parse raw inMemory = .ok (.objects site) := by
    rw [hsite] at hread
    exact parse_eq_ok hread
  refine ⟨?_, ?_, ?_⟩
  · by_cases haws : d.Chooses "aws"
    · cases hbucket : d.bucket? with
      | none =>
        rw [objectsSite_of_no_bucket haws hbucket] at hread
        exact iff_of_true ⟨_, parse_eq_error hread⟩ ⟨haws, rfl⟩
      | some b => simp [hok (objectsSite_of_bucket haws hbucket)]
    · simp [hok (objectsSite_of_not_chooses haws), haws]
  · intro hbucket
    by_cases haws : d.Chooses "aws"
    · obtain ⟨b, hb⟩ := Option.ne_none_iff_exists'.1 fun hnone => hbucket ⟨haws, hnone⟩
      refine ⟨_, hok (objectsSite_of_bucket haws hb), hleads, hleads.ne_empty, rfl, ?_, ?_, ?_⟩
      all_goals simp [haws, hb, haws.not_memory]
    · refine ⟨_, hok (objectsSite_of_not_chooses haws), hleads, hleads.ne_empty, rfl, ?_, ?_, ?_⟩
      all_goals
        by_cases hmemory : d.Chooses "memory" <;> simp [haws, hmemory, eq_comm]
  · intro haws raw' d' inMemory' h' hpath hprovider hsettings
    have hchooses (word : String) : d'.Chooses word ↔ d.Chooses word := by
      rw [Document.Chooses, hprovider, Document.Chooses]
    have hsite' := objectsSite_of_not_chooses ((hchooses "aws").not.2 haws)
    have hpath' : objectsPath d' = objectsPath d := by rw [objectsPath, hpath, objectsPath]
    apply parse_congr
    rw [hread, read_of_describes h', hsite', objectsSite_of_not_chooses haws, hpath', hsettings]
    simp only [hchooses]

theorem parse_described_bucket :
    Describes "slatedb://\x7b\"store\":\x7b\"provider\":\" AwS\u3000\",\"aws\":[\"b\"]\x7d\x7d".toList
        ⟨none, some ⟨some " AwS\u3000", some ⟨"b", "", none⟩⟩, none⟩ ∧
      ∃ site, parse
          "slatedb://\x7b\"store\":\x7b\"provider\":\" AwS\u3000\",\"aws\":[\"b\"]\x7d\x7d" true
          = .ok (.objects site) ∧ site.path ≠ "" ∧ site.objects = .bucket ⟨"b", "", none⟩ := by
  have hdescribes : Describes
      "slatedb://\x7b\"store\":\x7b\"provider\":\" AwS\u3000\",\"aws\":[\"b\"]\x7d\x7d".toList
      ⟨none, some ⟨some " AwS\u3000", some ⟨"b", "", none⟩⟩, none⟩ :=
    ⟨_, encloses_iff.2 rfl, by decide, by decide +kernel⟩
  obtain ⟨site, hparse, -, hne, -, hbucket, -⟩ :=
    (parse_described hdescribes true).2.1 (by decide)
  exact ⟨hdescribes, site, hparse, hne, (hbucket _).2 ⟨by decide, rfl⟩⟩

end ByteStore.Location
