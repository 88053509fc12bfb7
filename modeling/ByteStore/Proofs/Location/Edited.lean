import ByteStore.Proofs.Json.Accepted
import ByteStore.Proofs.Json.Edits
import ByteStore.Proofs.Location.Described
import ByteStore.Proofs.Location.Plain

/-!
# Edited locations

The document of a location may be edited without any effect on what is read, once the location is
read at all (`parse_edited`): the members of the document, of its provider and of the bucket may be
reordered, members that are not declared may be put in, parts that may be null may be written as a
null where they are left out, and spaces are free. Nothing else is read than a text with a form, so
these edits make sense for every location with a document that is read.
-/

namespace ByteStore

open Json

/-! ### Buckets -/

namespace Bucket

/-- The parts of a bucket. -/
def parts : List (String × Bool × Schema) :=
  [("bucket", false, .text), ("region", false, .text), ("endpoint", true, .text)]

lemma follows_record : (record (ρ := Reader)).Follows parts where
  independent := independent_record Reader.exists_of_makes_map
  fields := by
    have hstring := Reader.tolerates_string
    refine .cons (Record.reads_required rfl hstring) ?_
    refine .cons (Record.reads_required rfl hstring) ?_
    refine .cons (Record.reads_nullable rfl hstring fun d hd => ?_) .nil
    obtain ⟨name, region, _ | endpoint⟩ := d
    · rfl
    · cases hd
  names := by decide
  formal _ := Reader.formal_skip.map _
  other _ _ hf := ⟨_, (Reader.makes_skip hf).map _⟩

lemma grammatical_record : (record (ρ := Reader)).Grammatical where
  field := by
    have hstring := Reader.grammatical_string
    refine List.forall_mem_cons.2 ⟨hstring.map _, List.forall_mem_cons.2 ⟨hstring.map _, ?_⟩⟩
    exact List.forall_mem_singleton.2 (hstring.nullable.map _)
  other _ := Reader.grammatical_skip.map _

end Bucket

namespace Location

/-! ### Providers -/

namespace Provider

/-- The parts of a provider. -/
def parts : List (String × Bool × Schema) :=
  [("provider", true, .text), ("aws", true, .record Bucket.parts)]

lemma follows_record : record.Follows parts where
  independent := independent_record Reader.exists_of_makes_map
  fields := by
    refine .cons (Record.reads_nullable rfl Reader.tolerates_string fun d hd => ?_) ?_
    · obtain ⟨_ | name, bucket⟩ := d
      · rfl
      · cases hd
    refine .cons (Record.reads_nullable rfl Bucket.follows_record.tolerates fun d hd => ?_) .nil
    obtain ⟨name, _ | bucket⟩ := d
    · rfl
    · cases hd
  names := by decide
  formal _ := Reader.formal_skip.map _
  other _ _ hf := ⟨_, (Reader.makes_skip hf).map _⟩

lemma grammatical_record : record.Grammatical where
  field := by
    refine List.forall_mem_cons.2 ⟨Reader.grammatical_string.nullable.map _, ?_⟩
    exact List.forall_mem_singleton.2 (Bucket.grammatical_record.reader.nullable.map _)
  other _ := Reader.grammatical_skip.map _

end Provider

/-! ### Documents -/

namespace Document

/-- The parts of a document. -/
def parts : List (String × Bool × Schema) :=
  [("path", true, .text), ("store", true, .record Provider.parts), ("settings_path", true, .text)]

lemma follows_record : record.Follows parts where
  independent := independent_record Reader.exists_of_makes_map
  fields := by
    refine .cons (Record.reads_nullable rfl Reader.tolerates_string fun d hd => ?_) ?_
    · obtain ⟨_ | path, provider, settings⟩ := d
      · rfl
      · cases hd
    refine .cons (Record.reads_nullable rfl Provider.follows_record.tolerates fun d hd => ?_) ?_
    · obtain ⟨path, _ | provider, settings⟩ := d
      · rfl
      · cases hd
    refine .cons (Record.reads_nullable rfl Reader.tolerates_string fun d hd => ?_) .nil
    obtain ⟨path, provider, _ | settings⟩ := d
    · rfl
    · cases hd
  names := by decide
  formal _ := Reader.formal_skip.map _
  other _ _ hf := ⟨_, (Reader.makes_skip hf).map _⟩

lemma grammatical_record : record.Grammatical where
  field := by
    have hstring := Reader.grammatical_string.nullable
    refine List.forall_mem_cons.2 ⟨hstring.map _, List.forall_mem_cons.2 ⟨?_, ?_⟩⟩
    · exact Provider.grammatical_record.reader.nullable.map _
    · exact List.forall_mem_singleton.2 (hstring.map _)
  other _ := Reader.grammatical_skip.map _

end Document

/-! ### Locations -/

variable {raw text : List Char} {ms : List (List Char × Form)}

lemma isBlank_of_isSpace {c : Char} (hc : Lexeme.isSpace c = true) : Text.isBlank c = true := by
  simp only [Lexeme.isSpace, Bool.or_eq_true, beq_iff_eq] at hc
  obtain ((rfl | rfl) | rfl) | rfl := hc <;> decide

lemma isBlank_of_number {c : Char} (hc : c = '-' ∨ c.isDigit = true) : Text.isBlank c = false := by
  obtain rfl | hc := hc
  · decide
  · obtain ⟨hlow, hhigh⟩ := toNat_of_isDigit hc
    simp only [Text.isBlank, Text.blankRanges, List.any_cons, List.any_nil, Bool.or_eq_false_iff,
      Bool.and_eq_false_iff, decide_eq_false_iff_not, and_true]
    omega

/-- The text of an object starts with its brace. -/
lemma head?_of_written (h : (Form.object ms).Written text) :
    (Text.trimStart text).head? = some '\x7b' := by
  rw [Form.Written, Form.symbols] at h
  cases h with
  | cons hspace _ =>
    rw [Text.trimStart_append_left fun c hc => isBlank_of_isSpace (hspace c hc)]
    rfl

/-- Only the text of an object starts with a brace. -/
lemma exists_object_of_head? {f : Form} (hvalid : f.Valid) (htext : f.Written text)
    (hbrace : (Text.trimStart text).head? = some '\x7b') : ∃ ms, f = .object ms := by
  have hstart {x : Symbol} {xs : List Symbol} {c : Char} {s : List Char}
      (hsymbols : f.symbols = x :: xs) (hx : x.text = c :: s) (hc : Text.isBlank c = false) :
      c = '\x7b' := by
    rw [Form.Written, hsymbols] at htext
    cases htext with
    | cons hspace _ =>
      rw [Text.trimStart_append_left fun c hc => isBlank_of_isSpace (hspace c hc), hx,
        List.cons_append, Text.trimStart, List.dropWhile_cons_of_neg (by simp [hc])] at hbrace
      exact Option.some.inj hbrace
  cases hvalid with
  | object _ _ => exact ⟨_, rfl⟩
  | string _ => exact absurd (hstart (by rw [Form.symbols]) rfl (by decide)) (by decide)
  | array _ => exact absurd (hstart (by rw [Form.symbols]) rfl (by decide)) (by decide)
  | atom h =>
    cases h with
    | null | true | false =>
      exact absurd (hstart (by rw [Form.symbols]) rfl (by decide)) (by decide)
    | number h =>
      obtain ⟨c, s, rfl, hc⟩ := h.exists_cons
      obtain rfl := hstart (by rw [Form.symbols]) rfl (isBlank_of_number hc)
      rcases hc with hc | hc <;> cases hc

/-- What is read of a location with a document is read of the document. -/
lemma exists_describes {inMemory : Bool} {l : Location} (hencloses : Encloses text raw)
    (hbrace : (Text.trimStart text).head? = some '\x7b') (h : read raw inMemory = .ok l) :
    ∃ d, Document.parse (String.ofList text) = .ok d := by
  rw [read_of_enclosed? hencloses.enclosed?, readText, document, if_pos hbrace] at h
  cases hparse : Document.parse (String.ofList text) with
  | error c =>
    rw [hparse] at h
    cases h
  | ok d => exact ⟨d, rfl⟩

/--
If a location with a document is read, then the document is the text of an object; and a location
whose document is that of an object edited any number of times, and written with any spaces, is read
to the same site.
-/
theorem parse_edited {raw : String} {text : List Char} {inMemory : Bool} {l : Location}
    (hencloses : Encloses text raw.toList) (hbrace : (Text.trimStart text).head? = some '\x7b')
    (h : parse raw inMemory = .ok l) :
    (∃ ms, (Form.object ms).Valid ∧ (Form.object ms).Written text) ∧
      ∀ (ms : List (List Char × Form)) (f : Form) (text' : List Char) (raw' : String)
        (inMemory' : Bool), (Form.object ms).Valid → (Form.object ms).Written text →
        Relation.ReflTransGen (Form.Edits (.record Document.parts)) (.object ms) f →
        f.Written text' → Encloses text' raw'.toList → parse raw' inMemory' = .ok l := by
  obtain ⟨d, hd⟩ := exists_describes hencloses hbrace (read_of_parse h)
  constructor
  · obtain ⟨f, hvalid, htext⟩ := Document.grammatical_record.reader.exists_form hd
    rw [String.toList_ofList] at htext
    obtain ⟨ms, rfl⟩ := exists_object_of_head? hvalid htext hbrace
    exact ⟨ms, hvalid, htext⟩
  · intro ms f text' raw' inMemory' hvalid htext hedits htext' hencloses'
    have hd' : Document.parse (String.ofList text') = .ok d :=
      Document.follows_record.tolerates.parse_of_edits hvalid
        (by rwa [String.toList_ofList]) hedits (by rwa [String.toList_ofList]) hd
    obtain ⟨ms', rfl⟩ := Form.exists_object_of_edits hedits
    have hread := read_of_describes ⟨text, hencloses, hbrace, hd⟩ inMemory
    have hread' := read_of_describes ⟨text', hencloses', head?_of_written htext', hd'⟩ inMemory'
    rw [← h]
    exact parse_congr (hread'.trans hread.symm)

theorem parse_edited_skipped :
    parse "slatedb:// \x7b \"store\" : \x7b \"provider\" : \"memory\" \x7d \x7d" true
        = .ok (.objects ⟨"data/slatedb", .memory, none⟩) ∧
      parse "SlateDB:\x7b\"x\":[true,\x7b\x7d],\"store\":\x7b\"aws\":null,\"provider\":\"memory\"\x7d\x7d"
          false
        = .ok (.objects ⟨"data/slatedb", .memory, none⟩) := by
  have hspells (s : String) (hs : s.toList = Quoted.encode s.toList) :
      Quoted.Spells s.toList s.toList := by
    have h := Quoted.spells_encode s.toList
    rwa [← hs] at h
  have hx := hspells "x" (by decide)
  have hstore := hspells "store" (by decide)
  have hprovider := hspells "provider" (by decide)
  have haws := hspells "aws" (by decide)
  have hmemory := hspells "memory" (by decide)
  have hempty : (Form.object []).Valid := .object (List.forall_mem_nil _) (List.forall_mem_nil _)
  have hskipped : (Form.array [.atom ['t', 'r', 'u', 'e'], .object []]).Valid :=
    .array (List.forall_mem_cons.2 ⟨.atom .true, List.forall_mem_singleton.2 hempty⟩)
  have hvalid : (Form.object
      [("store".toList, .object [("provider".toList, .string "memory".toList)])]).Valid := by
    refine (Form.valid_object_middle []).2 ⟨hempty, hstore.body, ?_⟩
    exact (Form.valid_object_middle []).2 ⟨hempty, hprovider.body, .string hmemory.body⟩
  have hnull : Form.Edits (.record Provider.parts)
      (.object [("provider".toList, .string "memory".toList)])
      (.object [("aws".toList, .null), ("provider".toList, .string "memory".toList)]) := by
    refine @Form.Edits.null _ [] _ _ _ _ (.tail _ (.head _)) haws ?_
    refine List.forall_mem_singleton.2 fun h => ?_
    exact absurd (h.unique hprovider) (by decide)
  have hmember := @Form.Edits.member Document.parts [] [] _ _ _ _ _ _ (.tail _ (.head _))
    hstore hnull
  have hparse : parse "slatedb:// \x7b \"store\" : \x7b \"provider\" : \"memory\" \x7d \x7d" true
      = .ok (.objects ⟨"data/slatedb", .memory, none⟩) :=
    parse_eq_ok (read_of_describes (d := ⟨none, some ⟨some "memory", none⟩, none⟩)
      ⟨_, encloses_iff.2 rfl, by decide, by decide +kernel⟩ true)
  have hedited := (parse_edited (encloses_iff.2 rfl) (by decide) hparse).2
  refine ⟨hparse, hedited _ _ _ _ false hvalid
    (Form.written_spread [' '] (List.forall_mem_singleton.2 rfl) _)
    (.tail (.single hmember) (@Form.Edits.insert _ [] _ _ _ _ (by decide) hx hskipped))
    (Form.written_spread [] (List.forall_mem_nil _) _) (encloses_iff.2 (by rfl))⟩

end Location

end ByteStore
