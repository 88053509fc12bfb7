import ByteStore.Location
import ByteStore.Proofs.Text.Trim

/-!
# What a location holds

Of a location of the objects engine only the text that it holds after its scheme matters
(`read_of_enclosed?`); blanks around it, the case of the scheme and two slashes do not. The text is
found in whatever way it is held (`encloses_iff`), so locations that differ in these respects only
are read alike, be it to a site or to a complaint (`parse_insignificant`).
-/

namespace ByteStore.Location

open Text

variable {a b s t w raw rest text : List Char} {inMemory : Bool}

/-- The spellings of the scheme. The case of its letters does not matter. -/
def IsScheme (s : List Char) : Prop := s.map Char.toLower = scheme

/-- The site, if any, of what follows a scheme. -/
def readText (text : List Char) : Except Fault Location := do
  let d ← document text
  return .objects (← objectsSite d)

/-! ### The scheme -/

lemma toLower_of_isBlank {c : Char} (hc : isBlank c = true) : c.toLower = c := by
  refine dif_neg fun hupper => ?_
  have hlow : 65 ≤ c.toNat := hupper.1
  have hhigh : c.toNat ≤ 90 := hupper.2
  simp only [isBlank, blankRanges, List.any_cons, List.any_nil, Bool.or_eq_true, Bool.and_eq_true,
    decide_eq_true_eq, Bool.or_false] at hc
  omega

lemma isBlank_of_toLower {c d : Char} (hd : isBlank d = false) (hc : c.toLower = d) :
    isBlank c = false := by
  by_contra hblank
  rw [Bool.not_eq_false] at hblank
  rw [← hc, toLower_of_isBlank hblank, hblank] at hd
  cases hd

lemma isScheme_scheme : IsScheme scheme := by
  rw [IsScheme]
  decide

lemma isScheme_toList {s : String} (hs : s.toLower = "slatedb:") : IsScheme s.toList := by
  rw [IsScheme, ← String.toList_map]
  exact congrArg String.toList hs

namespace IsScheme

lemma length_eq (hs : IsScheme s) : s.length = scheme.length := by rw [← hs, List.length_map]

lemma ne_nil (hs : IsScheme s) : s ≠ [] := by
  rintro rfl
  cases hs.length_eq

lemma startsVisibly (hs : IsScheme s) : StartsVisibly s := by
  intro c hc
  have hlower : (s.map Char.toLower).head? = some c.toLower := by
    rw [List.head?_map, hc, Option.map]
  rw [hs] at hlower
  exact isBlank_of_toLower (by decide) (Option.some.inj hlower).symm

lemma endsVisibly (hs : IsScheme s) : EndsVisibly s := by
  intro c hc
  have hlower : (s.map Char.toLower).getLast? = some c.toLower := by
    rw [List.getLast?_map, hc, Option.map]
  rw [hs] at hlower
  exact isBlank_of_toLower (by decide) (Option.some.inj hlower).symm

lemma afterScheme?_append (hs : IsScheme s) (rest : List Char) :
    afterScheme? (s ++ rest) = some rest := by
  have hlower : s.map Char.toLower = scheme := hs
  rw [afterScheme?, ← hs.length_eq, List.take_left, List.drop_left, if_pos hlower]

end IsScheme

lemma exists_of_afterScheme? (h : afterScheme? t = some rest) :
    ∃ s, IsScheme s ∧ t = s ++ rest := by
  rw [afterScheme?] at h
  split_ifs at h with hs
  cases h
  exact ⟨_, hs, (List.take_append_drop _ _).symm⟩

/-! ### The text -/

/-- The text that a location of the objects engine holds. -/
def enclosed? (raw : List Char) : Option (List Char) :=
  (afterScheme? (trim raw)).map fun rest => dropSlashes (trim rest)

/-- Of a location of the objects engine only the text matters that it holds. -/
lemma read_of_enclosed? (h : enclosed? raw = some text) (inMemory : Bool) :
    read raw inMemory = readText text := by
  rw [enclosed?, Option.map_eq_some_iff] at h
  obtain ⟨rest, hrest, rfl⟩ := h
  rw [read, hrest]
  rfl

/-- A location that holds no text names a tree. -/
lemma read_of_enclosed?_eq_none (h : enclosed? raw = none) (inMemory : Bool) :
    read raw inMemory = .ok (.tree (treeSite (String.ofList (trim raw)) inMemory)) := by
  rw [enclosed?, Option.map_eq_none_iff] at h
  rw [read, h]

/-- What follows a scheme is held without the blanks around it. -/
lemma enclosed?_of_isScheme (ha : AllBlank a) (hs : IsScheme s) (hb : AllBlank b)
    (rest : List Char) : enclosed? (a ++ (s ++ rest) ++ b) = some (dropSlashes (trim rest)) := by
  rw [enclosed?, trim_append ha hb,
    trim_append_of_visible hs.ne_nil hs.startsVisibly hs.endsVisibly, hs.afterScheme?_append,
    Option.map_some, trim_trimEnd]

lemma enclosed?_scheme_append (rest : List Char) :
    enclosed? (scheme ++ rest) = some (dropSlashes (trim rest)) := by
  have h := enclosed?_of_isScheme allBlank_nil isScheme_scheme allBlank_nil rest
  rwa [List.nil_append, List.append_nil] at h

/--
Whether a location of the objects engine holds a text. Without slashes in front of it, a text cannot
start with blanks or slashes of its own.
-/
inductive Encloses : List Char → List Char → Prop
  | slashes {a s w text b : List Char} (ha : AllBlank a) (hs : IsScheme s) (hw : AllBlank w)
      (hend : EndsVisibly text) (hb : AllBlank b) :
      Encloses text (a ++ (s ++ (w ++ '/' :: '/' :: text)) ++ b)
  | bare {a s w text b : List Char} (ha : AllBlank a) (hs : IsScheme s) (hw : AllBlank w)
      (hstart : StartsVisibly text) (hslashes : ¬ ['/', '/'] <+: text) (hend : EndsVisibly text)
      (hb : AllBlank b) : Encloses text (a ++ (s ++ (w ++ text)) ++ b)

lemma Encloses.endsVisibly (h : Encloses text raw) : EndsVisibly text := by
  cases h with
  | slashes _ _ _ hend _ => exact hend
  | bare _ _ _ _ _ hend _ => exact hend

lemma dropSlashes_eq_self (h : ¬ ['/', '/'] <+: text) : dropSlashes text = text := by
  rw [dropSlashes.eq_def]
  split
  · exact absurd ⟨_, rfl⟩ h
  · rfl

lemma Encloses.enclosed? (h : Encloses text raw) : enclosed? raw = some text := by
  cases h with
  | slashes ha hs hw hend hb =>
    have hstart : StartsVisibly ('/' :: '/' :: text) := by
      intro c hc
      cases hc
      rfl
    have hend' : EndsVisibly ('/' :: '/' :: text) := by
      intro c hc
      cases text with
      | nil =>
        cases hc
        rfl
      | cons d text => exact hend c hc
    rw [enclosed?_of_isScheme ha hs hb, trim_append_left hw, trim_eq_self hstart hend']
    rfl
  | bare ha hs hw hstart hslashes hend hb =>
    rw [enclosed?_of_isScheme ha hs hb, trim_append_left hw, trim_eq_self hstart hend,
      dropSlashes_eq_self hslashes]

lemma encloses_dropSlashes (ha : AllBlank a) (hs : IsScheme s) (hb : AllBlank b)
    (rest : List Char) : Encloses (dropSlashes (trim rest)) (a ++ (s ++ rest) ++ b) := by
  obtain ⟨w, v, hw, hv, hrest⟩ := exists_eq_append_trim rest
  have hraw : a ++ (s ++ rest) ++ b = a ++ (s ++ (w ++ trim rest)) ++ (v ++ b) := by
    conv_lhs => rw [hrest]
    simp only [List.append_assoc]
  have hend := endsVisibly_trim rest
  rw [hraw]
  by_cases hslashes : ['/', '/'] <+: trim rest
  · obtain ⟨text, htext⟩ := hslashes
    rw [← htext] at hend ⊢
    refine .slashes ha hs hw ?_ (hv.append hb)
    intro c hc
    apply hend
    change text.getLast? = some c at hc
    rw [Option.mem_def, List.getLast?_append, hc, Option.some_or]
  · rw [dropSlashes_eq_self hslashes]
    exact .bare ha hs hw (startsVisibly_trim rest) hslashes hend (hv.append hb)

/-- The text that a location holds is found in whatever way it is held. -/
theorem encloses_iff : Encloses text raw ↔ enclosed? raw = some text := by
  constructor
  · exact Encloses.enclosed?
  · intro h
    rw [enclosed?, Option.map_eq_some_iff] at h
    obtain ⟨rest, hrest, rfl⟩ := h
    obtain ⟨s, hs, htrim⟩ := exists_of_afterScheme? hrest
    obtain ⟨a, b, ha, hb, hraw⟩ := exists_eq_append_trim raw
    rw [hraw, htrim]
    exact encloses_dropSlashes ha hs hb rest

/-! ### What does not matter -/

lemma read_append (ha : AllBlank a) (hb : AllBlank b) (raw : List Char) (inMemory : Bool) :
    read (a ++ raw ++ b) inMemory = read raw inMemory := by
  rw [read, trim_append ha hb, read]

lemma parse_congr {raw raw' : String} {inMemory inMemory' : Bool}
    (h : read raw.toList inMemory = read raw'.toList inMemory') :
    parse raw inMemory = parse raw' inMemory' := by
  rw [parse, h, parse]

lemma parse_eq_error {raw : String} {inMemory : Bool} {f : Fault}
    (h : read raw.toList inMemory = .error f) : parse raw inMemory = .error f.toError := by
  rw [parse, h]

/--
Blanks around a location or after its scheme, and the case of the scheme, make no difference to what
is read or to what is complained of. The flag makes none if there is a scheme.
-/
theorem parse_insignificant :
    (∀ a raw b : String, AllBlank a.toList → AllBlank b.toList → ∀ inMemory,
      parse (a ++ raw ++ b) inMemory = parse raw inMemory) ∧
    ∀ a s w rest b : String, AllBlank a.toList → s.toLower = "slatedb:" → AllBlank w.toList →
      AllBlank b.toList → ∀ inMemory inMemory',
        parse (a ++ s ++ w ++ rest ++ b) inMemory = parse ("slatedb:" ++ rest) inMemory' := by
  constructor
  · intro a raw b ha hb inMemory
    apply parse_congr
    rw [String.toList_append, String.toList_append, read_append ha hb]
  · intro a s w rest b ha hs hw hb inMemory inMemory'
    apply parse_congr
    have hraw : (a ++ s ++ w ++ rest ++ b).toList
        = a.toList ++ (s.toList ++ (w.toList ++ rest.toList)) ++ b.toList := by
      simp only [String.toList_append, List.append_assoc]
    have hleft := enclosed?_of_isScheme ha (isScheme_toList hs) hb (w.toList ++ rest.toList)
    rw [trim_append_left hw] at hleft
    rw [hraw, read_of_enclosed? hleft, String.toList_append]
    exact (read_of_enclosed? (enclosed?_scheme_append rest.toList) inMemory').symm

theorem parse_insignificant_complaint :
    parse (" " ++ "SlateDB:" ++ "\u3000" ++ "//\n\x7b\"path\": 5\x7d" ++ "\t") true
      = .error (.openFailed ("invalid slatedb configuration: invalid type: integer `5`, "
          ++ "expected a string at line 2 column 10")) := by
  have hdocument : Document.parse (String.ofList "\n\x7b\"path\": 5\x7d".toList)
      = .error ⟨.wrongType (.integer 5) "a string", some ⟨2, 10⟩⟩ := by decide +kernel
  have hread : read ("slatedb:" ++ "//\n\x7b\"path\": 5\x7d").toList false
      = .error (.document ⟨.wrongType (.integer 5) "a string", some ⟨2, 10⟩⟩) := by
    rw [String.toList_append]
    refine (read_of_enclosed? (enclosed?_scheme_append _) false).trans ?_
    change readText "\n\x7b\"path\": 5\x7d".toList = _
    rw [readText, document, hdocument]
    rfl
  have hblank : AllBlank " ".toList ∧ AllBlank "\u3000".toList ∧ AllBlank "\t".toList := by decide
  rw [parse_insignificant.2 _ _ _ _ _ hblank.1 (by decide +kernel) hblank.2.1 hblank.2.2 true false]
  exact parse_eq_error hread

end ByteStore.Location
