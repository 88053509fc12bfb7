import ByteStore.Proofs.Json.Makes
import Mathlib.Data.List.Nodup
import Mathlib.Data.List.Perm.Basic
import Mathlib.Logic.Relation

/-!
# Edits that make no difference

A form of a record may be edited in ways that make no difference to what is read (`Form.Edits`): its
members may be put in another order, members that the record does not declare may be put in, a part
that may be null and is left out may be written as a null, and the values of the parts may be edited
in their turn. A record tolerates these edits (`Record.Follows.tolerates`) if its fields are
independent and a null leaves the record as it is. So a document is read alike after any number of
them, with any spaces (`Reader.Tolerates.parse_of_edits`).
-/

namespace ByteStore.Json

/-- What a document declares. -/
inductive Schema
  | text
  /-- The parts with their names; a part may be said to be left out or null. -/
  | record (parts : List (String × Bool × Schema))

namespace Form

/-- One edit that makes no difference to what is declared. -/
inductive Edits : Schema → Form → Form → Prop
  | reorder {parts : List (String × Bool × Schema)} {ms ms' : List (List Char × Form)}
      (hperm : ms.Perm ms') : Edits (.record parts) (.object ms) (.object ms')
  | insert {parts : List (String × Bool × Schema)} {front back : List (List Char × Form)}
      {name : String} {key : List Char} {f : Form} (hname : ∀ p ∈ parts, p.1 ≠ name)
      (hkey : Quoted.Spells name.toList key) (hf : f.Valid) :
      Edits (.record parts) (.object (front ++ back)) (.object (front ++ (key, f) :: back))
  | null {parts : List (String × Bool × Schema)} {front back : List (List Char × Form)}
      {name : String} {key : List Char} {schema : Schema} (hpart : (name, true, schema) ∈ parts)
      (hkey : Quoted.Spells name.toList key)
      (habsent : ∀ m ∈ front ++ back, ¬ Quoted.Spells name.toList m.1) :
      Edits (.record parts) (.object (front ++ back)) (.object (front ++ (key, .null) :: back))
  | member {parts : List (String × Bool × Schema)} {front back : List (List Char × Form)}
      {name : String} {key : List Char} {nullable : Bool} {schema : Schema} {f f' : Form}
      (hpart : (name, nullable, schema) ∈ parts) (hkey : Quoted.Spells name.toList key)
      (h : Edits schema f f') :
      Edits (.record parts) (.object (front ++ (key, f) :: back))
        (.object (front ++ (key, f') :: back))
  | nullItem {parts : List (String × Bool × Schema)} {items : List Form} {name : String}
      {schema : Schema} (hpart : parts[items.length]? = some (name, true, schema)) :
      Edits (.record parts) (.array items) (.array (items ++ [.null]))
  | item {parts : List (String × Bool × Schema)} {front back : List Form} {name : String}
      {nullable : Bool} {schema : Schema} {f f' : Form}
      (hpart : parts[front.length]? = some (name, nullable, schema)) (h : Edits schema f f') :
      Edits (.record parts) (.array (front ++ f :: back)) (.array (front ++ f' :: back))

variable {schema : Schema} {f f' : Form} {key : List Char} {back : List (List Char × Form)}

lemma Edits.ne_null (h : Edits schema f f') : f ≠ .null ∧ f' ≠ .null := by
  cases h <;> exact ⟨Form.noConfusion, Form.noConfusion⟩

/-- An object stays one. -/
lemma exists_object_of_edits {ms : List (List Char × Form)}
    (h : Relation.ReflTransGen (Edits schema) (.object ms) f) : ∃ ms', f = .object ms' := by
  induction h with
  | refl => exact ⟨ms, rfl⟩
  | tail _ hedit ih =>
    obtain ⟨ms', rfl⟩ := ih
    cases hedit <;> exact ⟨_, rfl⟩

lemma Edits.valid (h : Edits schema f f') (hf : f.Valid) : f'.Valid := by
  induction h with
  | reorder hperm =>
    cases hf with
    | object hkeys hvalues =>
      exact .object (fun m hm => hkeys m (hperm.symm.subset hm))
        fun m hm => hvalues m (hperm.symm.subset hm)
  | insert _ hkey hvalue => exact (valid_object_middle _).2 ⟨hf, hkey.body, hvalue⟩
  | null _ hkey _ => exact (valid_object_middle _).2 ⟨hf, hkey.body, valid_null⟩
  | member _ _ _ ih =>
    obtain ⟨hrest, hkey, hvalue⟩ := (valid_object_middle _).1 hf
    exact (valid_object_middle _).2 ⟨hrest, hkey, ih hvalue⟩
  | @nullItem _ items =>
    rw [valid_array_middle, List.append_nil]
    exact ⟨hf, valid_null⟩
  | item _ _ ih =>
    obtain ⟨hrest, hvalue⟩ := (valid_array_middle _).1 hf
    exact (valid_array_middle _).2 ⟨hrest, ih hvalue⟩

/-! ### Named members -/

section Named

variable {ms front back : List (List Char × Form)} {rows rs ss : List (String × Form)}
  {name : String} {key : List Char} {f : Form}

lemma Named.insert (hfront : Named front rs) (hback : Named back ss)
    (hkey : Quoted.Spells name.toList key) (f : Form) :
    Named (front ++ (key, f) :: back) (rs ++ (name, f) :: ss) :=
  List.rel_append hfront (.cons ⟨hkey, rfl⟩ hback)

lemma Named.exists_append (h : Named (front ++ back) rows) :
    ∃ rs ss, rows = rs ++ ss ∧ Named front rs ∧ Named back ss :=
  exists_of_forall₂_append h

lemma Named.exists_middle (hkey : Quoted.Spells name.toList key)
    (h : Named (front ++ (key, f) :: back) rows) :
    ∃ rs ss, rows = rs ++ (name, f) :: ss ∧ Named front rs ∧ Named back ss := by
  obtain ⟨rs, ss, rfl, hfront, hback⟩ := h.exists_append
  obtain ⟨⟨name', _⟩, ss, ⟨hname, rfl⟩, htail, rfl⟩ := List.forall₂_cons_left_iff.1 hback
  obtain rfl := String.toList_inj.1 (hkey.unique hname)
  exact ⟨rs, ss, rfl, hfront, htail⟩

lemma Named.perm {ms' : List (List Char × Form)} (h : Named ms rows) (hperm : ms.Perm ms') :
    ∃ rows', Named ms' rows' ∧ rows.Perm rows' := by
  obtain ⟨rows', hnamed, hrows⟩ := List.perm_comp_forall₂ hperm.symm h
  exact ⟨rows', hnamed, hrows.symm⟩

/-- A name that no key spells is no member's name. -/
lemma Named.forall_ne (h : Named ms rows) (habsent : ∀ m ∈ ms, ¬ Quoted.Spells name.toList m.1) :
    ∀ row ∈ rows, row.1 ≠ name := by
  induction h with
  | nil => exact List.forall_mem_nil _
  | cons hrow _ ih =>
    rw [List.forall_mem_cons] at habsent ⊢
    refine ⟨?_, ih habsent.2⟩
    rintro rfl
    exact habsent.1 hrow.1

end Named

end Form

/-! ### Simple readers -/

namespace Reader

open Form

variable {α β : Type} {r : Reader α} {schema : Schema}

/-- Whether edits make no difference to a reader. -/
structure Tolerates (r : Reader α) (schema : Schema) : Prop where
  formal : r.Formal
  makes : ∀ {f f' : Form} {a : α}, Edits schema f f' → f.Valid → r.Makes f a → r.Makes f' a

/-- Nothing inside a string is edited. -/
lemma tolerates_string : string.Tolerates .text where
  formal := formal_string
  makes h := nomatch h

lemma Tolerates.map (g : α → β) (hr : r.Tolerates schema) : (r.map g).Tolerates schema where
  formal := hr.formal.map g
  makes hedits hf h := by
    obtain ⟨a, ha, rfl⟩ := hr.formal.exists_of_map hf h
    exact (hr.makes hedits hf ha).map g

lemma Tolerates.nullable (hr : r.Tolerates schema) : r.nullable.Tolerates schema where
  formal := hr.formal.nullable
  makes hedits hf h := by
    rw [makes_nullable_iff hedits.ne_null.1] at h
    rw [makes_nullable_iff hedits.ne_null.2]
    exact (hr.map some).makes hedits hf h

end Reader

/-! ### Members and items -/

namespace Record

open Form

variable {δ α π : Type} {r : Record Reader δ α} {d d' : δ} {a : α} {name : String} {f f' : Form}
  {field : Field Reader δ} {g : δ → δ} {rows front back : List (String × Form)}
  {fs : List (Field Reader δ)} {items : List Form}

lemma Enters.middle (hr : r.Independent Reader.Makes) :
    r.Enters Reader.Makes d (front ++ (name, f) :: back) d' ↔
      r.Enters Reader.Makes d ((name, f) :: (front ++ back)) d' :=
  ⟨fun h => h.perm hr List.perm_middle, fun h => h.perm hr List.perm_middle.symm⟩

/-- A field is not set by members with other names. -/
lemma Enters.isSet_eq (hr : r.Independent Reader.Makes) (hfield : field ∈ r.fields)
    (hrows : ∀ row ∈ rows, row.1 ≠ field.name) (h : r.Enters Reader.Makes d rows d') :
    field.isSet d' = field.isSet d := by
  induction h with
  | nil d => rfl
  | field hf _ hg _ ih =>
    rw [List.forall_mem_cons] at hrows
    obtain ⟨hmem, hname⟩ := mem_of_field? hf
    have hapart := hr.apart_of_ne hfield hmem fun heq => hrows.1 (hname.symm.trans heq.symm)
    rw [ih hrows.2, hapart.isSet_left _ _ hg]
  | other hf hg _ ih =>
    rw [List.forall_mem_cons] at hrows
    rw [ih hrows.2, hr.other _ _ _ hg]

/-- A member that is no field may be put in anywhere. -/
lemma Enters.insert_other (hr : r.Independent Reader.Makes) (hfield : r.field? name = none)
    (hg : (r.other name).Makes f g) (h : r.Enters Reader.Makes d (front ++ back) d') :
    r.Enters Reader.Makes d (front ++ (name, f) :: back) d' := by
  rw [Enters.middle hr]
  refine .other hfield hg ?_
  rwa [hr.other name f g hg]

/-- A field that has been left out may be put in anywhere, which is entered in the end. -/
lemma Enters.insert_field (hr : r.Independent Reader.Makes) (hfield : r.field? name = some field)
    (hg : field.enter.Makes f g) (hset : field.isSet d' = false)
    (h : r.Enters Reader.Makes d (front ++ back) d') :
    r.Enters Reader.Makes d (front ++ (name, f) :: back) (g d') := by
  have hlast := h.append (.field hfield hset hg (.nil (g d')))
  exact hlast.perm hr ((List.perm_append_singleton _ _).trans List.perm_middle.symm)

/-- The value of a field may be replaced by one that is read alike. -/
lemma Enters.replace (hr : r.Independent Reader.Makes) (hfield : r.field? name = some field)
    (hf : ∀ g, field.enter.Makes f g → field.enter.Makes f' g)
    (h : r.Enters Reader.Makes d (front ++ (name, f) :: back) d') :
    r.Enters Reader.Makes d (front ++ (name, f') :: back) d' := by
  rw [Enters.middle hr] at h ⊢
  cases h with
  | field hfield' hset hg h =>
    rw [hfield] at hfield'
    cases hfield'
    exact .field hfield hset (hf _ hg) h
  | other hfield' =>
    rw [hfield] at hfield'
    cases hfield'

/-- A field is not set by the items of fields in front of it. -/
lemma Lists.isSet_eq (h : Lists d fs items d') (hfs : fs.Pairwise (Apart Reader.Makes))
    (hfield : fs[items.length]? = some field) : field.isSet d' = field.isSet d := by
  induction h with
  | nil => rfl
  | cons hg _ ih =>
    rw [List.length_cons, List.getElem?_cons_succ] at hfield
    rw [List.pairwise_cons] at hfs
    rw [ih hfs.2 hfield, (hfs.1 field (List.mem_of_getElem? hfield)).isSet_right _ _ hg]

/-- The next field may be put in at the end. -/
lemma Lists.append_item (h : Lists d fs items d') (hfield : fs[items.length]? = some field)
    (hg : field.enter.Makes f g) : Lists d fs (items ++ [f]) (g d') := by
  induction h with
  | nil d fs =>
    cases fs with
    | nil => cases hfield
    | cons field' fs =>
      cases hfield
      exact .cons hg (.nil _ _)
  | cons hg' _ ih =>
    rw [List.length_cons, List.getElem?_cons_succ] at hfield
    exact .cons hg' (ih hfield)

/-- An item may be replaced by one that is read alike. -/
lemma Lists.replace {front back : List Form} (hfield : fs[front.length]? = some field)
    (hf : ∀ g, field.enter.Makes f g → field.enter.Makes f' g)
    (h : Lists d fs (front ++ f :: back) d') : Lists d fs (front ++ f' :: back) d' := by
  induction front generalizing d fs with
  | nil =>
    cases h with
    | cons hg h =>
      cases hfield
      exact .cons (hf _ hg) h
  | cons f₀ front ih =>
    cases h with
    | cons hg h =>
      rw [List.length_cons, List.getElem?_cons_succ] at hfield
      exact .cons hg (ih hfield h)

/-! ### Records -/

/-- Whether a field of a record reads a part, and a null, if allowed, as if it were left out. -/
structure Reads (r : Record Reader δ α) (field : Field Reader δ) (part : String × Bool × Schema) :
    Prop where
  name : field.name = part.1
  blank : field.isSet r.blank = false
  tolerates : field.enter.Tolerates part.2.2
  null : part.2.1 = true → ∃ g, field.enter.Makes .null g ∧
    ∀ d, field.isSet d = false → r.finish (g d) = r.finish d

lemma reads_required {β : Type} {set : β → δ → δ} {isSet : δ → Bool} {e : Reader β}
    {schema : Schema} (hblank : isSet r.blank = false) (he : e.Tolerates schema) :
    r.Reads ⟨name, isSet, e.map set⟩ (name, false, schema) :=
  ⟨rfl, hblank, he.map set, Bool.noConfusion⟩

lemma reads_nullable {β : Type} {set : Option β → δ → δ} {isSet : δ → Bool} {e : Reader β}
    {schema : Schema} (hblank : isSet r.blank = false) (he : e.Tolerates schema)
    (hnull : ∀ d, isSet d = false → r.finish (set none d) = r.finish d) :
    r.Reads ⟨name, isSet, e.nullable.map set⟩ (name, true, schema) :=
  ⟨rfl, hblank, he.nullable.map set, fun _ => ⟨_, Reader.makes_nullable_null.map set, hnull⟩⟩

/-- Whether a record reads the parts that are declared, and passes everything else. -/
structure Follows (r : Record Reader δ α) (parts : List (String × Bool × Schema)) : Prop where
  independent : r.Independent Reader.Makes
  fields : r.fields.Forall₂ r.Reads parts
  names : (r.fields.map Field.name).Nodup
  formal : ∀ name, (r.other name).Formal
  other : ∀ name (f : Form), f.Valid → ∃ g, (r.other name).Makes f g

lemma field?_of_mem (hnames : (r.fields.map Field.name).Nodup) (hfield : field ∈ r.fields) :
    r.field? field.name = some field := by
  cases hfind : r.field? field.name with
  | none =>
    have hne := List.find?_eq_none.1 hfind field hfield
    exact absurd (beq_self_eq_true field.name) hne
  | some field' =>
    obtain ⟨hmem, hname⟩ := mem_of_field? hfind
    exact congrArg some (List.inj_on_of_nodup_map hnames hmem hfield hname)

namespace Follows

variable {parts : List (String × Bool × Schema)} {part : String × Bool × Schema} {i : Nat}
  {ms : List (List Char × Form)}

lemma exists_part (hr : r.Follows parts) (hfield : field ∈ r.fields) :
    ∃ part ∈ parts, r.Reads field part := by
  obtain ⟨i, hi, rfl⟩ := List.mem_iff_getElem.1 hfield
  have hlength := hr.fields.length_eq
  exact ⟨parts[i], List.getElem_mem _, hr.fields.get hi (hlength ▸ hi)⟩

lemma exists_field (hr : r.Follows parts) (hpart : parts[i]? = some part) :
    ∃ field, r.fields[i]? = some field ∧ r.Reads field part := by
  obtain ⟨hi, rfl⟩ := List.getElem?_eq_some_iff.1 hpart
  have hlength := hr.fields.length_eq
  exact ⟨_, List.getElem?_eq_getElem (hlength ▸ hi), hr.fields.get (hlength ▸ hi) hi⟩

lemma formal_record (hr : r.Follows parts) : r.Formal where
  field field hfield := by
    obtain ⟨part, -, hreads⟩ := hr.exists_part hfield
    exact hreads.tolerates.formal
  other := hr.formal

lemma field?_eq_none (hr : r.Follows parts) (hname : ∀ p ∈ parts, p.1 ≠ name) :
    r.field? name = none := by
  by_contra hfield
  obtain ⟨field, hfield⟩ := Option.ne_none_iff_exists'.1 hfield
  obtain ⟨hmem, rfl⟩ := mem_of_field? hfield
  obtain ⟨part, hpart, hreads⟩ := hr.exists_part hmem
  exact hname part hpart hreads.name.symm

lemma exists_field? (hr : r.Follows parts) (hpart : part ∈ parts) :
    ∃ field ∈ r.fields, r.field? part.1 = some field ∧ r.Reads field part := by
  obtain ⟨i, hi⟩ := List.mem_iff_getElem?.1 hpart
  obtain ⟨field, hfield, hreads⟩ := hr.exists_field hi
  have hmem := List.mem_of_getElem? hfield
  exact ⟨field, hmem, hreads.name ▸ field?_of_mem hr.names hmem, hreads⟩

/-- Edits make no difference to the reader of a record. -/
theorem tolerates (hr : r.Follows parts) : r.reader.Tolerates (.record parts) where
  formal := hr.formal_record.reader
  makes := by
    intro f f' a hedits hf h
    have hf' := hedits.valid hf
    have hformal := hr.formal_record
    have hindependent := hr.independent
    cases hedits with
    | reorder hperm =>
      obtain ⟨rows, d, hnamed, hrows, ha⟩ := (hformal.makes_object_iff hf).1 h
      obtain ⟨rows', hnamed', hperm'⟩ := hnamed.perm hperm
      exact makes_object hf' hnamed' (hrows.perm hindependent hperm') ha
    | insert hname hkey hvalue =>
      obtain ⟨rows, d, hnamed, hrows, ha⟩ := (hformal.makes_object_iff hf).1 h
      obtain ⟨rs, ss, rfl, hfront, hback⟩ := hnamed.exists_append
      obtain ⟨g, hg⟩ := hr.other _ _ hvalue
      refine makes_object hf' (hfront.insert hback hkey _) ?_ ha
      exact hrows.insert_other hindependent (hr.field?_eq_none hname) hg
    | null hpart hkey habsent =>
      obtain ⟨rows, d, hnamed, hrows, ha⟩ := (hformal.makes_object_iff hf).1 h
      obtain ⟨rs, ss, rfl, hfront, hback⟩ := hnamed.exists_append
      obtain ⟨field, hmem, hfield, hreads⟩ := hr.exists_field? hpart
      obtain ⟨g, hg, hfinish⟩ := hreads.null rfl
      have hset : field.isSet d = false := by
        rw [hrows.isSet_eq hindependent hmem (hreads.name ▸ hnamed.forall_ne habsent),
          hreads.blank]
      refine makes_object hf' (hfront.insert hback hkey _)
        (hrows.insert_field hindependent hfield hg hset) ?_
      rw [hfinish d hset, ha]
    | member hpart hkey hvalue =>
      obtain ⟨rows, d, hnamed, hrows, ha⟩ := (hformal.makes_object_iff hf).1 h
      obtain ⟨rs, ss, rfl, hfront, hback⟩ := hnamed.exists_middle hkey
      obtain ⟨field, -, hfield, hreads⟩ := hr.exists_field? hpart
      refine makes_object hf' (hfront.insert hback hkey _) ?_ ha
      refine hrows.replace hindependent hfield fun g hg => ?_
      exact hreads.tolerates.makes hvalue ((valid_object_middle _).1 hf).2.2 hg
    | nullItem hpart =>
      obtain ⟨d, hitems, ha⟩ := (hformal.makes_array_iff hf).1 h
      obtain ⟨field, hfield, hreads⟩ := hr.exists_field hpart
      obtain ⟨g, hg, hfinish⟩ := hreads.null rfl
      have hset : field.isSet d = false := by
        rw [hitems.isSet_eq hindependent.apart hfield, hreads.blank]
      refine makes_array hf' (hitems.append_item hfield hg) ?_
      rw [hfinish d hset, ha]
    | item hpart hvalue =>
      obtain ⟨d, hitems, ha⟩ := (hformal.makes_array_iff hf).1 h
      obtain ⟨field, hfield, hreads⟩ := hr.exists_field hpart
      refine makes_array hf' (hitems.replace hfield fun g hg => ?_) ha
      exact hreads.tolerates.makes hvalue ((valid_array_middle _).1 hf).2 hg

end Follows

end Record

/-! ### Documents -/

namespace Reader

open Form

variable {α : Type} {r : Reader α} {schema : Schema} {f f' : Form} {a : α}

/-- Any number of edits makes no difference. -/
lemma Tolerates.makes_of_reflTransGen (hr : r.Tolerates schema)
    (hedits : Relation.ReflTransGen (Edits schema) f f') (hf : f.Valid) (h : r.Makes f a) :
    f'.Valid ∧ r.Makes f' a := by
  induction hedits with
  | refl => exact ⟨hf, h⟩
  | tail _ hedit ih => exact ⟨hedit.valid ih.1, hr.makes hedit ih.1 ih.2⟩

lemma Makes.parse (h : r.Makes f a) (hf : f.Valid) {text : String} (htext : f.Written text.toList) :
    r.parse text = .ok a := by
  have hrun := h.2 _ (htext.hasLexemes hf) []
  rw [List.append_nil] at hrun
  simp only [Reader.parse, hrun, atEnd]

lemma Formal.makes_of_parse (hr : r.Formal) (hf : f.Valid) {text : String}
    (htext : f.Written text.toList) (h : r.parse text = .ok a) : r.Makes f a := by
  rw [Reader.parse] at h
  split at h
  · cases h
  · rename_i a' us hrun
    split at h
    · cases h
    · cases h
      rw [← List.append_nil (lexemes text.toList)] at hrun
      exact hr hf (htext.hasLexemes hf) hrun

/-- A document that is edited any number of times, and written with any spaces, is read alike. -/
theorem Tolerates.parse_of_edits (hr : r.Tolerates schema) (hf : f.Valid) {text text' : String}
    (htext : f.Written text.toList) (hedits : Relation.ReflTransGen (Edits schema) f f')
    (htext' : f'.Written text'.toList) (h : r.parse text = .ok a) : r.parse text' = .ok a := by
  obtain ⟨hf', ha⟩ :=
    hr.makes_of_reflTransGen hedits hf (hr.formal.makes_of_parse hf htext h)
  exact ha.parse hf' htext'

end Reader

end ByteStore.Json
