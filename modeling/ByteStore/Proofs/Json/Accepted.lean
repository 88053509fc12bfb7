import ByteStore.Proofs.Json.Makes
import ByteStore.Proofs.Json.Passed

/-!
# What is accepted keeps to the grammar

Readers take nothing but forms that keep to the grammar off a row of lexemes
(`Reader.Grammatical`), whether they skip values (`Reader.grammatical_skip`) or read records
(`Record.Grammatical.reader`). So a document that is read at all is a text of such a form
(`Reader.Grammatical.exists_form`).
-/

namespace ByteStore.Json

open Form

variable {tail : List Lexeme} {xs : List Symbol} {l : Lexeme} {ls us : List Lexeme}

/-! ### Readers -/

namespace Reader

variable {α β : Type} {r : Reader α}

/-- Whether a reader takes nothing but a value off any row. -/
def Grammatical (r : Reader α) : Prop :=
  ∀ ⦃tail : List Lexeme⦄ ⦃xs : List Symbol⦄ ⦃ls us : List Lexeme⦄ ⦃a : α⦄, Row tail xs ls →
    r.run ls = .ok (a, us) → Joined IsValue (fun zs => Row tail zs us) xs

lemma grammatical_skip : skip.Grammatical := fun _ _ _ _ _ hrow h => value_of_run_skip h hrow

lemma grammatical_string : string.Grammatical := by
  intro tail xs ls us s hrow h
  simp only [string, stringWith] at h
  split at h
  · split at h
    · rename_i hl
      cases h
      obtain ⟨body, xs', rfl, hbody, hrest⟩ := hrow.exists_of_string hl (.inl ⟨_, rfl⟩)
      exact ⟨_, xs', isValue_string hbody, hrest, rfl⟩
    · cases h
  · cases h

lemma Grammatical.map (g : α → β) (hr : r.Grammatical) : (r.map g).Grammatical := by
  intro tail xs ls us b hrow h
  obtain ⟨a, ha, -⟩ := exists_of_run_map h
  exact hr hrow ha

lemma Grammatical.nullable (hr : r.Grammatical) : r.nullable.Grammatical := by
  intro tail xs ls us b hrow h
  simp only [Reader.nullable] at h
  split at h
  · split at h
    · rename_i hl
      cases h
      obtain ⟨text, xs', rfl, htext, hrest⟩ := hrow.exists_of_atom hl (.inl ⟨_, rfl⟩)
      exact ⟨_, xs', isValue_atom htext, hrest, rfl⟩
    · exact hr.map some hrow h
  · exact hr.map some hrow h

/-- A document that is read is a text of a form that keeps to the grammar. -/
theorem Grammatical.exists_form (hr : r.Grammatical) {text : String} {a : α}
    (h : r.parse text = .ok a) : ∃ f : Form, f.Valid ∧ f.Written text.toList := by
  obtain ⟨tail, xs, hrow, hspaced⟩ := exists_row text.toList
  rw [Reader.parse] at h
  split at h
  · cases h
  · rename_i a' us hrun
    obtain ⟨-, zs, ⟨f, hf, rfl⟩, hrest, rfl⟩ := hr hrow hrun
    cases us with
    | nil =>
      cases hrest
      rw [List.append_nil] at hspaced
      exact ⟨f, hf, hspaced rfl⟩
    | cons l us => cases h

end Reader

/-! ### Records -/

namespace Record

variable {δ α : Type} {r : Record Reader δ α} {d d' : δ} {a : α} {c : Closing} {key : String}
  {fs : List (Field Reader δ)} {q : List Symbol → Prop}

/-- Whether the readers of a record's parts take nothing but values. -/
structure Grammatical (r : Record Reader δ α) : Prop where
  field : ∀ f ∈ r.fields, f.enter.Grammatical
  other : ∀ name, (r.other name).Grammatical

/-! #### Objects -/

lemma exists_of_readKey (h : readKey l = .ok key) (hrow : Row tail xs (l :: ls)) :
    ∃ body xs', xs = .string body :: xs' ∧ Quoted.Body body ∧ Row tail xs' ls := by
  rw [readKey] at h
  split at h
  · rename_i hl
    exact hrow.exists_of_string hl (.inl ⟨key, h⟩)
  · cases h
  · cases h

lemma exists_of_firstKey (h : firstKey ls = .ok (.inr (key, us))) (hrow : Row tail xs ls) :
    ∃ body xs', xs = .string body :: xs' ∧ Quoted.Body body ∧ Row tail xs' us := by
  cases ls with
  | nil => cases h
  | cons l ls =>
    simp only [firstKey] at h
    split at h
    · cases h
    · split at h
      · cases h
      · rename_i hkey
        cases h
        exact exists_of_readKey hkey hrow

lemma exists_of_firstKey_closing (h : firstKey ls = .ok (.inl c)) (hrow : Row tail xs ls) :
    ∃ xs', xs = .closeBrace :: xs' ∧ Row tail xs' c.rest := by
  cases ls with
  | nil => cases h
  | cons l ls =>
    simp only [firstKey] at h
    split at h
    · rename_i hl
      cases h
      exact hrow.exists_of_mark (y := .closeBrace) hl trivial
    · split at h <;> cases h

lemma exists_of_nextKey (h : nextKey ls = .ok (.inr (key, us))) (hrow : Row tail xs ls) :
    ∃ body xs', xs = .comma :: .string body :: xs' ∧ Quoted.Body body ∧ Row tail xs' us := by
  cases ls with
  | nil => cases h
  | cons l ls =>
    simp only [nextKey] at h
    split at h
    · cases h
    · rename_i hl
      obtain ⟨xs, rfl, hrest⟩ := hrow.exists_of_mark (y := .comma) hl trivial
      cases ls with
      | nil => cases h
      | cons l ls =>
        simp only at h
        split at h
        · cases h
        · rename_i hkey
          cases h
          obtain ⟨body, xs', rfl, hbody⟩ := exists_of_readKey hkey hrest
          exact ⟨body, xs', rfl, hbody⟩
    · cases h

lemma exists_of_nextKey_closing (h : nextKey ls = .ok (.inl c)) (hrow : Row tail xs ls) :
    ∃ xs', xs = .closeBrace :: xs' ∧ Row tail xs' c.rest := by
  cases ls with
  | nil => cases h
  | cons l ls =>
    simp only [nextKey] at h
    split at h
    · rename_i hl
      cases h
      exact hrow.exists_of_mark (y := .closeBrace) hl trivial
    · cases ls with
      | nil => cases h
      | cons l ls =>
        simp only at h
        split at h <;> cases h
    · cases h

lemma exists_colon_of_memberValue {enter : Reader (δ → δ)} (henter : enter.Grammatical)
    (h : memberValue enter d ls = .ok (d', us)) (hrow : Row tail xs ls) :
    ∃ xs', xs = .colon :: xs' ∧ Joined IsValue (fun zs => Row tail zs us) xs' := by
  cases ls with
  | nil => cases h
  | cons l ls =>
    simp only [memberValue, afterColon] at h
    split at h
    · cases h
    · rename_i hcolon
      split at hcolon
      · rename_i hl
        cases hcolon
        obtain ⟨xs', rfl, hrest⟩ := hrow.exists_of_mark (y := .colon) hl trivial
        split at h
        · cases h
        · rename_i hrun
          cases h
          exact ⟨xs', rfl, henter hrest hrun⟩
      · cases hcolon

/-- What comes after a key, if the members after its value keep to the grammar. -/
lemma Grammatical.isAfterKey (hr : r.Grammatical) (h : r.member d key ls = .ok (d', us))
    (hrow : Row tail xs ls)
    (hmore : ∀ zs, Row tail zs us → Joined IsMoreMembers q zs) : Joined IsAfterKey q xs := by
  obtain ⟨xs', rfl, hvalue⟩ :
      ∃ xs', xs = .colon :: xs' ∧ Joined IsValue (fun zs => Row tail zs us) xs' := by
    rw [member] at h
    split at h
    · rename_i field hfield
      split_ifs at h
      exact exists_colon_of_memberValue (hr.field field (mem_of_field? hfield).1) h hrow
    · exact exists_colon_of_memberValue (hr.other key) h hrow
  exact (hvalue.imp_right hmore).assoc.cons fun ys hys => ⟨ys, rfl, hys⟩

lemma Grammatical.isMoreMembers (hr : r.Grammatical) (h : r.moreMembers d ls = .ok (d', c))
    (hrow : Row tail xs ls) :
    Joined IsMoreMembers (fun zs => Row tail zs c.rest) xs := by
  fun_induction moreMembers r d ls generalizing xs with
  | case1 | case3 => cases h
  | case2 d ls c' hkey =>
    cases h
    obtain ⟨xs', rfl, hrest⟩ := exists_of_nextKey_closing hkey hrow
    exact ⟨_, xs', isMoreMembers_nil, hrest, rfl⟩
  | case4 d ls key us hkey d₁ vs hmember _ ih =>
    obtain ⟨body, xs', rfl, hbody, hrest⟩ := exists_of_nextKey hkey hrow
    refine Joined.cons (p := fun ys => IsMoreMembers (.comma :: ys)) ?_ fun _ => id
    exact (hr.isAfterKey hmember hrest fun _ => ih h).cons fun _ => isMoreMembers_cons hbody

lemma Grammatical.isMembers (hr : r.Grammatical) (h : r.members ls = .ok (d, c))
    (hrow : Row tail xs ls) : Joined IsMembers (fun zs => Row tail zs c.rest) xs := by
  rw [members] at h
  split at h
  · cases h
  · rename_i hkey
    cases h
    obtain ⟨xs', rfl, hrest⟩ := exists_of_firstKey_closing hkey hrow
    exact ⟨_, xs', isMembers_nil, hrest, rfl⟩
  · rename_i hkey
    obtain ⟨body, xs', rfl, hbody, hrest⟩ := exists_of_firstKey hkey hrow
    split at h
    · cases h
    · rename_i hmember
      exact (hr.isAfterKey hmember hrest fun _ => hr.isMoreMembers h).cons
        fun _ => isMembers_cons hbody

/-! #### Arrays -/

lemma eq_of_firstItem (h : firstItem ls = .ok (.inr us)) : us = ls := by
  cases ls with
  | nil => cases h
  | cons l ls =>
    simp only [firstItem] at h
    split at h <;> cases h
    rfl

lemma exists_of_firstItem_closing (h : firstItem ls = .ok (.inl c)) (hrow : Row tail xs ls) :
    ∃ xs', xs = .closeBracket :: xs' ∧ Row tail xs' c.rest := by
  cases ls with
  | nil => cases h
  | cons l ls =>
    simp only [firstItem] at h
    split at h
    · rename_i hl
      cases h
      exact hrow.exists_of_mark (y := .closeBracket) hl trivial
    · cases h

lemma exists_of_nextItem (h : nextItem ls = .ok (.inr us)) (hrow : Row tail xs ls) :
    ∃ xs', xs = .comma :: xs' ∧ Row tail xs' us := by
  cases ls with
  | nil => cases h
  | cons l ls =>
    simp only [nextItem] at h
    split at h
    · cases h
    · rename_i hl
      cases ls with
      | nil => cases h
      | cons l ls =>
        simp only at h
        split at h
        · cases h
        · cases h
          exact hrow.exists_of_mark (y := .comma) hl trivial
    · cases h

lemma exists_of_nextItem_closing (h : nextItem ls = .ok (.inl c)) (hrow : Row tail xs ls) :
    ∃ xs', xs = .closeBracket :: xs' ∧ Row tail xs' c.rest := by
  cases ls with
  | nil => cases h
  | cons l ls =>
    simp only [nextItem] at h
    split at h
    · rename_i hl
      cases h
      exact hrow.exists_of_mark (y := .closeBracket) hl trivial
    · cases ls with
      | nil => cases h
      | cons l ls =>
        simp only at h
        split at h <;> cases h
    · cases h

lemma exists_of_endOfItems (h : endOfItems ls = .ok c) (hrow : Row tail xs ls) :
    ∃ xs', xs = .closeBracket :: xs' ∧ Row tail xs' c.rest := by
  cases ls with
  | nil => cases h
  | cons l ls =>
    simp only [endOfItems] at h
    split at h
    · rename_i hl
      cases h
      exact hrow.exists_of_mark (y := .closeBracket) hl trivial
    · cases ls with
      | nil => cases h
      | cons l ls =>
        simp only at h
        split at h <;> cases h
    · cases h

lemma exists_of_map_endOfItems (h : (endOfItems ls).map (fun c => (d, c)) = .ok (d', c)) :
    endOfItems ls = .ok c := by
  cases hend : endOfItems ls with
  | error e =>
    rw [hend] at h
    cases h
  | ok c' =>
    rw [hend] at h
    cases h
    rfl

lemma isMoreItems_of_moreItems (hfs : ∀ field ∈ fs, field.enter.Grammatical)
    (h : moreItems d fs ls = .ok (d', c)) (hrow : Row tail xs ls) :
    Joined IsMoreItems (fun zs => Row tail zs c.rest) xs := by
  induction fs generalizing d ls xs with
  | nil =>
    obtain ⟨xs', rfl, hrest⟩ := exists_of_endOfItems (exists_of_map_endOfItems h) hrow
    exact ⟨_, xs', isMoreItems_nil, hrest, rfl⟩
  | cons field fs ih =>
    rw [List.forall_mem_cons] at hfs
    rw [moreItems] at h
    split at h
    · cases h
    · rename_i hitem
      cases h
      obtain ⟨xs', rfl, hrest⟩ := exists_of_nextItem_closing hitem hrow
      exact ⟨_, xs', isMoreItems_nil, hrest, rfl⟩
    · rename_i hitem
      obtain ⟨xs', rfl, hrest⟩ := exists_of_nextItem hitem hrow
      split at h
      · cases h
      · rename_i hrun
        exact ((hfs.1 hrest hrun).imp_right fun _ => ih hfs.2 h).assoc.cons
          fun _ => isMoreItems_of_joined

lemma isItems_of_items (hfs : ∀ field ∈ fs, field.enter.Grammatical)
    (h : Record.items d fs ls = .ok (d', c)) (hrow : Row tail xs ls) :
    Joined IsItems (fun zs => Row tail zs c.rest) xs := by
  cases fs with
  | nil =>
    obtain ⟨xs', rfl, hrest⟩ := exists_of_endOfItems (exists_of_map_endOfItems h) hrow
    exact ⟨_, xs', isItems_nil, hrest, rfl⟩
  | cons field fs =>
    rw [List.forall_mem_cons] at hfs
    rw [Record.items] at h
    split at h
    · cases h
    · rename_i hitem
      cases h
      obtain ⟨xs', rfl, hrest⟩ := exists_of_firstItem_closing hitem hrow
      exact ⟨_, xs', isItems_nil, hrest, rfl⟩
    · rename_i hitem
      obtain rfl := eq_of_firstItem hitem
      split at h
      · cases h
      · rename_i hrun
        exact ((hfs.1 hrow hrun).imp_right fun _ => isMoreItems_of_moreItems hfs.2 h).assoc.imp
          fun _ => isItems_of_joined

/-! #### Values -/

/-- Whatever is read as a record keeps to the grammar. -/
theorem Grammatical.reader (hr : r.Grammatical) : r.reader.Grammatical := by
  intro tail xs ls us a hrow h
  cases ls with
  | nil => cases h
  | cons l ls =>
    simp only [Record.reader] at h
    split at h
    · rename_i hl
      obtain ⟨xs', rfl, hrest⟩ := hrow.exists_of_mark (y := .openBrace) hl trivial
      split at h
      · cases h
      · rename_i hmembers
        rw [length_finishAt h]
        exact (hr.isMembers hmembers hrest).cons fun _ => IsMembers.isValue
    · rename_i hl
      obtain ⟨xs', rfl, hrest⟩ := hrow.exists_of_mark (y := .openBracket) hl trivial
      split at h
      · cases h
      · rename_i hitems
        rw [length_finishAt h]
        exact (isItems_of_items hr.field hitems hrest).cons fun _ => IsItems.isValue
    · cases h

end Record

end ByteStore.Json
