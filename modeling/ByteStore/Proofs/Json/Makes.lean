import ByteStore.Proofs.Json.Record
import ByteStore.Proofs.Json.Skip

/-!
# Reading forms

The readers of locations depend on forms only: what such a reader makes of one text it makes of
every text of the same form (`Reader.Formal`), so one can speak of what it makes of a form
(`Reader.Makes`). A record is made of the members of an object if they can be entered one after the
other under the names that their keys spell (`Formal.makes_object_iff`), and of the items of an
array if they can be entered into its fields in order (`Formal.makes_array_iff`).
-/

namespace ByteStore.Json

open Form

/-! ### Simple readers -/

namespace Reader

variable {α β : Type} {r : Reader α} {f : Form} {a : α} {ls rest us : List Lexeme}

/-- What a reader makes of a form, whichever lexemes stand for it. -/
def Makes (r : Reader α) (f : Form) (a : α) : Prop :=
  (∃ ls, f.HasLexemes ls) ∧ ∀ ls, f.HasLexemes ls → ∀ rest, r.run (ls ++ rest) = .ok (a, rest)

/-- Whether a reader that makes something of some lexemes makes the same of all that stand alike. -/
def Formal (r : Reader α) : Prop :=
  ∀ ⦃f : Form⦄ ⦃ls rest us : List Lexeme⦄ ⦃a : α⦄, f.Valid → f.HasLexemes ls →
    r.run (ls ++ rest) = .ok (a, us) → r.Makes f a

lemma exists_hasLexemes (hf : f.Valid) : ∃ ls, f.HasLexemes ls :=
  ⟨_, (written_spread [] (List.forall_mem_nil _) f).hasLexemes hf⟩

lemma Makes.rest_eq (h : r.Makes f a) (hls : f.HasLexemes ls) {b : α}
    (hrun : r.run (ls ++ rest) = .ok (b, us)) : us = rest := by
  rw [h.2 ls hls rest] at hrun
  cases hrun
  rfl

lemma Makes.reads (h : r.Makes f a) (hls : f.HasLexemes ls) :
    r.Reads (ls.map Lexeme.token) a :=
  fun ls' rest hls' => h.2 ls' (forall₂_stands_congr hls hls') rest

lemma Makes.map (g : α → β) (h : r.Makes f a) : (r.map g).Makes f (g a) := by
  refine ⟨h.1, fun ls hls rest => ?_⟩
  simp only [Reader.map, h.2 ls hls rest]

lemma exists_of_run_map {g : α → β} {b : β} (h : (r.map g).run ls = .ok (b, us)) :
    ∃ a, r.run ls = .ok (a, us) ∧ b = g a := by
  simp only [Reader.map] at h
  split at h
  · rename_i a us' hrun
    cases h
    exact ⟨a, hrun, rfl⟩
  · cases h

lemma exists_of_makes_map (g : α → β) {r : Reader α} {f : Form} {b : β}
    (h : (g <$> r).Makes f b) : ∃ a, b = g a := by
  obtain ⟨⟨ls, hls⟩, hmakes⟩ := h
  obtain ⟨a, -, ha⟩ := exists_of_run_map (hmakes ls hls [])
  exact ⟨a, ha⟩

lemma Formal.exists_of_map (hr : r.Formal) (hf : f.Valid) {g : α → β} {b : β}
    (h : (r.map g).Makes f b) : ∃ a, r.Makes f a ∧ b = g a := by
  obtain ⟨⟨ls, hls⟩, hmakes⟩ := h
  obtain ⟨a, hrun, ha⟩ := exists_of_run_map (hmakes ls hls [])
  exact ⟨a, hr hf hls hrun, ha⟩

lemma Formal.map (g : α → β) (hr : r.Formal) : (r.map g).Formal := by
  intro f ls rest us b hf hls hrun
  obtain ⟨a, ha, rfl⟩ := exists_of_run_map hrun
  exact (hr hf hls ha).map g

/-- A string is made of what spells it. -/
lemma formal_string : string.Formal := by
  intro f ls rest us s hf hls hrun
  cases f with
  | string body =>
    obtain ⟨l, rfl, read, hl, hread⟩ := hls.exists_string
    cases read with
    | error e => simp [string, stringWith, hl] at hrun
    | ok s' =>
      simp only [string, stringWith, List.singleton_append, hl] at hrun
      cases hrun
      refine ⟨⟨_, hls⟩, fun ls' hls' rest' => ?_⟩
      obtain ⟨l', rfl, read', hl', hread'⟩ := hls'.exists_string
      obtain rfl := (hread' s).2 ((hread s).1 rfl)
      simp only [string, stringWith, List.singleton_append, hl']
  | atom text =>
    obtain ⟨l, rfl, read, hl, -⟩ := hls.exists_atom
    simp [string, stringWith, hl] at hrun
  | array items =>
    obtain ⟨l, ls, rfl, hl, -⟩ := hls.exists_array
    simp [string, stringWith, hl] at hrun
  | object ms =>
    obtain ⟨l, ls, rfl, hl, -⟩ := hls.exists_object
    simp [string, stringWith, hl] at hrun

/-- Everything that keeps to the grammar is skipped. -/
lemma makes_skip (hf : f.Valid) : skip.Makes f () :=
  ⟨exists_hasLexemes hf, fun _ hls rest => run_skip_of_valid hf hls rest⟩

lemma formal_skip : skip.Formal := by
  intro f ls rest us u hf _ _
  exact makes_skip hf

/-! ### Null -/

lemma makes_nullable_null : r.nullable.Makes null none := by
  refine ⟨exists_hasLexemes valid_null, fun ls hls rest => ?_⟩
  obtain ⟨l, rfl, read, hl, hread⟩ := hls.exists_atom
  rw [hread.2 rfl] at hl
  simp only [nullable, List.singleton_append, hl]

/-- What is no null is read as it would be otherwise. -/
lemma run_nullable (hf : f ≠ null) (hls : f.HasLexemes ls) (rest : List Lexeme) :
    r.nullable.run (ls ++ rest) = (r.map some).run (ls ++ rest) := by
  cases f with
  | string body =>
    obtain ⟨l, rfl, read, hl, -⟩ := hls.exists_string
    simp only [nullable, List.singleton_append, hl]
  | atom text =>
    obtain ⟨l, rfl, read, hl, hread⟩ := hls.exists_atom
    have hnull : read ≠ .ok .null := fun h => hf (by rw [null, hread.1 h])
    rcases read with e | _ | b | n
    · simp only [nullable, List.singleton_append, hl]
    · exact absurd rfl hnull
    · simp only [nullable, List.singleton_append, hl]
    · simp only [nullable, List.singleton_append, hl]
  | array items =>
    obtain ⟨l, ls, rfl, hl, -⟩ := hls.exists_array
    simp only [nullable, List.cons_append, hl]
  | object ms =>
    obtain ⟨l, ls, rfl, hl, -⟩ := hls.exists_object
    simp only [nullable, List.cons_append, hl]

lemma makes_nullable_iff (hf : f ≠ null) {b : Option α} :
    r.nullable.Makes f b ↔ (r.map some).Makes f b := by
  refine and_congr_right fun _ => forall₂_congr fun ls hls => forall_congr' fun rest => ?_
  rw [run_nullable hf hls]

lemma Formal.nullable (hr : r.Formal) : r.nullable.Formal := by
  intro f ls rest us b hf hls hrun
  by_cases hnull : f = null
  · subst hnull
    have hnone := (makes_nullable_null (r := r)).2 ls hls rest
    rw [hnone] at hrun
    cases hrun
    exact makes_nullable_null
  · rw [run_nullable hnull hls] at hrun
    exact (makes_nullable_iff hnull).2 (hr.map some hf hls hrun)

end Reader

/-! ### Objects -/

namespace Form

/-- The names that the keys of members spell, with the values of the members. -/
def Named (ms : List (List Char × Form)) (rows : List (String × Form)) : Prop :=
  ms.Forall₂ (fun m row => Quoted.Spells row.1.toList m.1 ∧ row.2 = m.2) rows

/-- The tokens that stand for the values of members. -/
def HasRows (rows : List (String × Form)) (tokens : List (String × List Token)) : Prop :=
  rows.Forall₂ (fun row t => t.1 = row.1 ∧ ∃ ls, row.2.HasLexemes ls ∧ ls.map Lexeme.token = t.2)
    tokens

variable {ms : List (List Char × Form)} {rows : List (String × Form)} {ls : List Lexeme}

/-- A key that spells a name is read as that name. -/
lemma token_of_spells {name : String} {key : List Char} {k : Lexeme}
    (hname : Quoted.Spells name.toList key) (hk : (Symbol.string key).Stands k) :
    k.token = .text name := by
  obtain ⟨read, hk, hread⟩ := hk
  rw [hk, (hread name).2 hname, Token.text]

lemma Named.exists_moreTokens (hnamed : Named ms rows)
    (hls : (moreMemberSymbols ms).Forall₂ Symbol.Stands ls) :
    ∃ tokens, HasRows rows tokens ∧ ls.map Lexeme.token = moreTokens tokens := by
  induction hnamed generalizing ls with
  | nil =>
    obtain ⟨l, rfl, hl⟩ := exists_of_forall₂_singleton hls
    exact ⟨[], .nil, congrArg (· :: []) hl⟩
  | @cons m row ms rows hrow _ ih =>
    obtain ⟨key, f⟩ := m
    obtain ⟨name, _⟩ := row
    obtain ⟨hname, rfl⟩ := hrow
    rw [moreMemberSymbols] at hls
    obtain ⟨l, ls, hl, htail, rfl⟩ := List.forall₂_cons_left_iff.1 hls
    obtain ⟨k, c, us, vs, rfl, hk, hc, hus, hvs⟩ := exists_of_member htail
    obtain ⟨tokens, hrows, hvs⟩ := ih hvs
    refine ⟨(name, us.map Lexeme.token) :: tokens, .cons ⟨rfl, us, hus, rfl⟩ hrows, ?_⟩
    have hl : l.token = .comma := hl
    simp only [List.map_cons, List.map_append, hl, token_of_spells hname hk, hc, hvs, moreTokens]

lemma Named.exists_memberTokens (hnamed : Named ms rows)
    (hls : (memberSymbols ms).Forall₂ Symbol.Stands ls) :
    ∃ tokens, HasRows rows tokens ∧ ls.map Lexeme.token = memberTokens tokens := by
  cases hnamed with
  | nil =>
    obtain ⟨l, rfl, hl⟩ := exists_of_forall₂_singleton hls
    exact ⟨[], .nil, congrArg (· :: []) hl⟩
  | @cons m row ms rows hrow hnamed =>
    obtain ⟨key, f⟩ := m
    obtain ⟨name, _⟩ := row
    obtain ⟨hname, rfl⟩ := hrow
    rw [memberSymbols] at hls
    obtain ⟨k, c, us, vs, rfl, hk, hc, hus, hvs⟩ := exists_of_member hls
    obtain ⟨tokens, hrows, hvs⟩ := Named.exists_moreTokens hnamed hvs
    refine ⟨(name, us.map Lexeme.token) :: tokens, .cons ⟨rfl, us, hus, rfl⟩ hrows, ?_⟩
    simp only [List.map_cons, List.map_append, token_of_spells hname hk, hc, hvs, memberTokens]

end Form

namespace Record

variable {δ α : Type} {r : Record Reader δ α} {d d' d₁ : δ} {a : α} {name : String} {f : Form}
  {ms : List (List Char × Form)} {rows : List (String × Form)} {l : Lexeme}
  {ls us vs rest : List Lexeme} {c : Closing}

/-- Whether the readers of a record's parts depend on forms only. -/
structure Formal (r : Record Reader δ α) : Prop where
  field : ∀ f ∈ r.fields, f.enter.Formal
  other : ∀ name, (r.other name).Formal

lemma exists_of_memberValue {enter : Reader (δ → δ)} (henter : enter.Formal) (hf : f.Valid)
    (hl : l.token = .colon) (hus : f.HasLexemes us)
    (h : memberValue enter d (l :: (us ++ rest)) = .ok (d', vs)) :
    ∃ g, enter.Makes f g ∧ d' = g d ∧ vs = rest := by
  simp only [memberValue, afterColon, hl] at h
  split at h
  · cases h
  · rename_i g vs' hrun
    cases h
    have hg := henter hf hus hrun
    exact ⟨g, hg, rfl, hg.rest_eq hus hrun⟩

/-- A member that is read after its key is entered in front of others. -/
lemma Formal.enters_of_member (hr : r.Formal) (hf : f.Valid) (hl : l.token = .colon)
    (hus : f.HasLexemes us) (h : r.member d name (l :: (us ++ rest)) = .ok (d₁, vs)) :
    vs = rest ∧ ∀ rows d', r.Enters Reader.Makes d₁ rows d' →
      r.Enters Reader.Makes d ((name, f) :: rows) d' := by
  rw [member] at h
  split at h
  · rename_i field hfield
    split_ifs at h with hset
    have hformal := hr.field field (mem_of_field? hfield).1
    obtain ⟨g, hg, rfl, rfl⟩ := exists_of_memberValue hformal hf hl hus h
    exact ⟨rfl, fun rows d' => .field hfield (Bool.not_eq_true _ ▸ hset) hg⟩
  · rename_i hfield
    obtain ⟨g, hg, rfl, rfl⟩ := exists_of_memberValue (hr.other name) hf hl hus h
    exact ⟨rfl, fun rows d' => .other hfield hg⟩

lemma Formal.enters_of_moreMembers (hr : r.Formal) (hms : ∀ m ∈ ms, m.2.Valid)
    (hls : (moreMemberSymbols ms).Forall₂ Symbol.Stands ls)
    (h : r.moreMembers d (ls ++ rest) = .ok (d', c)) :
    ∃ rows, Named ms rows ∧ r.Enters Reader.Makes d rows d' := by
  induction ms generalizing d ls with
  | nil =>
    obtain ⟨l, rfl, hl⟩ := exists_of_forall₂_singleton hls
    have hl : l.token = .closeBrace := hl
    rw [moreMembers_eq] at h
    simp only [List.singleton_append, nextKey, hl] at h
    cases h
    exact ⟨[], .nil, .nil _⟩
  | cons m ms ih =>
    obtain ⟨key, f⟩ := m
    rw [List.forall_mem_cons] at hms
    rw [moreMemberSymbols] at hls
    obtain ⟨l, ls, hl, htail, rfl⟩ := List.forall₂_cons_left_iff.1 hls
    obtain ⟨k, c, us, vs, rfl, ⟨read, hk, hread⟩, hc, hus, hvs⟩ := exists_of_member htail
    have hl : l.token = .comma := hl
    rw [moreMembers_eq] at h
    simp only [List.cons_append, List.append_assoc, nextKey, hl, readKey, hk] at h
    cases read with
    | error e => cases h
    | ok name =>
      simp only at h
      split at h
      · cases h
      · rename_i d₁ ws hmember
        obtain ⟨rfl, henters⟩ := hr.enters_of_member hms.1 hc hus hmember
        obtain ⟨rows, hnamed, hrows⟩ := ih hms.2 hvs h
        exact ⟨(name, f) :: rows, .cons ⟨(hread name).1 rfl, rfl⟩ hnamed, henters _ _ hrows⟩

lemma Formal.enters_of_members (hr : r.Formal) (hms : ∀ m ∈ ms, m.2.Valid)
    (hls : (memberSymbols ms).Forall₂ Symbol.Stands ls)
    (h : r.members (ls ++ rest) = .ok (d, c)) :
    ∃ rows, Named ms rows ∧ r.Enters Reader.Makes r.blank rows d := by
  cases ms with
  | nil =>
    obtain ⟨l, rfl, hl⟩ := exists_of_forall₂_singleton hls
    have hl : l.token = .closeBrace := hl
    simp only [members, List.singleton_append, firstKey, hl] at h
    cases h
    exact ⟨[], .nil, .nil _⟩
  | cons m ms =>
    obtain ⟨key, f⟩ := m
    rw [List.forall_mem_cons] at hms
    rw [memberSymbols] at hls
    obtain ⟨k, c, us, vs, rfl, ⟨read, hk, hread⟩, hc, hus, hvs⟩ := exists_of_member hls
    simp only [members, List.cons_append, List.append_assoc, firstKey, readKey, hk] at h
    cases read with
    | error e => cases h
    | ok name =>
      simp only at h
      split at h
      · cases h
      · rename_i d₁ ws hmember
        obtain ⟨rfl, henters⟩ := hr.enters_of_member hms.1 hc hus hmember
        obtain ⟨rows, hnamed, hrows⟩ := hr.enters_of_moreMembers hms.2 hvs h
        exact ⟨(name, f) :: rows, .cons ⟨(hread name).1 rfl, rfl⟩ hnamed, henters _ _ hrows⟩

/-- What is made of the values of members is read off their tokens. -/
lemma Enters.reads_of_makes (h : r.Enters Reader.Makes d rows d')
    {tokens : List (String × List Token)} (hrows : HasRows rows tokens) :
    r.Enters Reader.Reads d tokens d' := by
  induction h generalizing tokens with
  | nil d =>
    cases hrows
    exact .nil d
  | field hfield hset hg _ ih =>
    obtain ⟨⟨_, _⟩, tokens, ⟨rfl, ls, hls, rfl⟩, htail, rfl⟩ := List.forall₂_cons_left_iff.1 hrows
    exact .field hfield hset (hg.reads hls) (ih htail)
  | other hfield hg _ ih =>
    obtain ⟨⟨_, _⟩, tokens, ⟨rfl, ls, hls, rfl⟩, htail, rfl⟩ := List.forall₂_cons_left_iff.1 hrows
    exact .other hfield (hg.reads hls) (ih htail)

/-- A record is made of the members of an object that can be entered. -/
lemma makes_object (hvalid : (Form.object ms).Valid) (hnamed : Named ms rows)
    (h : r.Enters Reader.Makes r.blank rows d) (ha : r.finish d = .ok a) :
    r.reader.Makes (.object ms) a := by
  refine ⟨Reader.exists_hasLexemes hvalid, fun ls hls rest => ?_⟩
  obtain ⟨l, ls, rfl, hl, hms⟩ := hls.exists_object
  obtain ⟨tokens, hrows, htokens⟩ := hnamed.exists_memberTokens hms
  refine reads_reader (h.reads_of_makes hrows) ha _ rest ?_
  rw [List.map_cons, hl, htokens, objectTokens]

/-! ### Arrays -/

/--
Whether items can be entered into a draft, one for each field in order. Fields at the end may be
left out.
-/
inductive Lists : δ → List (Field Reader δ) → List Form → δ → Prop
  | nil (d : δ) (fs : List (Field Reader δ)) : Lists d fs [] d
  | cons {d d' : δ} {field : Field Reader δ} {fs : List (Field Reader δ)} {f : Form}
      {items : List Form} {g : δ → δ} (hg : field.enter.Makes f g)
      (h : Lists (g d) fs items d') : Lists d (field :: fs) (f :: items) d'

variable {fs : List (Field Reader δ)} {items : List Form}

lemma nextItem_of_comma (hl : l.token = .comma) (hus : f.HasLexemes us) :
    nextItem (l :: (us ++ rest)) = .ok (.inr (us ++ rest)) := by
  obtain ⟨l', us, rfl, hl', -⟩ := hus.exists_cons
  simp only [nextItem, hl, List.cons_append]

lemma firstItem_of_hasLexemes (hus : f.HasLexemes us) :
    firstItem (us ++ rest) = .ok (.inr (us ++ rest)) := by
  obtain ⟨l', us, rfl, hl', -⟩ := hus.exists_cons
  simp only [firstItem, List.cons_append]

lemma exists_endOfItems_of_comma (hl : l.token = .comma) (hus : f.HasLexemes us)
    (rest : List Lexeme) : ∃ e, endOfItems (l :: (us ++ rest)) = .error e := by
  obtain ⟨l', us, rfl, hl', -⟩ := hus.exists_cons
  simp only [endOfItems, hl, List.cons_append]
  exact ⟨_, rfl⟩

lemma exists_endOfItems_of_hasLexemes (hus : f.HasLexemes us) (rest : List Lexeme) :
    ∃ e, endOfItems (us ++ rest) = .error e := by
  obtain ⟨l', us, rfl, hl', hcomma⟩ := hus.exists_cons
  simp only [endOfItems, List.cons_append]
  exact ⟨_, rfl⟩

lemma lists_of_moreItems (hfs : ∀ field ∈ fs, field.enter.Formal) (hitems : ∀ f ∈ items, f.Valid)
    (hls : (moreItemSymbols items).Forall₂ Symbol.Stands ls)
    (h : moreItems d fs (ls ++ rest) = .ok (d', c)) : Lists d fs items d' := by
  induction fs generalizing d items ls with
  | nil =>
    rw [moreItems] at h
    cases items with
    | nil =>
      obtain ⟨l, rfl, hl⟩ := exists_of_forall₂_singleton hls
      have hl : l.token = .closeBracket := hl
      simp only [List.singleton_append, endOfItems, hl] at h
      cases h
      exact .nil _ _
    | cons f items =>
      rw [moreItemSymbols] at hls
      obtain ⟨l, ls, hl, htail, rfl⟩ := List.forall₂_cons_left_iff.1 hls
      obtain ⟨us, vs, rfl, hus, -⟩ := exists_of_forall₂_append htail
      obtain ⟨e, he⟩ := exists_endOfItems_of_comma hl hus (vs ++ rest)
      rw [List.cons_append, List.append_assoc, he] at h
      cases h
  | cons field fs ih =>
    rw [List.forall_mem_cons] at hfs
    rw [moreItems] at h
    cases items with
    | nil =>
      obtain ⟨l, rfl, hl⟩ := exists_of_forall₂_singleton hls
      have hl : l.token = .closeBracket := hl
      simp only [List.singleton_append, nextItem, hl] at h
      cases h
      exact .nil _ _
    | cons f items =>
      rw [List.forall_mem_cons] at hitems
      rw [moreItemSymbols] at hls
      obtain ⟨l, ls, hl, htail, rfl⟩ := List.forall₂_cons_left_iff.1 hls
      obtain ⟨us, vs, rfl, hus, hvs⟩ := exists_of_forall₂_append htail
      simp only [List.cons_append, List.append_assoc, nextItem_of_comma hl hus] at h
      split at h
      · cases h
      · rename_i g ws hrun
        have hg := hfs.1 hitems.1 hus hrun
        obtain rfl := hg.rest_eq hus hrun
        exact .cons hg (ih hfs.2 hitems.2 hvs h)

lemma lists_of_items (hfs : ∀ field ∈ fs, field.enter.Formal) (hitems : ∀ f ∈ items, f.Valid)
    (hls : (itemSymbols items).Forall₂ Symbol.Stands ls)
    (h : Record.items d fs (ls ++ rest) = .ok (d', c)) : Lists d fs items d' := by
  cases items with
  | nil =>
    obtain ⟨l, rfl, hl⟩ := exists_of_forall₂_singleton hls
    have hl : l.token = .closeBracket := hl
    cases fs with
    | nil =>
      simp only [Record.items, List.singleton_append, endOfItems, hl] at h
      cases h
      exact .nil _ _
    | cons field fs =>
      simp only [Record.items, List.singleton_append, firstItem, hl] at h
      cases h
      exact .nil _ _
  | cons f items =>
    rw [List.forall_mem_cons] at hitems
    rw [itemSymbols] at hls
    obtain ⟨us, vs, rfl, hus, hvs⟩ := exists_of_forall₂_append hls
    cases fs with
    | nil =>
      obtain ⟨e, he⟩ := exists_endOfItems_of_hasLexemes hus (vs ++ rest)
      rw [Record.items, List.append_assoc, he] at h
      cases h
    | cons field fs =>
      rw [List.forall_mem_cons] at hfs
      simp only [Record.items, List.append_assoc, firstItem_of_hasLexemes hus] at h
      split at h
      · cases h
      · rename_i g ws hrun
        have hg := hfs.1 hitems.1 hus hrun
        obtain rfl := hg.rest_eq hus hrun
        exact .cons hg (lists_of_moreItems hfs.2 hitems.2 hvs h)

lemma Lists.exists_moreItems (h : Lists d fs items d')
    (hls : (moreItemSymbols items).Forall₂ Symbol.Stands ls) (rest : List Lexeme) :
    ∃ c, moreItems d fs (ls ++ rest) = .ok (d', c) ∧ c.rest = rest := by
  induction h generalizing ls with
  | nil d fs =>
    obtain ⟨l, rfl, hl⟩ := exists_of_forall₂_singleton hls
    have hl : l.token = .closeBracket := hl
    refine ⟨.ofLexeme l rest, ?_, rfl⟩
    cases fs with
    | nil =>
      simp only [moreItems, List.singleton_append, endOfItems, hl]
      rfl
    | cons field fs => simp only [moreItems, List.singleton_append, nextItem, hl]
  | cons hg _ ih =>
    rw [moreItemSymbols] at hls
    obtain ⟨l, ls, hl, htail, rfl⟩ := List.forall₂_cons_left_iff.1 hls
    obtain ⟨us, vs, rfl, hus, hvs⟩ := exists_of_forall₂_append htail
    simpa only [List.cons_append, List.append_assoc, moreItems, nextItem_of_comma hl hus,
      hg.2 us hus (vs ++ rest)] using ih hvs

lemma Lists.exists_items (h : Lists d fs items d')
    (hls : (itemSymbols items).Forall₂ Symbol.Stands ls) (rest : List Lexeme) :
    ∃ c, Record.items d fs (ls ++ rest) = .ok (d', c) ∧ c.rest = rest := by
  cases h with
  | nil d fs =>
    obtain ⟨l, rfl, hl⟩ := exists_of_forall₂_singleton hls
    have hl : l.token = .closeBracket := hl
    refine ⟨.ofLexeme l rest, ?_, rfl⟩
    cases fs with
    | nil =>
      simp only [Record.items, List.singleton_append, endOfItems, hl]
      rfl
    | cons field fs => simp only [Record.items, List.singleton_append, firstItem, hl]
  | cons hg h =>
    rw [itemSymbols] at hls
    obtain ⟨us, vs, rfl, hus, hvs⟩ := exists_of_forall₂_append hls
    simpa only [List.append_assoc, Record.items, firstItem_of_hasLexemes hus,
      hg.2 us hus (vs ++ rest)] using h.exists_moreItems hvs rest

/-- A record is made of the items of an array that can be entered. -/
lemma makes_array (hvalid : (Form.array items).Valid) (h : Lists r.blank r.fields items d)
    (ha : r.finish d = .ok a) : r.reader.Makes (.array items) a := by
  refine ⟨Reader.exists_hasLexemes hvalid, fun ls hls rest => ?_⟩
  obtain ⟨l, ls, rfl, hl, hitems⟩ := hls.exists_array
  obtain ⟨c, hc, hrest⟩ := h.exists_items hitems rest
  simp only [List.cons_append, reader, hl, hc, finishAt, ha, hrest]

/-! ### Records -/

lemma exists_of_finishAt {missing : String → Cause} (h : r.finishAt missing d c = .ok (a, us)) :
    r.finish d = .ok a := by
  rw [finishAt] at h
  split at h
  · cases h
    assumption
  · cases h

lemma Formal.exists_of_run_object (hr : r.Formal) (hvalid : (Form.object ms).Valid)
    (hls : (Form.object ms).HasLexemes ls) (h : r.reader.run (ls ++ rest) = .ok (a, us)) :
    ∃ rows d, Named ms rows ∧ r.Enters Reader.Makes r.blank rows d ∧ r.finish d = .ok a := by
  obtain ⟨l, ls, rfl, hl, hms⟩ := hls.exists_object
  simp only [List.cons_append, reader, hl] at h
  split at h
  · cases h
  · rename_i d c hmembers
    cases hvalid with
    | object _ hvalues =>
      obtain ⟨rows, hnamed, hrows⟩ := hr.enters_of_members hvalues hms hmembers
      exact ⟨rows, d, hnamed, hrows, exists_of_finishAt h⟩

lemma Formal.exists_of_run_array (hr : r.Formal) (hvalid : (Form.array items).Valid)
    (hls : (Form.array items).HasLexemes ls) (h : r.reader.run (ls ++ rest) = .ok (a, us)) :
    ∃ d, Lists r.blank r.fields items d ∧ r.finish d = .ok a := by
  obtain ⟨l, ls, rfl, hl, hitems⟩ := hls.exists_array
  simp only [List.cons_append, reader, hl] at h
  split at h
  · cases h
  · rename_i d c hrun
    cases hvalid with
    | array hvalues =>
      exact ⟨d, lists_of_items hr.field hvalues hitems hrun, exists_of_finishAt h⟩

/-- A record is made of the members of an object if and only if they can be entered. -/
theorem Formal.makes_object_iff (hr : r.Formal) (hvalid : (Form.object ms).Valid) :
    r.reader.Makes (.object ms) a ↔
      ∃ rows d, Named ms rows ∧ r.Enters Reader.Makes r.blank rows d ∧ r.finish d = .ok a := by
  constructor
  · rintro ⟨⟨ls, hls⟩, hmakes⟩
    exact hr.exists_of_run_object hvalid hls (hmakes ls hls [])
  · rintro ⟨rows, d, hnamed, hrows, ha⟩
    exact makes_object hvalid hnamed hrows ha

/-- A record is made of the items of an array if and only if they can be entered. -/
theorem Formal.makes_array_iff (hr : r.Formal) (hvalid : (Form.array items).Valid) :
    r.reader.Makes (.array items) a ↔
      ∃ d, Lists r.blank r.fields items d ∧ r.finish d = .ok a := by
  constructor
  · rintro ⟨⟨ls, hls⟩, hmakes⟩
    exact hr.exists_of_run_array hvalid hls (hmakes ls hls [])
  · rintro ⟨d, hitems, ha⟩
    exact makes_array hvalid hitems ha

/-- The reader of a record depends on forms only, if the readers of its parts do. -/
theorem Formal.reader (hr : r.Formal) : r.reader.Formal := by
  intro f ls rest us a hf hls hrun
  cases f with
  | string body =>
    obtain ⟨l, rfl, read, hl, -⟩ := hls.exists_string
    simp [Record.reader, hl] at hrun
  | atom text =>
    obtain ⟨l, rfl, read, hl, -⟩ := hls.exists_atom
    simp [Record.reader, hl] at hrun
  | array items =>
    obtain ⟨d, hitems, ha⟩ := hr.exists_of_run_array hf hls hrun
    exact makes_array hf hitems ha
  | object ms =>
    obtain ⟨rows, d, hnamed, hrows, ha⟩ := hr.exists_of_run_object hf hls hrun
    exact makes_object hf hnamed hrows ha

end Record

end ByteStore.Json
