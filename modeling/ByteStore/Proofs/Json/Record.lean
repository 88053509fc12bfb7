import ByteStore.Json.Record
import ByteStore.Proofs.Json.Written
import Mathlib.Data.List.Forall2
import Mathlib.Data.List.Pairwise
import Mathlib.Tactic.MkIffOfInductiveProp

/-!
# Reading records

A record takes in the members of an object one after the other (`Record.Enters`), be they read off
the lexemes of a document or taken out of a value that has been kept. If its fields keep out of each
other's way (`Record.Independent`), the order of the members makes no difference (`Enters.perm`).
They do so wherever they set different parts of a draft (`independent_of_maps`).

What a reader makes of lexemes depends on their tokens and on nothing else: `Reader.Reads` says what
it makes of a row of tokens, and `reads_reader` says it of records. So it makes the same of a value
in whatever way that is written (`Reader.Gives`), and a record is read off its members
(`gives_reader`).
-/

namespace ByteStore.Json

/-! ### Entering members -/

namespace Record

variable {ρ : Type → Type} {δ α π : Type} {r : Record ρ δ α}
  {gives : ρ (δ → δ) → π → (δ → δ) → Prop} {d d' d'' : δ} {ms ms' : List (String × π)}

/--
Whether members can be entered into a draft one after the other, where `gives` says what is read of
a member's value.
-/
inductive Enters (r : Record ρ δ α) (gives : ρ (δ → δ) → π → (δ → δ) → Prop) :
    δ → List (String × π) → δ → Prop
  | nil (d : δ) : r.Enters gives d [] d
  | field {d d' : δ} {name : String} {p : π} {ms : List (String × π)} {f : Field ρ δ} {g : δ → δ}
      (hf : r.field? name = some f) (hset : f.isSet d = false) (hg : gives f.enter p g)
      (h : r.Enters gives (g d) ms d') : r.Enters gives d ((name, p) :: ms) d'
  | other {d d' : δ} {name : String} {p : π} {ms : List (String × π)} {g : δ → δ}
      (hf : r.field? name = none) (hg : gives (r.other name) p g)
      (h : r.Enters gives (g d) ms d') : r.Enters gives d ((name, p) :: ms) d'

/-- Whether two fields set different parts of a draft. -/
structure Apart (gives : ρ (δ → δ) → π → (δ → δ) → Prop) (f f' : Field ρ δ) : Prop where
  isSet_left : ∀ p g, gives f'.enter p g → ∀ d, f.isSet (g d) = f.isSet d
  isSet_right : ∀ p g, gives f.enter p g → ∀ d, f'.isSet (g d) = f'.isSet d
  commute : ∀ p g p' g', gives f.enter p g → gives f'.enter p' g' → ∀ d, g (g' d) = g' (g d)

/-- Whether each field sets itself and nothing else, and other members set nothing. -/
structure Independent (r : Record ρ δ α) (gives : ρ (δ → δ) → π → (δ → δ) → Prop) : Prop where
  isSet_self : ∀ f ∈ r.fields, ∀ p g, gives f.enter p g → ∀ d, f.isSet (g d) = true
  apart : r.fields.Pairwise (Apart gives)
  other : ∀ name p g, gives (r.other name) p g → ∀ d, g d = d

instance : Std.Symm (Apart gives) where
  symm f f' h := by
    refine ⟨h.isSet_right, h.isSet_left, ?_⟩
    intro p g p' g' hg hg' d
    exact (h.commute p' g' p g hg' hg d).symm

lemma Independent.apart_of_ne (hr : r.Independent gives) {f f' : Field ρ δ} (hf : f ∈ r.fields)
    (hf' : f' ∈ r.fields) (hne : f.name ≠ f'.name) : Apart gives f f' :=
  hr.apart.forall hf hf' fun heq => hne (congrArg Field.name heq)

lemma mem_of_field? {name : String} {f : Field ρ δ} (hf : r.field? name = some f) :
    f ∈ r.fields ∧ f.name = name := by
  have hname := List.find?_some hf
  exact ⟨List.mem_of_find?_eq_some hf, beq_iff_eq.1 hname⟩

lemma Enters.append (h : r.Enters gives d ms d') (h' : r.Enters gives d' ms' d'') :
    r.Enters gives d (ms ++ ms') d'' := by
  induction h with
  | nil d => exact h'
  | field hf hset hg _ ih => exact .field hf hset hg (ih h')
  | other hf hg _ ih => exact .other hf hg (ih h')

lemma Enters.swap (hr : r.Independent gives) {m n : String × π}
    (h : r.Enters gives d (m :: n :: ms) d') : r.Enters gives d (n :: m :: ms) d' := by
  cases h with
  | @field _ _ name p _ f g hf hset hg h =>
    obtain ⟨hmem, hname⟩ := mem_of_field? hf
    cases h with
    | @field _ _ name' p' _ f' g' hf' hset' hg' h =>
      obtain ⟨hmem', hname'⟩ := mem_of_field? hf'
      -- A field can be entered only once.
      have hne : f.name ≠ f'.name := by
        intro heq
        rw [← hname', ← heq, hname, hf] at hf'
        cases hf'
        rw [hr.isSet_self f hmem p g hg] at hset'
        cases hset'
      have hapart := hr.apart_of_ne hmem hmem' hne
      rw [hapart.isSet_right p g hg] at hset'
      refine .field hf' hset' hg' (.field hf ?_ hg ?_)
      · rw [hapart.isSet_left p' g' hg', hset]
      · rw [hapart.commute p g p' g' hg hg']
        exact h
    | @other _ _ name' p' _ g' hf' hg' h =>
      rw [hr.other name' p' g' hg'] at h
      refine .other hf' hg' ?_
      rw [hr.other name' p' g' hg']
      exact .field hf hset hg h
  | @other _ _ name p _ g hf hg h =>
    rw [hr.other name p g hg] at h
    have hother {d'' : δ} (h : r.Enters gives d'' ms d') :
        r.Enters gives d'' ((name, p) :: ms) d' := by
      refine .other hf hg ?_
      rwa [hr.other name p g hg]
    cases h with
    | field hf' hset' hg' h => exact .field hf' hset' hg' (hother h)
    | other hf' hg' h => exact .other hf' hg' (hother h)

/-- The order of members makes no difference. -/
theorem Enters.perm (hr : r.Independent gives) (hperm : ms.Perm ms')
    (h : r.Enters gives d ms d') : r.Enters gives d ms' d' := by
  induction hperm generalizing d with
  | nil => exact h
  | cons m _ ih =>
    cases h with
    | field hf hset hg h => exact .field hf hset hg (ih h)
    | other hf hg h => exact .other hf hg (ih h)
  | swap m n ms => exact h.swap hr
  | trans _ _ ih₁ ih₂ => exact ih₂ (ih₁ h)

end Record

/-! ### What is read -/

/-- What may be relied on, where `gives` says what a source reads off a value. -/
structure Source.Lawful {ρ : Type → Type} [Source ρ]
    (gives : ∀ {α : Type}, ρ α → Value → α → Prop) : Prop where
  map : ∀ {α β : Type} (f : α → β) {e : ρ α} {v : Value} {a : α}, gives e v a →
    gives (f <$> e) v (f a)
  exists_of_map : ∀ {α β : Type} (f : α → β) {e : ρ α} {v : Value} {b : β},
    gives (f <$> e) v b → ∃ a, b = f a
  string : ∀ s : String, gives Source.string (.string s) s
  nullable : ∀ {α : Type} {e : ρ α} {v : Value} {a : α}, v ≠ .null → gives e v a →
    gives (Source.nullable e) v (some a)

namespace Record

/-! ### Parts of a draft -/

/-- A part of a draft: what it holds, whether it is set, and how it is set. -/
structure Part (δ : Type) where
  Value : Type
  isSet : δ → Bool
  set : Value → δ → δ

variable {ρ : Type → Type} [Functor ρ] {δ α π : Type} {r : Record ρ δ α}
  {gives : ∀ {α : Type}, ρ α → π → α → Prop} {f f' : Field ρ δ} {p q : Part δ}

/-- Whether setting one of two parts leaves the other one as it is. -/
@[mk_iff]
structure Part.Apart (p q : Part δ) : Prop where
  isSet_left : ∀ b d, p.isSet (q.set b d) = p.isSet d
  isSet_right : ∀ a d, q.isSet (p.set a d) = q.isSet d
  commute : ∀ a b d, p.set a (q.set b d) = q.set b (p.set a d)

/-- Whether a field maps the value that it reads to a draft with a part set to it. -/
inductive Maps : Field ρ δ → Part δ → Prop
  | intro {β : Type} {isSet : δ → Bool} {set : β → δ → δ} (name : String) (e : ρ β)
      (hset : ∀ b d, isSet (set b d) = true) : Maps ⟨name, isSet, set <$> e⟩ ⟨β, isSet, set⟩

/-- Whether nothing but values of the function is read through a map. -/
def ReadsThrough (gives : ∀ {α : Type}, ρ α → π → α → Prop) : Prop :=
  ∀ {α β : Type} (f : α → β) {e : ρ α} {p : π} {b : β}, gives (f <$> e) p b → ∃ a, b = f a

lemma Maps.isSet_self (hmap : ReadsThrough gives) (hf : Maps f p) {v : π} {g : δ → δ}
    (hg : gives f.enter v g) (d : δ) : f.isSet (g d) = true := by
  obtain ⟨name, e, hset⟩ := hf
  obtain ⟨b, rfl⟩ := hmap _ hg
  exact hset b d

lemma Maps.apart (hmap : ReadsThrough gives) (hf : Maps f p) (hf' : Maps f' q)
    (hpq : p.Apart q) : Apart gives f f' := by
  obtain ⟨name, e, -⟩ := hf
  obtain ⟨name', e', -⟩ := hf'
  constructor
  · intro v g hg d
    obtain ⟨b, rfl⟩ := hmap _ hg
    exact hpq.isSet_left b d
  · intro v g hg d
    obtain ⟨a, rfl⟩ := hmap _ hg
    exact hpq.isSet_right a d
  · intro v g v' g' hg hg' d
    obtain ⟨a, rfl⟩ := hmap _ hg
    obtain ⟨b, rfl⟩ := hmap _ hg'
    exact hpq.commute a b d

/-- A record is independent if its fields map what they read to parts that are apart. -/
theorem independent_of_maps (hmap : ReadsThrough gives) {parts : List (Part δ)}
    (hfields : r.fields.Forall₂ Maps parts) (hparts : parts.Pairwise Part.Apart)
    (hother : ∀ name, ∃ e : ρ Unit, r.other name = (fun _ d => d) <$> e) :
    r.Independent gives where
  isSet_self f hf v g hg d := by
    obtain ⟨i, hi, rfl⟩ := List.mem_iff_getElem.1 hf
    exact (hfields.get hi (hfields.length_eq ▸ hi)).isSet_self hmap hg d
  apart := by
    rw [List.pairwise_iff_getElem] at hparts ⊢
    intro i j hi hj hij
    have hlength := hfields.length_eq
    have hapart := hparts i j (hlength ▸ hi) (hlength ▸ hj) hij
    exact (hfields.get hi (hlength ▸ hi)).apart hmap (hfields.get hj (hlength ▸ hj)) hapart
  other name v g hg d := by
    obtain ⟨e, he⟩ := hother name
    rw [he] at hg
    obtain ⟨u, rfl⟩ := hmap _ hg
    rfl

end Record

/-! ### Out of a kept value -/

/-- What a decoder takes out of a value. -/
def Decoder.Gives {α : Type} (e : Decoder α) (v : Value) (a : α) : Prop := e.run v = .ok a

lemma Decoder.lawful_gives : Source.Lawful Decoder.Gives where
  map f e v a h := by
    have hrun : e.run v = .ok a := h
    change (e.run v).map f = _
    rw [hrun]
    rfl
  exists_of_map f e v b h := by
    change (e.run v).map f = .ok b at h
    cases hrun : e.run v with
    | error c =>
      rw [hrun] at h
      cases h
    | ok a =>
      rw [hrun] at h
      cases h
      exact ⟨a, rfl⟩
  string s := rfl
  nullable {_ e v a} hnull h := by
    have hrun : e.run v = .ok a := h
    have hnullable : (Decoder.nullable e).run v = (e.run v).map some := by
      cases v with
      | null => exact absurd rfl hnull
      | _ => rfl
    change (Decoder.nullable e).run v = _
    rw [hnullable, hrun]
    rfl

lemma Record.Enters.foldlM {δ α : Type} {r : Record Decoder δ α} {d d' : δ}
    {ms : List (String × Value)} (h : r.Enters Decoder.Gives d ms d') :
    ms.foldlM r.enterMember d = .ok d' := by
  induction h with
  | nil d => rfl
  | field hf hset hg _ ih =>
    rw [List.foldlM_cons, enterMember]
    simp only [hf, hset, enterValue, Bool.false_eq_true, if_false]
    rw [hg]
    exact ih
  | other hf hg _ ih =>
    rw [List.foldlM_cons, enterMember]
    simp only [hf, enterValue]
    rw [hg]
    exact ih

/-- A record is taken out of its members. -/
theorem Record.Enters.ofParts_members {δ α : Type} {r : Record Decoder δ α} {d : δ} {a : α}
    {ms : List (String × Value)} (h : r.Enters Decoder.Gives r.blank ms d)
    (ha : r.finish d = .ok a) : r.ofParts (.members ms) = .ok a := by
  rw [ofParts, h.foldlM]
  change r.finishWith .missingField d = .ok a
  rw [finishWith, ha]

/-! ### Off the lexemes -/

namespace Reader

variable {α β : Type} {r : Reader α} {a : α} {tokens : List Token}

/-- What a reader makes of lexemes with these tokens, wherever they stand. -/
def Reads (r : Reader α) (tokens : List Token) (a : α) : Prop :=
  ∀ ls rest : List Lexeme, ls.map Lexeme.token = tokens → r.run (ls ++ rest) = .ok (a, rest)

lemma Reads.map (f : α → β) (h : r.Reads tokens a) : (r.map f).Reads tokens (f a) := by
  intro ls rest hls
  simp only [Reader.map, h ls rest hls]

lemma Reads.exists_of_map {f : α → β} {b : β} (h : (r.map f).Reads tokens b) : ∃ a, b = f a := by
  have hls : (tokens.map fun t => (⟨t, [], []⟩ : Lexeme)).map Lexeme.token = tokens := by
    rw [List.map_map]
    exact List.map_id tokens
  have hrun := h _ [] hls
  simp only [Reader.map] at hrun
  split at hrun
  · cases hrun
    exact ⟨_, rfl⟩
  · cases hrun

lemma reads_stringWith {expected s : String} {use : String → Except Cause α}
    (ha : use s = .ok a) : (stringWith expected use).Reads [.text s] a := by
  intro ls rest hls
  obtain ⟨l, rfl, hl⟩ := List.map_eq_singleton_iff.1 hls
  simp only [List.singleton_append, stringWith, hl, Token.text, ha]

lemma reads_string (s : String) : string.Reads [.text s] s := reads_stringWith rfl

/-- Where no null stands, something is read. -/
lemma Reads.nullable {v : Value} (hv : v.HasTokens tokens) (h : r.Reads tokens a) :
    r.nullable.Reads tokens (some a) := by
  intro ls rest hls
  have hrun := h.map some ls rest hls
  cases hv with
  | string s =>
    obtain ⟨l, rfl, hl⟩ := List.map_eq_singleton_iff.1 hls
    simp only [List.singleton_append, Reader.nullable, hl, Token.text] at hrun ⊢
    exact hrun
  | object =>
    obtain ⟨l, ls, rfl, hl, -⟩ := List.map_eq_cons_iff.1 hls
    simp only [List.cons_append, Reader.nullable, hl] at hrun ⊢
    exact hrun

/-- A string is kept as it is. -/
lemma reads_value (limit : Nat) (s : String) : (value limit).Reads [.text s] (.string s) := by
  intro ls rest hls
  obtain ⟨l, rfl, hl⟩ := List.map_eq_singleton_iff.1 hls
  simp only [List.singleton_append, value, Manner.run, Manner.step, Manner.start, hl, Token.text]
  rfl

/-- What a reader makes of a value, in whatever way it is written. -/
def Gives (r : Reader α) (v : Value) (a : α) : Prop :=
  (∃ tokens, v.HasTokens tokens) ∧ ∀ tokens, v.HasTokens tokens → r.Reads tokens a

lemma gives_string {r : Reader α} {s : String} (h : r.Reads [.text s] a) :
    r.Gives (.string s) a := by
  refine ⟨⟨_, .string s⟩, fun tokens htokens => ?_⟩
  cases htokens
  exact h

lemma lawful_gives : Source.Lawful Reader.Gives where
  map f _ _ _ h := ⟨h.1, fun tokens htokens => (h.2 tokens htokens).map f⟩
  exists_of_map f e v b h := by
    obtain ⟨⟨tokens, htokens⟩, hreads⟩ := h
    exact (hreads tokens htokens).exists_of_map
  string s := gives_string (reads_string s)
  nullable _ h := ⟨h.1, fun tokens htokens => (h.2 tokens htokens).nullable htokens⟩

end Reader

namespace Record

variable {δ α : Type} {r : Record Reader δ α} {d d' : δ} {a : α} {g : δ → δ}
  {rows : List (String × List Token)} {tokens : List Token} {name : String}

lemma memberValue_of_reads {enter : Reader (δ → δ)} (hg : enter.Reads tokens g) (d : δ)
    {ls : List Lexeme} (hls : ls.map Lexeme.token = .colon :: tokens) (rest : List Lexeme) :
    memberValue enter d (ls ++ rest) = .ok (g d, rest) := by
  obtain ⟨l, ls, rfl, hl, hls⟩ := List.map_eq_cons_iff.1 hls
  simp only [List.cons_append, memberValue, afterColon, hl, hg ls rest hls]

/-- The first of the members that are entered is read after its key. -/
lemma Enters.exists_member (h : r.Enters Reader.Reads d ((name, tokens) :: rows) d') :
    ∃ d₁, r.Enters Reader.Reads d₁ rows d' ∧ ∀ ls rest : List Lexeme,
      ls.map Lexeme.token = .colon :: tokens → r.member d name (ls ++ rest) = .ok (d₁, rest) := by
  cases h with
  | field hf hset hg h =>
    refine ⟨_, h, fun ls rest hls => ?_⟩
    simp only [member, hf, hset, Bool.false_eq_true, if_false]
    exact memberValue_of_reads hg d hls rest
  | other hf hg h =>
    refine ⟨_, h, fun ls rest hls => ?_⟩
    simp only [member, hf]
    exact memberValue_of_reads hg d hls rest

lemma moreMembers_eq (r : Record Reader δ α) (d : δ) (ts : List Lexeme) :
    r.moreMembers d ts = match nextKey ts with
      | .error f => .error f
      | .ok (.inl c) => .ok (d, c)
      | .ok (.inr (key, us)) =>
        match r.member d key us with
        | .error f => .error f
        | .ok (d', vs) => r.moreMembers d' vs := by
  rw [moreMembers]
  split <;> rename_i hk <;> simp only [hk]
  split <;> rename_i hm <;> simp only [hm]

lemma Enters.moreMembers (h : r.Enters Reader.Reads d rows d') {ls : List Lexeme}
    (hls : ls.map Lexeme.token = moreTokens rows) (rest : List Lexeme) :
    ∃ c, r.moreMembers d (ls ++ rest) = .ok (d', c) ∧ c.rest = rest := by
  induction rows generalizing d ls with
  | nil =>
    obtain ⟨l, rfl, hl⟩ := List.map_eq_singleton_iff.1 hls
    cases h
    refine ⟨.ofLexeme l rest, ?_, rfl⟩
    rw [moreMembers_eq]
    simp only [List.singleton_append, nextKey, hl]
  | cons row rows ih =>
    obtain ⟨name, tokens⟩ := row
    obtain ⟨d₁, h, hmember⟩ := h.exists_member
    rw [moreTokens, ← List.cons_append] at hls
    obtain ⟨l, ls, rfl, hl, hls⟩ := List.map_eq_cons_iff.1 hls
    obtain ⟨k, ls, rfl, hk, hls⟩ := List.map_eq_cons_iff.1 hls
    obtain ⟨us, vs, rfl, hus, hvs⟩ := List.map_eq_append_iff.1 hls
    obtain ⟨c, hc, hrest⟩ := ih h hvs
    refine ⟨c, ?_, hrest⟩
    rw [moreMembers_eq]
    simp only [List.cons_append, List.append_assoc, nextKey, hl, readKey, hk, Token.text,
      hmember us (vs ++ rest) hus, hc]

lemma Enters.members (h : r.Enters Reader.Reads r.blank rows d) {ls : List Lexeme}
    (hls : ls.map Lexeme.token = memberTokens rows) (rest : List Lexeme) :
    ∃ c, r.members (ls ++ rest) = .ok (d, c) ∧ c.rest = rest := by
  cases rows with
  | nil =>
    obtain ⟨l, rfl, hl⟩ := List.map_eq_singleton_iff.1 hls
    cases h
    refine ⟨.ofLexeme l rest, ?_, rfl⟩
    simp only [Record.members, List.singleton_append, firstKey, hl]
  | cons row rows =>
    obtain ⟨name, tokens⟩ := row
    obtain ⟨d₁, h, hmember⟩ := h.exists_member
    rw [memberTokens, ← List.cons_append] at hls
    obtain ⟨k, ls, rfl, hk, hls⟩ := List.map_eq_cons_iff.1 hls
    obtain ⟨us, vs, rfl, hus, hvs⟩ := List.map_eq_append_iff.1 hls
    obtain ⟨c, hc, hrest⟩ := h.moreMembers hvs rest
    refine ⟨c, ?_, hrest⟩
    simp only [Record.members, List.cons_append, List.append_assoc, firstKey, hk, readKey,
      Token.text, hmember us (vs ++ rest) hus, hc]

/-- A record is read off the tokens of its members. -/
theorem reads_reader (h : r.Enters Reader.Reads r.blank rows d) (ha : r.finish d = .ok a) :
    r.reader.Reads (objectTokens rows) a := by
  intro ls rest hls
  obtain ⟨l, ls, rfl, hl, hls⟩ := List.map_eq_cons_iff.1 hls
  obtain ⟨c, hc, hrest⟩ := h.members hls rest
  simp only [List.cons_append, reader, hl, hc, finishAt, ha, hrest]

lemma Enters.exists_rows {ms : List (String × Value)} (h : r.Enters Reader.Gives d ms d') :
    ∃ rows, Value.HasRows ms rows := by
  induction h with
  | nil d => exact ⟨[], .nil⟩
  | field _ _ hg _ ih | other _ hg _ ih =>
    obtain ⟨tokens, htokens⟩ := hg.1
    obtain ⟨rows, hrows⟩ := ih
    exact ⟨_, .cons htokens hrows⟩

lemma Enters.reads {ms : List (String × Value)} (h : r.Enters Reader.Gives d ms d')
    (hrows : Value.HasRows ms rows) : r.Enters Reader.Reads d rows d' := by
  induction h generalizing rows with
  | nil d =>
    cases hrows
    exact .nil d
  | field hf hset hg _ ih =>
    cases hrows with
    | cons hv hms => exact .field hf hset (hg.2 _ hv) (ih hms)
  | other hf hg _ ih =>
    cases hrows with
    | cons hv hms => exact .other hf (hg.2 _ hv) (ih hms)

/-- A record whose fields are independent is read off its members, however they are written. -/
theorem gives_reader {ms : List (String × Value)} (hr : r.Independent Reader.Gives)
    (h : r.Enters Reader.Gives r.blank ms d) (ha : r.finish d = .ok a) :
    r.reader.Gives (.object ms) a := by
  obtain ⟨rows, hrows⟩ := h.exists_rows
  refine ⟨⟨_, .object (List.Perm.refl ms) hrows⟩, fun tokens htokens => ?_⟩
  cases htokens with
  | object hperm hrows => exact reads_reader ((h.perm hr hperm).reads hrows) ha

end Record

/-- A document is read off the text of a value, in whatever way it is written. -/
theorem Reader.Gives.parse {α : Type} {r : Reader α} {v : Value} {a : α} (h : r.Gives v a)
    {text : List Char} (htext : v.Written text) : r.parse (String.ofList text) = .ok a := by
  obtain ⟨tokens, htokens, hspelled⟩ := htext
  have hrun := h.2 tokens htokens _ [] (tokens_of_spelled hspelled)
  rw [List.append_nil] at hrun
  simp only [Reader.parse, String.toList_ofList, hrun, atEnd]

end ByteStore.Json
