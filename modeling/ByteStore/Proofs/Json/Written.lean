import ByteStore.Json.Value
import ByteStore.Proofs.Json.Spelling
import Mathlib.Tactic.Common

/-!
# Written values

A value that is made of strings and objects can be written in many ways: its strings may be spelled
differently, its members may stand in another order, and there may be spaces between tokens.
`Value.Written` says what the ways are. What `Value.render` writes is one of them
(`Textual.written_render`).
-/

namespace ByteStore.Json

/-! ### Tokens of objects -/

/-- The tokens of an object from the comma after a member on. -/
def moreTokens : List (String × List Token) → List Token
  | [] => [.closeBrace]
  | (key, tokens) :: ms => .comma :: .text key :: .colon :: (tokens ++ moreTokens ms)

/-- The tokens of an object from its first key on. -/
def memberTokens : List (String × List Token) → List Token
  | [] => [.closeBrace]
  | (key, tokens) :: ms => .text key :: .colon :: (tokens ++ moreTokens ms)

/-- The tokens of an object. -/
def objectTokens (ms : List (String × List Token)) : List Token := .openBrace :: memberTokens ms

lemma getLast?_moreTokens (ms : List (String × List Token)) :
    (moreTokens ms).getLast? = some .closeBrace := by
  induction ms with
  | nil => rfl
  | cons m ms ih =>
    obtain ⟨key, tokens⟩ := m
    simp [moreTokens, List.getLast?_cons, ih]

lemma getLast?_objectTokens (ms : List (String × List Token)) :
    (objectTokens ms).getLast? = some .closeBrace := by
  cases ms with
  | nil => rfl
  | cons m ms =>
    obtain ⟨key, tokens⟩ := m
    simp [objectTokens, memberTokens, List.getLast?_cons, getLast?_moreTokens]

/-- What is spelled from an opening brace on starts with one. -/
lemma Spelled.exists_eq_cons {tokens : List Token} {s : List Char}
    (h : Spelled (.openBrace :: tokens) s) : ∃ t, s = '\x7b' :: t := by
  cases h with
  | one h =>
    cases h
    exact ⟨_, rfl⟩
  | cons h _ _ =>
    cases h
    exact ⟨_, rfl⟩

/-- What is spelled up to a closing brace ends with one. -/
lemma Spelled.getLast?_eq {tokens : List Token} {s : List Char} (h : Spelled tokens s)
    (hlast : tokens.getLast? = some .closeBrace) : s.getLast? = some '\x7d' := by
  induction h with
  | one h =>
    cases hlast
    cases h
    rfl
  | @cons token t space u tokens h _ hu ih =>
    have hne : tokens ≠ [] := by
      rintro rfl
      cases hu
    rw [List.getLast?_cons_of_ne_nil hne] at hlast
    rw [List.getLast?_append, ih hlast]
    rfl

namespace Value

/-! ### Tokens of values -/

mutual

/-- The rows of tokens that stand for a value. The members of an object may come in any order. -/
inductive HasTokens : Value → List Token → Prop
  | string (s : String) : HasTokens (.string s) [.text s]
  | object {ms ms' : List (String × Value)} {rows : List (String × List Token)}
      (hperm : ms.Perm ms') (hrows : HasRows ms' rows) : HasTokens (.object ms) (objectTokens rows)

/-- The rows of tokens that stand for the values of members. -/
inductive HasRows : List (String × Value) → List (String × List Token) → Prop
  | nil : HasRows [] []
  | cons {key : String} {v : Value} {tokens : List Token} {ms : List (String × Value)}
      {rows : List (String × List Token)} (hv : HasTokens v tokens) (hms : HasRows ms rows) :
      HasRows ((key, v) :: ms) ((key, tokens) :: rows)

end

/-- The ways to write a value. -/
def Written (v : Value) (text : List Char) : Prop :=
  ∃ tokens, v.HasTokens tokens ∧ Spelled tokens text

/-- A value that is made of strings and objects. -/
inductive Textual : Value → Prop
  | string (s : String) : Textual (.string s)
  | object {ms : List (String × Value)} (hms : ∀ m ∈ ms, Textual m.2) : Textual (.object ms)

variable {ms ms' : List (String × Value)} {v : Value} {text : List Char}

lemma textual_nil : (Value.object []).Textual := .object (List.forall_mem_nil _)

lemma Textual.cons (h : (Value.object ms).Textual) (key : String) (hv : v.Textual) :
    (Value.object ((key, v) :: ms)).Textual := by
  cases h with
  | object hms => exact .object (List.forall_mem_cons.2 ⟨hv, hms⟩)

lemma Textual.perm (hperm : ms.Perm ms') (h : (Value.object ms).Textual) :
    (Value.object ms').Textual := by
  cases h with
  | object hms => exact .object fun m hm => hms m (hperm.symm.subset hm)

/-- The order of members makes no difference. -/
theorem Written.perm (hperm : ms.Perm ms') (h : (object ms).Written text) :
    (object ms').Written text := by
  obtain ⟨tokens, htokens, hspelled⟩ := h
  cases htokens with
  | object hperm' hrows => exact ⟨_, .object (hperm.symm.trans hperm') hrows, hspelled⟩

/-! ### Writing -/

lemma spelled_quoted (s : String) : Spelled [.text s] (Quoted.render s) :=
  .one (.text (Quoted.spells_encode s.toList))

lemma spelled_member (key : String) {tokens ts : List Token} {t : List Char}
    (hv : Spelled tokens v.render) (ht : Spelled ts t) :
    Spelled (.text key :: .colon :: (tokens ++ ts))
      (Quoted.render key ++ ':' :: v.render ++ t) := by
  have hcolon : Spelled [.colon] [':'] := .one .colon
  have h := (spelled_quoted key).append (hcolon.append (hv.append ht))
  simpa using h

/-- Members whose values can be written are written one after the other, up to the closing brace. -/
lemma exists_rows {key : String} (hms : ∀ m ∈ (key, v) :: ms,
      ∃ tokens, m.2.HasTokens tokens ∧ Spelled tokens m.2.render) :
    ∃ tokens rows, HasRows ((key, v) :: ms) ((key, tokens) :: rows) ∧
      Spelled (.text key :: .colon :: (tokens ++ moreTokens rows))
        (renderMembers ((key, v) :: ms) ++ ['\x7d']) := by
  induction ms generalizing key v with
  | nil =>
    obtain ⟨tokens, htokens, hv⟩ := hms _ List.mem_cons_self
    exact ⟨tokens, [], .cons htokens .nil, spelled_member key hv (.one .closeBrace)⟩
  | cons m ms ih =>
    obtain ⟨key', w⟩ := m
    obtain ⟨tokens, htokens, hv⟩ := hms _ List.mem_cons_self
    obtain ⟨tokens', rows, hrows, hspelled⟩ := ih fun m hm => hms m (List.mem_cons_of_mem _ hm)
    have hcomma : Spelled [.comma] [','] := .one .comma
    refine ⟨tokens, (key', tokens') :: rows, .cons htokens hrows, ?_⟩
    have h := spelled_member key hv (hcomma.append hspelled)
    simpa [renderMembers, moreTokens] using h

/-- What is written for a value that is made of strings and objects is one way to write it. -/
theorem Textual.written_render (hv : v.Textual) : v.Written v.render := by
  induction hv with
  | string s => exact ⟨_, .string s, spelled_quoted s⟩
  | @object ms _ ih =>
    have hopen : Spelled [.openBrace] ['\x7b'] := .one .openBrace
    cases ms with
    | nil => exact ⟨_, .object .nil .nil, hopen.append (.one .closeBrace)⟩
    | cons m ms =>
      obtain ⟨key, v⟩ := m
      obtain ⟨tokens, rows, hrows, hspelled⟩ := exists_rows ih
      exact ⟨_, .object (.refl _) hrows, hopen.append hspelled⟩

/-! ### The ends of a text -/

/-- What is written for an object starts and ends with its braces. -/
lemma Written.exists_braces (h : (object ms).Written text) :
    (∃ t, text = '\x7b' :: t) ∧ text.getLast? = some '\x7d' := by
  obtain ⟨tokens, htokens, hspelled⟩ := h
  cases htokens with
  | @object _ _ rows =>
    exact ⟨hspelled.exists_eq_cons, hspelled.getLast?_eq (getLast?_objectTokens rows)⟩

end Value

end ByteStore.Json
