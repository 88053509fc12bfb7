import ByteStore.Json.Members
import ByteStore.Json.Value

/-!
# Records

A record is written as an object that names its fields, or as an array that lists them in order. The
fields of an object may come in any order and at most once each; the record says what becomes of
other members. An array may leave out fields at its end. A record is read straight off the lexemes
(`Record.reader`), or out of the parts of a value that has been kept (`Record.ofParts`).

The fields that have been read are collected in a draft.
-/

namespace ByteStore.Json

/-- What the shape of a record may ask of the place that its fields are read from. -/
class Source (ρ : Type → Type) extends Functor ρ where
  /-- Reads a string. -/
  string : ρ String
  /-- Reads nothing where a null stands. -/
  nullable {α : Type} : ρ α → ρ (Option α)
  /-- Passes a value of any kind. -/
  ignored : ρ Unit

instance : Source Reader where
  string := Reader.string
  nullable := Reader.nullable
  ignored := Reader.skip

/-- A field of a record: `ρ` says where its value is read from. -/
structure Field (ρ : Type → Type) (δ : Type) where
  name : String
  /-- Whether a draft has this field. -/
  isSet : δ → Bool
  /-- Reads a value and enters it into a draft. -/
  enter : ρ (δ → δ)

/-- The shape of a record with its drafts `δ` and its values `α`. -/
structure Record (ρ : Type → Type) (δ α : Type) where
  name : String
  /-- The draft without any field. -/
  blank : δ
  fields : List (Field ρ δ)
  /-- Enters a member that is no field. -/
  other : String → ρ (δ → δ)
  /-- The record of a draft, or the name of a field that must not be left out. -/
  finish : δ → Except String α

namespace Record

variable {ρ : Type → Type} {δ α : Type}

/-- The field with a name. -/
def field? (r : Record ρ δ α) (name : String) : Option (Field ρ δ) :=
  r.fields.find? fun f => f.name == name

/-! ### Wording -/

/-- A number of elements. -/
def elements (n : Nat) : String := if n = 1 then "1 element" else s!"{n} elements"

/-- What is expected where the record stands. -/
def expected (r : Record ρ δ α) : String := s!"struct {r.name}"

/-- The cause for a field missing from an array, which must have been longer. -/
def missingItem (r : Record ρ δ α) (name : String) : Cause :=
  .wrongLength (r.fields.findIdx fun f => f.name == name)
    s!"{r.expected} with {elements r.fields.length}"

/-! ### Off the lexemes -/

/-- The record at its end. -/
def finishAt (r : Record ρ δ α) (missing : String → Cause) (draft : δ) (c : Closing) :
    Except Fault (α × List Lexeme) :=
  match r.finish draft with
  | .ok a => .ok (a, c.rest)
  | .error name => .error ⟨missing name, c.place⟩

/-- Reads the value of a member after its key. -/
def memberValue (enter : Reader (δ → δ)) (draft : δ) (ts : List Lexeme) :
    Except Fault (δ × List Lexeme) :=
  match afterColon ts with
  | .error e => .error e
  | .ok us =>
    match enter.run us with
    | .error e => .error e
    | .ok (f, vs) => .ok (f draft, vs)

/-- Reads a member after its key. -/
def member (r : Record Reader δ α) (draft : δ) (key : String) (ts : List Lexeme) :
    Except Fault (δ × List Lexeme) :=
  match r.field? key with
  | some f =>
    if f.isSet draft then .error ⟨.repeatedField key, placeAtBrace ts⟩
    else memberValue f.enter draft ts
  | none => memberValue (r.other key) draft ts

theorem length_memberValue {enter : Reader (δ → δ)} {draft draft' : δ} {ts us : List Lexeme}
    (h : memberValue enter draft ts = .ok (draft', us)) : us.length < ts.length := by
  unfold memberValue at h
  split at h
  · simp at h
  · rename_i hc
    split at h
    · simp at h
    · rename_i hr
      simp only [Except.ok.injEq, Prod.mk.injEq] at h
      exact h.2 ▸ Nat.lt_trans (Reader.takes _ hr) (length_afterColon hc)

theorem length_member {r : Record Reader δ α} {draft draft' : δ} {key : String}
    {ts us : List Lexeme} (h : r.member draft key ts = .ok (draft', us)) :
    us.length < ts.length := by
  unfold member at h
  split at h
  · split at h
    · simp at h
    · exact length_memberValue h
  · exact length_memberValue h

/-- Reads the members of an object that come after another member. -/
def moreMembers (r : Record Reader δ α) (draft : δ) (ts : List Lexeme) :
    Except Fault (δ × Closing) :=
  match hk : nextKey ts with
  | .error f => .error f
  | .ok (.inl c) => .ok (draft, c)
  | .ok (.inr (key, us)) =>
    match hm : r.member draft key us with
    | .error f => .error f
    | .ok (draft', vs) =>
      have := Nat.lt_trans (length_member hm) (length_nextKey hk)
      r.moreMembers draft' vs
termination_by ts.length
decreasing_by exact this

/-- Reads the members of an object. -/
def members (r : Record Reader δ α) (ts : List Lexeme) : Except Fault (δ × Closing) :=
  match firstKey ts with
  | .error f => .error f
  | .ok (.inl c) => .ok (r.blank, c)
  | .ok (.inr (key, us)) =>
    match r.member r.blank key us with
    | .error f => .error f
    | .ok (draft, vs) => r.moreMembers draft vs

/-- Reads the items of an array that come after another item. -/
def moreItems (draft : δ) : List (Field Reader δ) → List Lexeme → Except Fault (δ × Closing)
  | [], ts => (endOfItems ts).map fun c => (draft, c)
  | f :: fs, ts =>
    match nextItem ts with
    | .error e => .error e
    | .ok (.inl c) => .ok (draft, c)
    | .ok (.inr us) =>
      match f.enter.run us with
      | .error e => .error e
      | .ok (enter, vs) => moreItems (enter draft) fs vs

/-- Reads the items of an array. -/
def items (draft : δ) : List (Field Reader δ) → List Lexeme → Except Fault (δ × Closing)
  | [], ts => (endOfItems ts).map fun c => (draft, c)
  | f :: fs, ts =>
    match firstItem ts with
    | .error e => .error e
    | .ok (.inl c) => .ok (draft, c)
    | .ok (.inr us) =>
      match f.enter.run us with
      | .error e => .error e
      | .ok (enter, vs) => moreItems (enter draft) fs vs

theorem length_moreMembers {r : Record Reader δ α} {draft draft' : δ} {ts : List Lexeme}
    {c : Closing} (h : r.moreMembers draft ts = .ok (draft', c)) :
    c.rest.length < ts.length := by
  fun_induction moreMembers r draft ts with
  | case1 => simp at h
  | case2 draft ts c' hk =>
    simp only [Except.ok.injEq, Prod.mk.injEq] at h
    exact h.2 ▸ length_nextKey_closing hk
  | case3 => simp at h
  | case4 draft ts key us hk draft' vs hm this ih => exact Nat.lt_trans (ih h) this

theorem length_members {r : Record Reader δ α} {draft : δ} {ts : List Lexeme} {c : Closing}
    (h : r.members ts = .ok (draft, c)) : c.rest.length < ts.length := by
  unfold members at h
  split at h
  · simp at h
  · rename_i hk
    simp only [Except.ok.injEq, Prod.mk.injEq] at h
    exact h.2 ▸ length_firstKey_closing hk
  · rename_i hk
    split at h
    · simp at h
    · rename_i hm
      exact Nat.lt_trans (length_moreMembers h)
        (Nat.lt_trans (length_member hm) (length_firstKey hk))

theorem length_moreItems {draft draft' : δ} {fs : List (Field Reader δ)} {ts : List Lexeme}
    {c : Closing} (h : moreItems draft fs ts = .ok (draft', c)) : c.rest.length < ts.length := by
  induction fs generalizing draft ts with
  | nil =>
    unfold moreItems at h
    cases he : endOfItems ts with
    | error e => simp [he, Except.map] at h
    | ok c' =>
      simp only [he, Except.map, Except.ok.injEq, Prod.mk.injEq] at h
      exact h.2 ▸ length_endOfItems he
  | cons f fs ih =>
    unfold moreItems at h
    split at h
    · simp at h
    · rename_i hn
      simp only [Except.ok.injEq, Prod.mk.injEq] at h
      exact h.2 ▸ length_nextItem_closing hn
    · rename_i hn
      split at h
      · simp at h
      · rename_i hr
        exact Nat.lt_trans (ih h) (Nat.lt_trans (Reader.takes _ hr) (length_nextItem hn))

theorem length_items {draft draft' : δ} {fs : List (Field Reader δ)} {ts : List Lexeme}
    {c : Closing} (h : items draft fs ts = .ok (draft', c)) : c.rest.length < ts.length := by
  cases fs with
  | nil =>
    unfold items at h
    cases he : endOfItems ts with
    | error e => simp [he, Except.map] at h
    | ok c' =>
      simp only [he, Except.map, Except.ok.injEq, Prod.mk.injEq] at h
      exact h.2 ▸ length_endOfItems he
  | cons f fs =>
    rw [items] at h
    split at h
    · simp at h
    · rename_i hn
      simp only [Except.ok.injEq, Prod.mk.injEq] at h
      exact h.2 ▸ length_firstItem_closing hn
    · rename_i hn
      split at h
      · simp at h
      · rename_i hr
        exact Nat.lt_trans (length_moreItems h)
          (Nat.lt_of_lt_of_le (Reader.takes _ hr) (length_firstItem hn))

theorem length_finishAt {r : Record ρ δ α} {missing : String → Cause} {draft : δ} {c : Closing}
    {a : α} {us : List Lexeme} (h : r.finishAt missing draft c = .ok (a, us)) : us = c.rest := by
  unfold finishAt at h
  split at h
  · simp only [Except.ok.injEq, Prod.mk.injEq] at h
    exact h.2.symm
  · simp at h

/-- Reads a record. -/
def reader (r : Record Reader δ α) : Reader α where
  run
    | [] => .error (Reader.unexpected r.expected [])
    | l :: ls =>
      match l.token with
      | .openBrace =>
        match r.members ls with
        | .error f => .error f
        | .ok (draft, c) => r.finishAt .missingField draft c
      | .openBracket =>
        match items r.blank r.fields ls with
        | .error f => .error f
        | .ok (draft, c) => r.finishAt r.missingItem draft c
      | _ => .error (Reader.unexpected r.expected (l :: ls))
  takes {ts us a} h := by
    split at h
    · simp at h
    · split at h
      · split at h
        · simp at h
        · rename_i hm
          exact length_finishAt h ▸ Nat.lt_succ_of_lt (length_members hm)
      · split at h
        · simp at h
        · rename_i hm
          exact length_finishAt h ▸ Nat.lt_succ_of_lt (length_items hm)
      · simp at h

end Record

/-! ### Out of a kept value -/

/-- Takes something out of a kept value. -/
structure Decoder (α : Type) where
  run : Value → Except Cause α

namespace Decoder

instance : Functor Decoder where
  map f d := ⟨fun v => (d.run v).map f⟩

/-- Takes a string. -/
def string : Decoder String where
  run
    | .string s => .ok s
    | v => .error (.wrongType v.found "a string")

/-- Takes nothing out of a null, and something out of another value. -/
def nullable {α : Type} (d : Decoder α) : Decoder (Option α) where
  run
    | .null => .ok none
    | v => (d.run v).map some

/-- Takes nothing. -/
def ignored : Decoder Unit := ⟨fun _ => .ok ()⟩

instance : Source Decoder where
  string := string
  nullable := nullable
  ignored := ignored

end Decoder

namespace Record

variable {δ α : Type}

/-- Enters a value into a draft. -/
def enterValue (enter : Decoder (δ → δ)) (draft : δ) (v : Value) : Except Cause δ :=
  (enter.run v).map fun f => f draft

/-- Enters a member of an object into a draft. -/
def enterMember (r : Record Decoder δ α) (draft : δ) (m : String × Value) : Except Cause δ :=
  match r.field? m.1 with
  | some f =>
    if f.isSet draft then .error (.repeatedField m.1) else enterValue f.enter draft m.2
  | none => enterValue (r.other m.1) draft m.2

/-- Enters the items of an array into a draft; answers also how many items are left over. -/
def enterItems (draft : δ) : List (Field Decoder δ) → List Value → Except Cause (δ × Nat)
  | f :: fs, v :: vs =>
    match enterValue f.enter draft v with
    | .error c => .error c
    | .ok draft' => enterItems draft' fs vs
  | _, vs => .ok (draft, vs.length)

/-- The record of a draft. -/
def finishWith (r : Record Decoder δ α) (missing : String → Cause) (draft : δ) :
    Except Cause α :=
  match r.finish draft with
  | .ok a => .ok a
  | .error name => .error (missing name)

/-- What is wrong with an array that has more items than expected. -/
def tooMany (length expected : Nat) : Cause :=
  .wrongLength length s!"{elements expected} in sequence"

/-- Takes a record out of the members of an object or the items of an array. -/
def ofParts (r : Record Decoder δ α) : Parts → Except Cause α
  | .members ms => do
    let draft ← ms.foldlM r.enterMember r.blank
    r.finishWith .missingField draft
  | .items vs => do
    let (draft, left) ← enterItems r.blank r.fields vs
    let a ← r.finishWith r.missingItem draft
    if left = 0 then return a else throw (tooMany vs.length r.fields.length)

end Record

end ByteStore.Json
