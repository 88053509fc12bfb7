import ByteStore.Json.Record

/-!
# Tagged values

A value of one of several variants names its variant beside its own parts: an object in the member
`Tagged.key`, which may stand anywhere, an array in its first item. The parts are kept until the
whole value has been read, so what is wrong inside a variant has no position any more.
-/

namespace ByteStore.Json

/-- How a value names its variant. -/
structure Tagged (τ : Type) where
  name : String
  /-- The member that names the variant. -/
  key : String
  variants : List (String × τ)

namespace Tagged

variable {τ : Type}

/-- What is expected where the value stands. -/
def expected (t : Tagged τ) : String := s!"internally tagged enum {t.name}"

/-- The variant with a name. -/
def variant (t : Tagged τ) (name : String) : Except Cause τ :=
  match t.variants.lookup name with
  | some v => .ok v
  | none => .error (.unknownVariant name (t.variants.map (·.1)))

/-- Reads the name of a variant. -/
def variantReader (t : Tagged τ) : Reader τ := Reader.stringWith "variant identifier" t.variant

/-- The limit for a part, which stands inside one array or object. -/
def partLimit : Nat := depthLimit - 1

/-! ### Objects -/

/-- What has been read of an object: its variant, and its other members, the latest first. -/
structure Draft (τ : Type) where
  variant : Option τ
  members : List (String × Value)

/-- An object as a record whose one field is the variant. -/
def objectRecord (t : Tagged τ) : Record Reader (Draft τ) (τ × Parts) where
  name := t.name
  blank := ⟨none, []⟩
  fields := [⟨t.key, fun d => d.variant.isSome,
    t.variantReader.map fun v d => { d with variant := some v }⟩]
  other key := (Reader.value partLimit).map fun v d => { d with members := (key, v) :: d.members }
  finish d :=
    match d.variant with
    | some v => .ok (v, .members d.members.reverse)
    | none => .error t.key

/-! ### Arrays -/

/-- Keeps the items of an array that come after another item. -/
def keptItems (ts : List Lexeme) : Except Fault (List Value × Closing) :=
  match hn : nextItem ts with
  | .error f => .error f
  | .ok (.inl c) => .ok ([], c)
  | .ok (.inr us) =>
    match hr : (Reader.value partLimit).run us with
    | .error f => .error f
    | .ok (v, vs) =>
      have := Nat.lt_trans ((Reader.value partLimit).takes hr) (length_nextItem hn)
      (keptItems vs).map fun (items, c) => (v :: items, c)
termination_by ts.length
decreasing_by exact this

/-- Reads the items of an array. -/
def items (t : Tagged τ) (ts : List Lexeme) : Except Fault ((τ × Parts) × List Lexeme) :=
  match firstItem ts with
  | .error f => .error f
  | .ok (.inl c) => .error ⟨.missingField t.key, c.place⟩
  | .ok (.inr us) =>
    match t.variantReader.run us with
    | .error f => .error f
    | .ok (v, vs) =>
      match keptItems vs with
      | .error f => .error f
      | .ok (items, c) => .ok ((v, .items items), c.rest)

theorem length_keptItems {ts : List Lexeme} {items : List Value} {c : Closing}
    (h : keptItems ts = .ok (items, c)) : c.rest.length < ts.length := by
  fun_induction keptItems ts generalizing items with
  | case1 => simp at h
  | case2 ts c' hn =>
    simp only [Except.ok.injEq, Prod.mk.injEq] at h
    exact h.2 ▸ length_nextItem_closing hn
  | case3 => simp at h
  | case4 ts us hn v vs hr this ih =>
    cases hk : keptItems vs with
    | error f => simp [hk, Except.map] at h
    | ok kept =>
      obtain ⟨items', c'⟩ := kept
      simp only [hk, Except.map, Except.ok.injEq, Prod.mk.injEq] at h
      exact Nat.lt_trans (ih (h.2 ▸ hk)) this

theorem length_items {t : Tagged τ} {ts us : List Lexeme} {p : τ × Parts}
    (h : t.items ts = .ok (p, us)) : us.length < ts.length := by
  unfold items at h
  split at h
  · simp at h
  · simp at h
  · rename_i hf
    split at h
    · simp at h
    · rename_i hv
      split at h
      · simp at h
      · rename_i hk
        simp only [Except.ok.injEq, Prod.mk.injEq] at h
        exact h.2 ▸ Nat.lt_trans (length_keptItems hk)
          (Nat.lt_of_lt_of_le (Reader.takes _ hv) (length_firstItem hf))

/-! ### Values -/

/-- Reads the variant of a value, and keeps its parts. -/
def reader (t : Tagged τ) : Reader (τ × Parts) where
  run
    | [] => .error (Reader.unexpected t.expected [])
    | l :: ls =>
      match l.token with
      | .openBrace => t.objectRecord.reader.run (l :: ls)
      | .openBracket => t.items ls
      | _ => .error (Reader.unexpected t.expected (l :: ls))
  takes {ts us p} h := by
    split at h
    · simp at h
    · split at h
      · exact Reader.takes _ h
      · exact Nat.lt_succ_of_lt (length_items h)
      · simp at h

/--
Reads a document that holds one value, and then makes something of its variant and parts. What is
wrong with the parts counts before anything that comes after the value.
-/
def parse {α : Type} (t : Tagged τ) (make : τ → Parts → Except Cause α) (document : String) :
    Except Complaint α :=
  match t.reader.run (lexemes document.toList) with
  | .error f => .error (f.inDocument document.toList)
  | .ok ((v, parts), rest) =>
    match make v parts with
    | .error c => .error ⟨c, none⟩
    | .ok a =>
      match atEnd rest with
      | .error f => .error (f.inDocument document.toList)
      | .ok () => .ok a

end Tagged

end ByteStore.Json
