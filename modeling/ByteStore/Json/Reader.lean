import ByteStore.Json.Nesting

/-!
# Readers

A reader takes a value off the front of a row of lexemes. It always takes at least one lexeme, which
is why going through a document comes to an end.
-/

namespace ByteStore.Json

/-- Takes a value off the front of a row of lexemes. -/
structure Reader (α : Type) where
  run : List Lexeme → Except Fault (α × List Lexeme)
  takes : ∀ {ts us : List Lexeme} {a : α}, run ts = .ok (a, us) → us.length < ts.length

namespace Reader

variable {α β : Type}

/-- Makes something else of the value. -/
def map (f : α → β) (r : Reader α) : Reader β where
  run ts :=
    match r.run ts with
    | .ok (a, us) => .ok (f a, us)
    | .error e => .error e
  takes {ts us b} h := by
    split at h
    · rename_i a us' hr
      simp only [Except.ok.injEq, Prod.mk.injEq] at h
      exact h.2 ▸ r.takes hr
    · simp at h

instance : Functor Reader where
  map := map

/-! ### Unexpected values -/

/-- What is wrong with a row of lexemes that does not start with the expected value. -/
def unexpected (expected : String) : List Lexeme → Fault
  | [] => ⟨.eofForValue, 0⟩
  | l :: _ =>
    match l.token with
    | .string (.ok s) _ => ⟨.wrongType (.string s) expected, l.stop⟩
    | .string (.error f) _ => f
    | .atom (.ok a) _ => ⟨.wrongType a.found expected, l.stop⟩
    | .atom (.error f) _ => f
    | .openBracket => ⟨.wrongType .sequence expected, l.start⟩
    | .openBrace => ⟨.wrongType .map expected, l.start⟩
    | _ => ⟨.expectedValue, l.noticed⟩

/-! ### Simple readers -/

/-- Reads a string and puts it to use; `use` may find it to be wrong. -/
def stringWith (expected : String) (use : String → Except Cause α) : Reader α where
  run
    | l :: ls =>
      match l.token with
      | .string (.ok s) _ =>
        match use s with
        | .ok a => .ok (a, ls)
        | .error c => .error ⟨c, l.stop⟩
      | _ => .error (unexpected expected (l :: ls))
    | [] => .error (unexpected expected [])
  takes {ts us a} h := by
    split at h
    · split at h
      · split at h
        · simp only [Except.ok.injEq, Prod.mk.injEq] at h
          simp [h.2]
        · simp at h
      · simp at h
    · simp at h

/-- Reads a string. -/
def string : Reader String := stringWith "a string" .ok

/-- Reads nothing where a null stands, and a value elsewhere. -/
def nullable (r : Reader α) : Reader (Option α) where
  run
    | l :: ls =>
      match l.token with
      | .atom (.ok .null) _ => .ok (none, ls)
      | _ => (r.map some).run (l :: ls)
    | [] => (r.map some).run []
  takes {ts us a} h := by
    split at h
    · split at h
      · simp only [Except.ok.injEq, Prod.mk.injEq] at h
        simp [h.2]
      · exact (r.map some).takes h
    · exact (r.map some).takes h

/-- Skips a value of any kind, to any depth. -/
def skip : Reader Unit where
  run := skipManner.run [] .value
  takes := Manner.length_run
where
  /-- Nothing is made of the parts, which need not name texts or numbers. -/
  skipManner : Manner Unit :=
    { string := fun _ skipped => skipped
      atom := fun _ skipped => skipped
      key := fun _ skipped => skipped.map fun _ => ""
      array := fun _ => ()
      object := fun _ => ()
      bracketAfterComma := .expectedValue
      braceAfterComma := .keyNotString
      endAfterComma := .eofInObject
      limit := none }

end Reader

/-! ### Whole documents -/

/-- Passes a row of lexemes that has nothing left. -/
def atEnd : List Lexeme → Except Fault Unit
  | [] => .ok ()
  | l :: _ => .error ⟨.trailingText, l.noticed⟩

/-- Reads a document that holds one value. -/
def Reader.parse {α : Type} (r : Reader α) (document : String) : Except Complaint α :=
  match r.run (lexemes document.toList) with
  | .error f => .error (f.inDocument document.toList)
  | .ok (a, rest) =>
    match atEnd rest with
    | .error f => .error (f.inDocument document.toList)
    | .ok () => .ok a

end ByteStore.Json
