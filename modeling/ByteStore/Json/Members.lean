import ByteStore.Json.Reader

/-!
# Arrays and objects, part by part

What stands between the parts of an array or an object: the next key or item is asked for, and the
answer is either that there is none, with the closing lexeme, or the lexemes where it starts.
-/

namespace ByteStore.Json

/-- The end of an array or object: the place after its closing lexeme, and the lexemes after it. -/
structure Closing where
  place : Nat
  rest : List Lexeme

namespace Closing

/-- Closes with a lexeme. -/
def ofLexeme (l : Lexeme) (rest : List Lexeme) : Closing := ⟨l.stop, rest⟩

end Closing

/-! ### Objects -/

/-- A key of an object. -/
def readKey (l : Lexeme) : Except Fault String :=
  match l.token with
  | .string read _ => read
  | .closeBrace => .error ⟨.trailingComma, l.noticed⟩
  | _ => .error ⟨.keyNotString, l.noticed⟩

/-- The first key of an object, and the lexemes after it. -/
def firstKey : List Lexeme → Except Fault (Closing ⊕ String × List Lexeme)
  | [] => .error ⟨.eofInObject, 0⟩
  | l :: ls =>
    match l.token with
    | .closeBrace => .ok (.inl (.ofLexeme l ls))
    | _ =>
      match readKey l with
      | .error f => .error f
      | .ok key => .ok (.inr (key, ls))

/-- The next key of an object after a member, and the lexemes after it. -/
def nextKey : List Lexeme → Except Fault (Closing ⊕ String × List Lexeme)
  | [] => .error ⟨.eofInObject, 0⟩
  | l :: ls =>
    match l.token with
    | .closeBrace => .ok (.inl (.ofLexeme l ls))
    | .comma =>
      match ls with
      | [] => .error ⟨.eofForValue, 0⟩
      | l' :: ls' =>
        match readKey l' with
        | .error f => .error f
        | .ok key => .ok (.inr (key, ls'))
    | _ => .error ⟨.expectedObjectCommaOrEnd, l.noticed⟩

/-- The lexemes after the colon between a key and its value. -/
def afterColon : List Lexeme → Except Fault (List Lexeme)
  | [] => .error ⟨.eofInObject, 0⟩
  | l :: ls =>
    match l.token with
    | .colon => .ok ls
    | _ => .error ⟨.expectedColon, l.noticed⟩

/--
The place after the closing brace if it comes next, and the place before what comes otherwise.
-/
def placeAtBrace : List Lexeme → Nat
  | [] => 0
  | l :: _ =>
    match l.token with
    | .closeBrace => l.stop
    | _ => l.start

/-! ### Arrays -/

/-- The start of the first item of an array. -/
def firstItem : List Lexeme → Except Fault (Closing ⊕ List Lexeme)
  | [] => .error ⟨.eofInArray, 0⟩
  | l :: ls =>
    match l.token with
    | .closeBracket => .ok (.inl (.ofLexeme l ls))
    | _ => .ok (.inr (l :: ls))

/-- The start of the next item of an array after an item. -/
def nextItem : List Lexeme → Except Fault (Closing ⊕ List Lexeme)
  | [] => .error ⟨.eofInArray, 0⟩
  | l :: ls =>
    match l.token with
    | .closeBracket => .ok (.inl (.ofLexeme l ls))
    | .comma =>
      match ls with
      | [] => .error ⟨.eofForValue, 0⟩
      | l' :: ls' =>
        match l'.token with
        | .closeBracket => .error ⟨.trailingComma, l'.noticed⟩
        | _ => .ok (.inr (l' :: ls'))
    | _ => .error ⟨.expectedArrayCommaOrEnd, l.noticed⟩

/-- The end of an array that may have no further items. -/
def endOfItems : List Lexeme → Except Fault Closing
  | [] => .error ⟨.eofInArray, 0⟩
  | l :: ls =>
    match l.token with
    | .closeBracket => .ok (.ofLexeme l ls)
    | .comma =>
      match ls with
      | [] => .error ⟨.trailingText, 0⟩
      | l' :: _ =>
        match l'.token with
        | .closeBracket => .error ⟨.trailingComma, l'.noticed⟩
        | _ => .error ⟨.trailingText, l'.noticed⟩
    | _ => .error ⟨.trailingText, l.noticed⟩

/-! ### Everything gets shorter -/

theorem length_firstKey {ts us : List Lexeme} {key : String}
    (h : firstKey ts = .ok (.inr (key, us))) : us.length < ts.length := by
  unfold firstKey at h
  split at h
  · simp at h
  · split at h
    · simp at h
    · split at h
      · simp at h
      · simp only [Except.ok.injEq, Sum.inr.injEq, Prod.mk.injEq] at h
        simp [h.2]

theorem length_firstKey_closing {ts : List Lexeme} {c : Closing}
    (h : firstKey ts = .ok (.inl c)) : c.rest.length < ts.length := by
  unfold firstKey at h
  split at h
  · simp at h
  · split at h
    · simp only [Except.ok.injEq, Sum.inl.injEq] at h
      simp [← h, Closing.ofLexeme]
    · split at h <;> simp at h

theorem length_nextKey {ts us : List Lexeme} {key : String}
    (h : nextKey ts = .ok (.inr (key, us))) : us.length < ts.length := by
  unfold nextKey at h
  split at h
  · simp at h
  · split at h
    · simp at h
    · split at h
      · simp at h
      · split at h
        · simp at h
        · simp only [Except.ok.injEq, Sum.inr.injEq, Prod.mk.injEq] at h
          simp only [h.2, List.length_cons]
          omega
    · simp at h

theorem length_nextKey_closing {ts : List Lexeme} {c : Closing}
    (h : nextKey ts = .ok (.inl c)) : c.rest.length < ts.length := by
  unfold nextKey at h
  split at h
  · simp at h
  · split at h
    · simp only [Except.ok.injEq, Sum.inl.injEq] at h
      simp [← h, Closing.ofLexeme]
    · split at h
      · simp at h
      · split at h <;> simp at h
    · simp at h

theorem length_afterColon {ts us : List Lexeme} (h : afterColon ts = .ok us) :
    us.length < ts.length := by
  unfold afterColon at h
  split at h
  · simp at h
  · split at h
    · simp only [Except.ok.injEq] at h
      simp [h]
    · simp at h

theorem length_firstItem {ts us : List Lexeme} (h : firstItem ts = .ok (.inr us)) :
    us.length ≤ ts.length := by
  unfold firstItem at h
  split at h
  · simp at h
  · split at h
    · simp at h
    · simp only [Except.ok.injEq, Sum.inr.injEq] at h
      simp [← h]

theorem length_firstItem_closing {ts : List Lexeme} {c : Closing}
    (h : firstItem ts = .ok (.inl c)) : c.rest.length < ts.length := by
  unfold firstItem at h
  split at h
  · simp at h
  · split at h
    · simp only [Except.ok.injEq, Sum.inl.injEq] at h
      simp [← h, Closing.ofLexeme]
    · simp at h

theorem length_nextItem {ts us : List Lexeme} (h : nextItem ts = .ok (.inr us)) :
    us.length < ts.length := by
  unfold nextItem at h
  split at h
  · simp at h
  · split at h
    · simp at h
    · split at h
      · simp at h
      · split at h
        · simp at h
        · simp only [Except.ok.injEq, Sum.inr.injEq] at h
          simp [← h]
    · simp at h

theorem length_nextItem_closing {ts : List Lexeme} {c : Closing}
    (h : nextItem ts = .ok (.inl c)) : c.rest.length < ts.length := by
  unfold nextItem at h
  split at h
  · simp at h
  · split at h
    · simp only [Except.ok.injEq, Sum.inl.injEq] at h
      simp [← h, Closing.ofLexeme]
    · split at h
      · simp at h
      · split at h <;> simp at h
    · simp at h

theorem length_endOfItems {ts : List Lexeme} {c : Closing} (h : endOfItems ts = .ok c) :
    c.rest.length < ts.length := by
  unfold endOfItems at h
  split at h
  · simp at h
  · split at h
    · simp only [Except.ok.injEq] at h
      simp [← h, Closing.ofLexeme]
    · split at h
      · simp at h
      · split at h <;> simp at h
    · simp at h

end ByteStore.Json
