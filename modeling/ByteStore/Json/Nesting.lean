import ByteStore.Json.Lexeme

/-!
# Nested values

A value may hold values to any depth. `Manner.run` goes through one value, lexeme by lexeme, with
the arrays and objects that are still open on a stack; a `Manner` says what becomes of the parts.
There are two manners: values are skipped, or they are kept.
-/

namespace ByteStore.Json

/-- A way to go through a nested value and to make something of it. -/
structure Manner (α : Type) where
  string : Except Fault String → Except Fault Unit → Except Fault α
  atom : Except Fault Atom → Except Fault Unit → Except Fault α
  key : Except Fault String → Except Fault Unit → Except Fault String
  array : List α → α
  object : List (String × α) → α
  /-- What a closing bracket right after a comma is called. -/
  bracketAfterComma : Cause
  /-- What a closing brace right after a comma is called. -/
  braceAfterComma : Cause
  /-- What the end of the document right after the comma of an object is called. -/
  endAfterComma : Cause
  /-- How many arrays and objects may be open, if there is a limit. -/
  limit : Option Nat

/-- An array or object that is still open: the parts that are complete, the latest first. -/
inductive Frame (α : Type)
  | array (items : List α)
  /-- `key` is the key whose value comes next. -/
  | object (members : List (String × α)) (key : String)

/-- What may come next. -/
inductive Stage
  | value
  | firstItem
  | nextItem
  | firstKey
  | nextKey
  | colon
  | afterItem
  deriving DecidableEq, Repr

/-- Where a walk through a value has got to: at its end, or somewhere inside. -/
inductive Progress (α : Type)
  | done (value : α)
  | inside (frames : List (Frame α)) (stage : Stage)

namespace Manner

variable {α : Type}

/-- Puts a complete value where it belongs. -/
def deliver (value : α) : List (Frame α) → Progress α
  | [] => .done value
  | .array items :: fs => .inside (.array (value :: items) :: fs) .afterItem
  | .object members key :: fs => .inside (.object ((key, value) :: members) "" :: fs) .afterItem

/-- Closes the innermost array or object. -/
def close (m : Manner α) : List (Frame α) → Progress α
  | [] => .inside [] .value
  | .array items :: fs => deliver (m.array items.reverse) fs
  | .object members _ :: fs => deliver (m.object members.reverse) fs

/-- Whether no further array or object may be opened. -/
def isFull (m : Manner α) (frames : List (Frame α)) : Bool :=
  m.limit.any fun n => decide (n ≤ frames.length)

/-- Starts a value. -/
def start (m : Manner α) (frames : List (Frame α)) (l : Lexeme) : Except Fault (Progress α) :=
  match l.token with
  | .openBracket =>
    if m.isFull frames then .error ⟨.tooDeep, l.noticed⟩
    else .ok (.inside (.array [] :: frames) .firstItem)
  | .openBrace =>
    if m.isFull frames then .error ⟨.tooDeep, l.noticed⟩
    else .ok (.inside (.object [] "" :: frames) .firstKey)
  | .string read skip => (m.string read skip).map (deliver · frames)
  | .atom read skip => (m.atom read skip).map (deliver · frames)
  | _ => .error ⟨.expectedValue, l.noticed⟩

/-- Takes a key. -/
def enterKey (frames : List (Frame α)) (key : String) : Progress α :=
  match frames with
  | .object members _ :: fs => .inside (.object members key :: fs) .colon
  | fs => .inside fs .colon

/-- Goes one lexeme further. -/
def step (m : Manner α) (frames : List (Frame α)) (stage : Stage) (l : Lexeme) :
    Except Fault (Progress α) :=
  match stage with
  | .value => m.start frames l
  | .firstItem =>
    match l.token with
    | .closeBracket => .ok (m.close frames)
    | _ => m.start frames l
  | .nextItem =>
    match l.token with
    | .closeBracket => .error ⟨m.bracketAfterComma, l.noticed⟩
    | _ => m.start frames l
  | .firstKey =>
    match l.token with
    | .closeBrace => .ok (m.close frames)
    | .string read skip => (m.key read skip).map (enterKey frames)
    | _ => .error ⟨.keyNotString, l.noticed⟩
  | .nextKey =>
    match l.token with
    | .closeBrace => .error ⟨m.braceAfterComma, l.noticed⟩
    | .string read skip => (m.key read skip).map (enterKey frames)
    | _ => .error ⟨.keyNotString, l.noticed⟩
  | .colon =>
    match l.token with
    | .colon => .ok (.inside frames .value)
    | _ => .error ⟨.expectedColon, l.noticed⟩
  | .afterItem =>
    match frames with
    | .object .. :: _ =>
      match l.token with
      | .comma => .ok (.inside frames .nextKey)
      | .closeBrace => .ok (m.close frames)
      | _ => .error ⟨.expectedObjectCommaOrEnd, l.noticed⟩
    | _ =>
      match l.token with
      | .comma => .ok (.inside frames .nextItem)
      | .closeBracket => .ok (m.close frames)
      | _ => .error ⟨.expectedArrayCommaOrEnd, l.noticed⟩

/-- What it is called that the document ends at some stage. -/
def cutShort (m : Manner α) (frames : List (Frame α)) : Stage → Cause
  | .value => .eofForValue
  | .firstItem => .eofInArray
  | .nextItem => .eofForValue
  | .firstKey => .eofInObject
  | .nextKey => m.endAfterComma
  | .colon => .eofInObject
  | .afterItem =>
    match frames with
    | .object .. :: _ => .eofInObject
    | _ => .eofInArray

/-- Goes through the rest of a value; answers what was made of it, and the lexemes after it. -/
def run (m : Manner α) (frames : List (Frame α)) (stage : Stage) :
    List Lexeme → Except Fault (α × List Lexeme)
  | [] => .error ⟨m.cutShort frames stage, 0⟩
  | l :: ls =>
    match m.step frames stage l with
    | .error f => .error f
    | .ok (.done value) => .ok (value, ls)
    | .ok (.inside frames' stage') => m.run frames' stage' ls

theorem length_run {m : Manner α} {frames : List (Frame α)} {stage : Stage}
    {ts us : List Lexeme} {a : α} (h : m.run frames stage ts = .ok (a, us)) :
    us.length < ts.length := by
  induction ts generalizing frames stage with
  | nil => simp [run] at h
  | cons l ls ih =>
    unfold run at h
    split at h
    · simp at h
    · simp only [Except.ok.injEq, Prod.mk.injEq] at h
      simp [h.2]
    · exact Nat.lt_succ_of_lt (ih h)

end Manner

end ByteStore.Json
