import ByteStore.Json.Reader
import ByteStore.Proofs.Json.Row

/-!
# What is skipped keeps to the grammar

A walk through a value that is skipped goes over one symbol after the other, and the symbols that it
has still to go over are told by what is open and by the stage (`Reader.Completes`). One step goes
over one symbol (`goes_of_step`), so a walk that comes to its end has gone over a value
(`value_of_run_skip`).
-/

namespace ByteStore.Json

namespace Reader

open Manner Form
open Reader.skip (skipManner)

/-- The symbols that complete what is open, from where one of its parts ends. -/
def Closes : List (Frame Unit) → List Symbol → Prop
  | [] => (· = [])
  | .array _ :: frames => Joined IsMoreItems (Closes frames)
  | .object _ _ :: frames => Joined IsMoreMembers (Closes frames)

/--
The symbols that complete what is open at a stage. Nothing is said of stages that no walk gets to.
-/
def Completes : Stage → List (Frame Unit) → List Symbol → Prop
  | .value, frames | .nextItem, frames => Joined IsValue (Closes frames)
  | .firstItem, .array _ :: frames => Joined IsItems (Closes frames)
  | .firstKey, .object _ _ :: frames => Joined IsMembers (Closes frames)
  | .nextKey, .object _ _ :: frames =>
    Joined (fun ys => IsMoreMembers (.comma :: ys)) (Closes frames)
  | .colon, .object _ _ :: frames => Joined IsAfterKey (Closes frames)
  | .afterItem, frame :: frames => Closes (frame :: frames)
  | _, _ => fun _ => True

/-- The symbols that complete a walk. -/
def Finishes : Progress Unit → List Symbol → Prop
  | .done _ => (· = [])
  | .inside frames stage => Completes stage frames

variable {tail : List Lexeme} {xs : List Symbol} {l : Lexeme} {ls us : List Lexeme}
  {frames : List (Frame Unit)} {stage : Stage} {progress : Progress Unit}
  {p q : List Symbol → Prop}

lemma finishes_deliver : Finishes (deliver () frames) = Closes frames := by
  cases frames with
  | nil => rfl
  | cons frame frames => cases frame <;> rfl

/-- A walk that goes one lexeme further, where `p` holds of the symbols that complete it. -/
def Goes (tail : List Lexeme) (p : List Symbol → Prop) (xs : List Symbol) (ls : List Lexeme)
    (progress : Progress Unit) : Prop :=
  ∃ x xs', xs = x :: xs' ∧ Row tail xs' ls ∧ ∀ ys, Finishes progress ys → p (x :: ys)

lemma Goes.imp (h : Goes tail p xs ls progress) (hp : ∀ xs, p xs → q xs) :
    Goes tail q xs ls progress := by
  obtain ⟨x, xs', rfl, hrest, hfinish⟩ := h
  exact ⟨x, xs', rfl, hrest, fun ys hys => hp _ (hfinish ys hys)⟩

lemma goes_of_mark {y : Symbol} (h : Row tail xs (l :: ls)) (hl : y.Stands l) (hy : y.IsMark)
    (hp : ∀ ys, Finishes progress ys → p (y :: ys)) : Goes tail p xs ls progress := by
  obtain ⟨xs', rfl, hrest⟩ := h.exists_of_mark hl hy
  exact ⟨y, xs', rfl, hrest, hp⟩

lemma goes_of_start (h : skipManner.start frames l = .ok progress)
    (hrow : Row tail xs (l :: ls)) :
    Goes tail (Joined IsValue (Closes frames)) xs ls progress := by
  rw [start] at h
  split at h
  · rename_i hl
    cases h
    refine goes_of_mark (y := .openBracket) hrow hl trivial fun ys hys => ?_
    exact hys.cons fun _ => IsItems.isValue
  · rename_i hl
    cases h
    refine goes_of_mark (y := .openBrace) hrow hl trivial fun ys hys => ?_
    exact hys.cons fun _ => IsMembers.isValue
  · rename_i read skip hl
    cases skip with
    | error e => cases h
    | ok u =>
      cases h
      obtain ⟨body, xs', rfl, hbody, hrest⟩ := hrow.exists_of_string hl (.inr rfl)
      rw [Goes, finishes_deliver]
      exact ⟨_, xs', rfl, hrest, fun ys hys => ⟨_, ys, isValue_string hbody, hys, rfl⟩⟩
  · rename_i read skip hl
    cases skip with
    | error e => cases h
    | ok u =>
      cases h
      obtain ⟨text, xs', rfl, htext, hrest⟩ := hrow.exists_of_atom hl (.inr rfl)
      rw [Goes, finishes_deliver]
      exact ⟨_, xs', rfl, hrest, fun ys hys => ⟨_, ys, isValue_atom htext, hys, rfl⟩⟩
  · cases h

/-- A key is gone over, and what is left is what comes after it. -/
lemma goes_of_key {read : Except Fault String} {skip : Except Fault Unit}
    (h : (skipManner.key read skip).map (enterKey frames) = .ok progress)
    (hrow : Row tail xs (l :: ls)) (hl : l.token = .string read skip)
    (hp : ∀ body ys, Quoted.Body body → Completes .colon frames ys → p (.string body :: ys)) :
    Goes tail p xs ls progress := by
  cases skip with
  | error e => cases h
  | ok u =>
    cases h
    obtain ⟨body, xs', rfl, hbody, hrest⟩ := hrow.exists_of_string hl (.inr rfl)
    refine ⟨_, xs', rfl, hrest, fun ys hys => hp body ys hbody ?_⟩
    rcases frames with _ | ⟨_ | _, frames⟩ <;> exact hys

/-- One step inside an array, up to the end of an item. -/
lemma goes_of_step_item (hstage : stage = .firstItem ∨ stage = .nextItem)
    (h : skipManner.step frames stage l = .ok progress) (hrow : Row tail xs (l :: ls)) :
    Goes tail (Completes stage frames) xs ls progress := by
  obtain rfl | rfl := hstage
  · simp only [step] at h
    split at h
    · rename_i hl
      cases h
      refine goes_of_mark (y := .closeBracket) hrow hl trivial fun ys hys => ?_
      -- An array has to be on top of the stack; of other stacks nothing is said at this stage.
      rcases frames with _ | ⟨_ | _, frames⟩
      · trivial
      · rw [close, finishes_deliver] at hys
        exact ⟨_, ys, isItems_nil, hys, rfl⟩
      · trivial
    · refine (goes_of_start h hrow).imp fun ys hys => ?_
      rcases frames with _ | ⟨_ | _, frames⟩
      · trivial
      · exact hys.assoc.imp fun _ => isItems_of_joined
      · trivial
  · simp only [step] at h
    split at h
    · cases h
    · exact goes_of_start h hrow

/-- One step over a key. -/
lemma goes_of_step_key (hstage : stage = .firstKey ∨ stage = .nextKey)
    (h : skipManner.step frames stage l = .ok progress) (hrow : Row tail xs (l :: ls)) :
    Goes tail (Completes stage frames) xs ls progress := by
  obtain rfl | rfl := hstage
  · simp only [step] at h
    split at h
    · rename_i hl
      cases h
      refine goes_of_mark (y := .closeBrace) hrow hl trivial fun ys hys => ?_
      rcases frames with _ | ⟨_ | _, frames⟩
      · trivial
      · trivial
      · rw [close, finishes_deliver] at hys
        exact ⟨_, ys, isMembers_nil, hys, rfl⟩
    · rename_i hl
      refine goes_of_key h hrow hl fun body ys hbody hys => ?_
      rcases frames with _ | ⟨_ | _, frames⟩
      · trivial
      · trivial
      · exact hys.cons fun _ => isMembers_cons hbody
    · cases h
  · simp only [step] at h
    split at h
    · cases h
    · rename_i hl
      refine goes_of_key h hrow hl fun body ys hbody hys => ?_
      rcases frames with _ | ⟨_ | _, frames⟩
      · trivial
      · trivial
      · exact hys.cons fun _ => isMoreMembers_cons hbody
    · cases h

/-- One step after a part of an array or object. -/
lemma goes_of_step_afterItem (h : skipManner.step frames .afterItem l = .ok progress)
    (hrow : Row tail xs (l :: ls)) : Goes tail (Completes .afterItem frames) xs ls progress := by
  simp only [step] at h
  split at h
  · split at h
    · rename_i hl
      cases h
      refine goes_of_mark (y := .comma) hrow hl trivial fun ys hys => ?_
      exact hys.cons fun _ => id
    · rename_i hl
      cases h
      refine goes_of_mark (y := .closeBrace) hrow hl trivial fun ys hys => ?_
      rw [close, finishes_deliver] at hys
      exact ⟨_, ys, isMoreMembers_nil, hys, rfl⟩
    · cases h
  · rename_i hframes
    -- What is on top of the stack is no object here, so it is an array.
    split at h
    · rename_i hl
      cases h
      refine goes_of_mark (y := .comma) hrow hl trivial fun ys hys => ?_
      rcases frames with _ | ⟨_ | _, frames⟩
      · trivial
      · exact hys.assoc.cons fun _ => isMoreItems_of_joined
      · exact absurd rfl (hframes _ _ _)
    · rename_i hl
      cases h
      refine goes_of_mark (y := .closeBracket) hrow hl trivial fun ys hys => ?_
      rcases frames with _ | ⟨_ | _, frames⟩
      · trivial
      · rw [close, finishes_deliver] at hys
        exact ⟨_, ys, isMoreItems_nil, hys, rfl⟩
      · exact absurd rfl (hframes _ _ _)
    · cases h

/-- One step goes over one symbol. -/
theorem goes_of_step (h : skipManner.step frames stage l = .ok progress)
    (hrow : Row tail xs (l :: ls)) : Goes tail (Completes stage frames) xs ls progress := by
  cases stage with
  | value => exact goes_of_start h hrow
  | firstItem => exact goes_of_step_item (.inl rfl) h hrow
  | nextItem => exact goes_of_step_item (.inr rfl) h hrow
  | firstKey => exact goes_of_step_key (.inl rfl) h hrow
  | nextKey => exact goes_of_step_key (.inr rfl) h hrow
  | colon =>
    simp only [step] at h
    split at h
    · rename_i hl
      cases h
      refine goes_of_mark (y := .colon) hrow hl trivial fun ys hys => ?_
      rcases frames with _ | ⟨_ | _, frames⟩
      · trivial
      · trivial
      · exact hys.assoc.cons fun zs hzs => ⟨zs, rfl, hzs⟩
    · cases h
  | afterItem => exact goes_of_step_afterItem h hrow

/-- A walk goes over the symbols that complete what is open. -/
lemma completes_of_run (h : skipManner.run frames stage ls = .ok ((), us))
    (hrow : Row tail xs ls) :
    Joined (Completes stage frames) (fun zs => Row tail zs us) xs := by
  -- By induction on the lexemes, since each step may open or close something.
  induction ls generalizing frames stage xs with
  | nil => cases h
  | cons l ls ih =>
    rw [Manner.run] at h
    split at h
    · cases h
    · rename_i hstep
      cases h
      obtain ⟨x, xs', rfl, hrest, hfinish⟩ := goes_of_step hstep hrow
      exact ⟨[x], xs', hfinish [] rfl, hrest, rfl⟩
    · rename_i hstep
      obtain ⟨x, xs', rfl, hrest, hfinish⟩ := goes_of_step hstep hrow
      exact (ih h hrest).cons hfinish

/-- Whatever is skipped keeps to the grammar. -/
theorem value_of_run_skip (h : skip.run ls = .ok ((), us)) (hrow : Row tail xs ls) :
    Joined IsValue (fun zs => Row tail zs us) xs := by
  refine (completes_of_run h hrow).imp fun ys hys => ?_
  obtain ⟨ys, -, hys, rfl, rfl⟩ := hys
  rwa [List.append_nil]

end Reader

end ByteStore.Json
