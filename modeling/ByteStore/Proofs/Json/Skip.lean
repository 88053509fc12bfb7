import ByteStore.Json.Reader
import ByteStore.Proofs.Json.Form

/-!
# Skipping

A value that is skipped is gone through with a stack of the arrays and objects that are still open.
Whatever is on the stack, a form that keeps to the grammar is gone through up to its end and then
delivered (`skips_of_valid`). So every such form can be skipped, however deeply it is nested and
whether or not its literals can be read (`run_skip_of_valid`).
-/

namespace ByteStore.Json

namespace Manner

variable {α : Type} {m : Manner α} {frames : List (Frame α)} {stage : Stage} {l : Lexeme}
  {progress : Progress α}

/-- Goes through the rest of a value from where a walk has got to. -/
def goOn (m : Manner α) : Progress α → List Lexeme → Except Fault (α × List Lexeme)
  | .done value, ls => .ok (value, ls)
  | .inside frames stage, ls => m.run frames stage ls

lemma run_cons (h : m.step frames stage l = .ok progress) (ls : List Lexeme) :
    m.run frames stage (l :: ls) = m.goOn progress ls := by
  rw [run, h]
  cases progress <;> rfl

/-- The stages at which a value may start. -/
def Starts (stage : Stage) : Prop := stage = .value ∨ stage = .firstItem ∨ stage = .nextItem

lemma Starts.step_eq (hstage : Starts stage) (hl : l.token ≠ .closeBracket) :
    m.step frames stage l = m.start frames l := by
  obtain rfl | rfl | rfl := hstage
  · rfl
  all_goals
    rw [step]
    split
    · contradiction
    · rfl

end Manner

namespace Reader

open Manner Form
open Reader.skip (skipManner)

variable {frames : List (Frame Unit)} {stage : Stage} {ls rest : List Lexeme} {acc : List Unit}
  {members : List (String × Unit)} {key : String} {f : Form}

/-- Whether a form is gone through and delivered, whatever is still open around it. -/
def Skips (f : Form) : Prop :=
  ∀ ls, f.HasLexemes ls → ∀ frames stage rest, Starts stage →
    skipManner.run frames stage (ls ++ rest) = skipManner.goOn (deliver () frames) rest

/-! ### Arrays -/

lemma run_moreItems {fs : List Form} (h : ∀ f ∈ fs, Skips f)
    (hls : (moreItemSymbols fs).Forall₂ Symbol.Stands ls) :
    skipManner.run (.array acc :: frames) .afterItem (ls ++ rest)
      = skipManner.goOn (deliver () frames) rest := by
  induction fs generalizing acc ls with
  | nil =>
    obtain ⟨l, rfl, hl⟩ := exists_of_forall₂_singleton hls
    have hl : l.token = .closeBracket := hl
    exact run_cons (by simp only [step, hl, close, skipManner]) rest
  | cons f fs ih =>
    rw [List.forall_mem_cons] at h
    rw [moreItemSymbols] at hls
    obtain ⟨l, ls, hl, htail, rfl⟩ := List.forall₂_cons_left_iff.1 hls
    obtain ⟨us, vs, rfl, hf, hfs⟩ := exists_of_forall₂_append htail
    have hl : l.token = .comma := hl
    have hstep : skipManner.step (.array acc :: frames) .afterItem l
        = .ok (.inside (.array acc :: frames) .nextItem) := by simp only [step, hl]
    rw [List.cons_append, run_cons hstep, goOn, List.append_assoc,
      h.1 us hf _ _ _ (.inr (.inr rfl))]
    exact ih h.2 hfs

lemma run_items {fs : List Form} (h : ∀ f ∈ fs, Skips f)
    (hls : (itemSymbols fs).Forall₂ Symbol.Stands ls) :
    skipManner.run (.array [] :: frames) .firstItem (ls ++ rest)
      = skipManner.goOn (deliver () frames) rest := by
  cases fs with
  | nil =>
    obtain ⟨l, rfl, hl⟩ := exists_of_forall₂_singleton hls
    have hl : l.token = .closeBracket := hl
    exact run_cons (by simp only [step, hl, close, skipManner]) rest
  | cons f fs =>
    rw [List.forall_mem_cons] at h
    rw [itemSymbols] at hls
    obtain ⟨us, vs, rfl, hf, hfs⟩ := exists_of_forall₂_append hls
    rw [List.append_assoc, h.1 us hf _ _ _ (.inr (.inl rfl))]
    exact run_moreItems h.2 hfs

/-! ### Objects -/

/-- A key and its value are gone through, if what comes after them is. -/
lemma run_member {body : List Char} {xs : List Symbol}
    (hstage : stage = .firstKey ∨ stage = .nextKey) (hf : Skips f)
    (hmore : ∀ members vs, xs.Forall₂ Symbol.Stands vs →
      skipManner.run (.object members "" :: frames) .afterItem (vs ++ rest)
        = skipManner.goOn (deliver () frames) rest)
    (hls : (.string body :: .colon :: (f.symbols ++ xs)).Forall₂ Symbol.Stands ls) :
    skipManner.run (.object members key :: frames) stage (ls ++ rest)
      = skipManner.goOn (deliver () frames) rest := by
  obtain ⟨k, c, us, vs, rfl, ⟨read, hk, -⟩, hc, hf', hxs⟩ := exists_of_member hls
  have hstep : skipManner.step (.object members key :: frames) stage k
      = .ok (.inside (.object members "" :: frames) .colon) := by
    obtain rfl | rfl := hstage <;> simp only [step, hk] <;> rfl
  have hcolon : skipManner.step (.object members "" :: frames) .colon c
      = .ok (.inside (.object members "" :: frames) .value) := by simp only [step, hc]
  rw [List.cons_append, run_cons hstep, goOn, List.cons_append, run_cons hcolon, goOn,
    List.append_assoc, hf us hf' _ _ _ (.inl rfl)]
  exact hmore _ vs hxs

lemma run_moreMembers {ms : List (List Char × Form)} (h : ∀ m ∈ ms, Skips m.2)
    (hls : (moreMemberSymbols ms).Forall₂ Symbol.Stands ls) :
    skipManner.run (.object members key :: frames) .afterItem (ls ++ rest)
      = skipManner.goOn (deliver () frames) rest := by
  induction ms generalizing members key ls with
  | nil =>
    obtain ⟨l, rfl, hl⟩ := exists_of_forall₂_singleton hls
    have hl : l.token = .closeBrace := hl
    exact run_cons (by simp only [step, hl, close, skipManner]) rest
  | cons m ms ih =>
    obtain ⟨body, f⟩ := m
    rw [List.forall_mem_cons] at h
    rw [moreMemberSymbols] at hls
    obtain ⟨l, ls, hl, htail, rfl⟩ := List.forall₂_cons_left_iff.1 hls
    have hl : l.token = .comma := hl
    have hstep : skipManner.step (.object members key :: frames) .afterItem l
        = .ok (.inside (.object members key :: frames) .nextKey) := by simp only [step, hl]
    rw [List.cons_append, run_cons hstep, goOn]
    exact run_member (.inr rfl) h.1 (fun _ _ hvs => ih h.2 hvs) htail

lemma run_members {ms : List (List Char × Form)} (h : ∀ m ∈ ms, Skips m.2)
    (hls : (memberSymbols ms).Forall₂ Symbol.Stands ls) :
    skipManner.run (.object [] "" :: frames) .firstKey (ls ++ rest)
      = skipManner.goOn (deliver () frames) rest := by
  cases ms with
  | nil =>
    obtain ⟨l, rfl, hl⟩ := exists_of_forall₂_singleton hls
    have hl : l.token = .closeBrace := hl
    exact run_cons (by simp only [step, hl, close, skipManner]) rest
  | cons m ms =>
    obtain ⟨body, f⟩ := m
    rw [List.forall_mem_cons] at h
    rw [memberSymbols] at hls
    exact run_member (.inl rfl) h.1 (fun _ _ hvs => run_moreMembers h.2 hvs) hls

/-! ### Values -/

/-- A form that keeps to the grammar is gone through and delivered, whatever is still open. -/
theorem skips_of_valid (h : f.Valid) : Skips f := by
  induction h with
  | string _ =>
    intro ls hls frames stage rest hstage
    obtain ⟨l, rfl, read, hl, -⟩ := hls.exists_string
    refine run_cons ?_ rest
    rw [hstage.step_eq (by simp [hl])]
    simp only [start, hl]
    rfl
  | atom _ =>
    intro ls hls frames stage rest hstage
    obtain ⟨l, rfl, read, hl, -⟩ := hls.exists_atom
    refine run_cons ?_ rest
    rw [hstage.step_eq (by simp [hl])]
    simp only [start, hl]
    rfl
  | array _ ih =>
    intro ls hls frames stage rest hstage
    obtain ⟨l, ls, rfl, hl, hitems⟩ := hls.exists_array
    have hstep : skipManner.step frames stage l
        = .ok (.inside (.array [] :: frames) .firstItem) := by
      rw [hstage.step_eq (by simp [hl])]
      simp only [start, hl]
      rfl
    rw [List.cons_append, run_cons hstep]
    exact run_items ih hitems
  | object _ _ ih =>
    intro ls hls frames stage rest hstage
    obtain ⟨l, ls, rfl, hl, hmembers⟩ := hls.exists_object
    have hstep : skipManner.step frames stage l
        = .ok (.inside (.object [] "" :: frames) .firstKey) := by
      rw [hstage.step_eq (by simp [hl])]
      simp only [start, hl]
      rfl
    rw [List.cons_append, run_cons hstep]
    exact run_members ih hmembers

/-- Every form that keeps to the grammar is skipped up to its end. -/
theorem run_skip_of_valid (h : f.Valid) (hls : f.HasLexemes ls) (rest : List Lexeme) :
    skip.run (ls ++ rest) = .ok ((), rest) :=
  skips_of_valid h ls hls [] .value rest (.inl rfl)

end Reader

end ByteStore.Json
