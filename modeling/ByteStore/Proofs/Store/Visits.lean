import ByteStore.Host
import ByteStore.Proofs.Store.Reachable

/-!
# Visitors that refuse

A visitor has a state of its own, and it may refuse an entry for whatever it has seen before.
`Visitor.Calls` says what comes of calling it on entries, one after the other: it is called on no
entry after one that it has refused. A walk calls it just so on what is under the beginning.

The engine of a store that has been fenced off refuses to be read, and then no visitor is called.
-/

namespace ByteStore

namespace Visitor

variable {σ : Type} {visit : Visitor σ} {t t' : σ} {es calls rest : List Entry}
  {result : Except Error Unit}

/-! ### Calls -/

/-- What calling a visitor on entries leads to: the state it is left in, and what it said last. -/
inductive Calls (visit : Visitor σ) : σ → List Entry → σ → Except Error Unit → Prop
  | nil (t : σ) : Calls visit t [] t (.ok ())
  | refused {t t' : σ} {e : Entry} {x : Error} (h : visit t e = (t', .error x)) :
      Calls visit t [e] t' (.error x)
  | accepted {t t' t'' : σ} {e : Entry} {es : List Entry} {result : Except Error Unit}
      (h : visit t e = (t', .ok ())) (hes : Calls visit t' es t'' result) :
      Calls visit t (e :: es) t'' result

/-- The visitor that writes down, beside its state, the entries that it is called on. -/
def recording (visit : Visitor σ) : Visitor (σ × List Entry) := fun (t, seen) e =>
  let (t', answer) := visit t e
  ((t', seen ++ [e]), answer)

/-- A recording visitor is called as the one that it records, and writes down just these calls. -/
lemma Calls.recording (h : visit.Calls t calls t' result) (seen : List Entry) :
    visit.recording.Calls (t, seen) calls (t', seen ++ calls) result := by
  induction h generalizing seen with
  | nil t =>
    rw [List.append_nil]
    exact .nil (t, seen)
  | refused h =>
    apply Calls.refused
    simp [Visitor.recording, h]
  | @accepted t t' t'' e es result h _ ih =>
    have hrecord : visit.recording (t, seen) e = ((t', seen ++ [e]), .ok ()) := by
      simp [Visitor.recording, h]
    have hrest := ih (seen ++ [e])
    rw [List.append_assoc, List.singleton_append] at hrest
    exact .accepted hrecord hrest

/-! ### Walks -/

/-- A visitor can be called on entries until it refuses one, or else on all of them. -/
lemma exists_calls (visit : Visitor σ) (es : List Entry) (t : σ) :
    ∃ calls rest t' result, es = calls ++ rest ∧ visit.Calls t calls t' result ∧
      (result = .ok () → rest = []) := by
  induction es generalizing t with
  | nil => exact ⟨[], [], t, .ok (), rfl, .nil t, fun _ => rfl⟩
  | cons e es ih =>
    rcases hvisit : visit t e with ⟨t', (x | ⟨⟩)⟩
    · exact ⟨[e], es, t', .error x, rfl, .refused hvisit, fun h => nomatch h⟩
    · obtain ⟨calls, rest, t'', result, rfl, hcalls, hrest⟩ := ih t'
      exact ⟨e :: calls, rest, t'', result, rfl, .accepted hvisit hcalls, hrest⟩

/-- A walk ends with the call that refuses, whatever comes after it. -/
lemma Calls.walk_append (h : visit.Calls t calls t' result) (hrest : result = .ok () → rest = []) :
    visit.walk (calls ++ rest) t = (t', result) := by
  induction h with
  | nil t =>
    rw [hrest rfl]
    rfl
  | refused h =>
    rw [List.singleton_append, walk, h]
  | accepted h _ ih =>
    rw [List.cons_append, walk, h]
    exact ih hrest

/-- A walk with the visitor that records is the walk of the visitor, and a list of its calls. -/
lemma exists_walk_eq (visit : Visitor σ) (es : List Entry) (t : σ) :
    ∃ calls rest t' result, es = calls ++ rest ∧ visit.Calls t calls t' result ∧
      (result = .ok () → rest = []) ∧ visit.walk es t = (t', result) ∧
      visit.recording.walk es (t, []) = ((t', calls), result) := by
  obtain ⟨calls, rest, t', result, rfl, hcalls, hrest⟩ := visit.exists_calls es t
  refine ⟨calls, rest, t', result, rfl, hcalls, hrest, hcalls.walk_append hrest, ?_⟩
  exact (hcalls.recording []).walk_append hrest

end Visitor

namespace Store

variable {s : Store}

/-! ### Stores -/

/--
An open store shows a visitor the entries under a beginning in the order of their keys, up to and
including the first one that it refuses, and answers with what the visitor said last. A store that
has been fenced off calls no visitor; it fails, unless the beginning is longer than any key.
-/
theorem Reachable.iterate_calls (hs : s.Reachable) (hopen : s.closed = false) (stem : Bytes) :
    (s.log ≠ .fenced → ∃ entries : List Entry,
      entries.Pairwise (fun a b => a.key < b.key) ∧
      (∀ e, e ∈ entries ↔ stem <+: e.key ∧ s.get e.key = .ok e.value) ∧
      ∀ (σ : Type) (visit : Visitor σ) (t : σ), ∃ calls rest t' result,
        entries = calls ++ rest ∧ visit.Calls t calls t' result ∧ (result = .ok () → rest = []) ∧
        s.iterate stem visit t = (t', result) ∧
        s.iterate stem visit.recording (t, []) = ((t', calls), result)) ∧
    (s.log = .fenced → ∀ (σ : Type) (visit : Visitor σ) (t : σ),
      s.iterate stem visit t
        = (t, if Key.limit < stem.length then .ok () else .error fencedError)) := by
  constructor
  · intro hlog
    refine ⟨s.table.within (Range.ofBeginning stem), s.table.sorted.filter _, ?_, ?_⟩
    · intro e
      rw [Table.mem_within_iff, Range.contains_ofBeginning,
        get_eq_ok_iff hopen hlog hs.keysValid]
    · intro σ visit t
      simp only [iterate_eq_walk hopen hlog hs.keysValid]
      exact visit.exists_walk_eq _ t
  · intro hlog σ visit t
    rw [iterate_of_open hopen, if_pos hlog]
    split_ifs <;> rfl

/-- A visitor that refuses the second entry that it is called on sees no third one. -/
theorem Reachable.iterate_calls_second :
    let new : Store := ⟨0, .objects, none, ∅, .lost false, false, nofun⟩
    let s : Store := (new.serve (.apply
      [.set [7, 2] [2], .set [7] [0], .set [8] [3], .set [7, 1] []])).1
    let visit : Visitor Nat := fun n _ =>
      (n + 1, if n = 1 then .error (.internal "stop") else .ok ())
    s.Reachable ∧ s.closed = false ∧ s.log ≠ .fenced ∧ s.get [7, 2] = .ok [2] ∧
      s.iterate [7] visit 0 = (2, .error (.internal "stop")) ∧
      visit.Calls 0 [⟨[7], [0]⟩, ⟨[7, 1], []⟩] 2 (.error (.internal "stop")) := by
  intro new s visit
  have hs : s.Reachable := .served (.opened rfl Log.noConfusion rfl) _
  have hlog : s.log ≠ .fenced := Log.noConfusion
  obtain ⟨entries, -, -, hentries⟩ := (Reachable.iterate_calls hs rfl [7]).1 hlog
  obtain ⟨calls, rest, t', result, -, hcalls, -, hwalk, hrecord⟩ := hentries Nat visit 0
  have hseen : s.iterate [7] visit.recording (0, [])
      = ((2, [⟨[7], [0]⟩, ⟨[7, 1], []⟩]), .error (.internal "stop")) := rfl
  cases hrecord.symm.trans hseen
  exact ⟨hs, rfl, hlog, rfl, hwalk, hcalls⟩

/--
A database whose log cannot be found is fenced off by its first write that is to be made durable.
It still counts as open, but it shows no entry, not even to a visitor that refuses none.
-/
theorem Reachable.iterate_ne_ok :
    let place : Place := [⟨['~', 'k', 'v'], by decide⟩, Host.work, Host.temporary]
    let new : Store := ⟨0, .objects, some place, ∅, .lost false, false, nofun⟩
    let s : Store := ((new.serve (.set [97] [98])).1.serve .sync).1
    (Host.new.openStore "slatedb:~kv" false).2.toOption = some new ∧ s.Reachable ∧
      s.closed = false ∧ s.table.entries = [⟨[97], [98]⟩] ∧
      s.iterate [] (fun n _ => (n + 1, .ok ())) 0 = (0, .error fencedError) := by
  intro place new s
  have hnew : new.Reachable := .opened rfl Log.noConfusion rfl
  exact ⟨by decide +kernel, .served (.served hnew _) _, rfl, rfl, rfl⟩

end Store

end ByteStore
