import ByteStore.HandleTable
import Mathlib.Tactic.Common

/-!
# The history of a handle table

What a table answers can be read off its history. The handles that it gives out are 1, 2, 3 and so
on. A handle looks up to what has been registered under it, until it is released; then it is invalid
for good, as no later registration is given it again.

`Agrees` ties a table to its history. One query keeps it (`Agrees.serve`), so every run does
(`Run.agrees`), for as long as the counter has handles left.
-/

namespace ByteStore.HandleTable

variable {α : Type}

/-! ### Runs -/

/-- What a table can be asked for. -/
inductive Query (α : Type)
  | register (thing : α)
  | lookup (handle : UInt64)
  | release (handle : UInt64)

/-- What a table answers. -/
inductive Response (α : Type)
  | handle (handle : UInt64)
  | found (thing : α)
  | released
  | failed (error : Error)
  deriving DecidableEq

/-- Answers a query. -/
def serve (t : HandleTable α) : Query α → HandleTable α × Response α
  | .register a =>
    let (h, t') := t.register a
    (t', .handle h)
  | .lookup h =>
    match t.lookup h with
    | .ok a => (t, .found a)
    | .error e => (t, .failed e)
  | .release h =>
    match t.release h with
    | .ok t' => (t', .released)
    | .error e => (t, .failed e)

/-- The tables that queries make of an empty one, with the queries and their answers in order. -/
inductive Run : List (Query α × Response α) → HandleTable α → Prop
  | start : Run [] empty
  | serve {history : List (Query α × Response α)} {t : HandleTable α} (hr : Run history t)
      (q : Query α) : Run (history ++ [(q, (t.serve q).2)]) (t.serve q).1

/-! ### Histories -/

/-- The number of registrations in a history. -/
def registrations (history : List (Query α × Response α)) : Nat :=
  history.countP fun x => match x.1 with
    | .register _ => true
    | _ => false

/-- The handles that have been given out, in order. -/
def issued (history : List (Query α × Response α)) : List UInt64 :=
  history.filterMap fun x => match x.2 with
    | .handle h => some h
    | _ => none

/-- Whether a thing has been registered under a handle that has not been released since. -/
def Holds (history : List (Query α × Response α)) (h : UInt64) (a : α) : Prop :=
  ∃ before after, history = before ++ (.register a, .handle h) :: after ∧
    (.release h, .released) ∉ after

/-- The handle that a query is about: the next one for a registration. -/
def subject (t : HandleTable α) : Query α → UInt64
  | .register _ => t.next
  | .lookup h | .release h => h

variable {history : List (Query α × Response α)} {t : HandleTable α} {h k : UInt64} {a : α}

lemma registrations_concat (history : List (Query α × Response α)) (x : Query α × Response α) :
    registrations (history ++ [x]) = registrations history + registrations [x] :=
  List.countP_append

lemma issued_concat (history : List (Query α × Response α)) (x : Query α × Response α) :
    issued (history ++ [x]) = issued history ++ issued [x] :=
  List.filterMap_append

lemma holds_concat {x : Query α × Response α} :
    Holds (history ++ [x]) h a ↔
      x = (.register a, .handle h) ∨ Holds history h a ∧ x ≠ (.release h, .released) := by
  constructor
  · rintro ⟨before, after, heq, hafter⟩
    rcases List.eq_nil_or_concat after with rfl | ⟨after, y, rfl⟩
    · obtain ⟨-, rfl⟩ := List.append_inj' heq rfl |>.imp id List.singleton_inj.1
      exact Or.inl rfl
    · rw [List.concat_eq_append, ← List.cons_append, ← List.append_assoc] at heq
      obtain ⟨rfl, hxy⟩ := List.append_inj' heq rfl
      obtain rfl := List.singleton_inj.1 hxy
      rw [List.concat_eq_append, List.mem_append, not_or, List.mem_singleton] at hafter
      exact Or.inr ⟨⟨before, after, rfl, hafter.1⟩, Ne.symm hafter.2⟩
  · rintro (rfl | ⟨⟨before, after, rfl, hafter⟩, hx⟩)
    · exact ⟨history, [], rfl, List.not_mem_nil⟩
    · refine ⟨before, after ++ [x], by rw [List.append_assoc, List.cons_append], ?_⟩
      rw [List.mem_append, not_or, List.mem_singleton]
      exact ⟨hafter, Ne.symm hx⟩

lemma Holds.mem_issued (hh : Holds history h a) : h ∈ issued history := by
  obtain ⟨before, after, rfl, -⟩ := hh
  exact List.mem_filterMap.2 ⟨_, List.mem_append_right _ List.mem_cons_self, rfl⟩

/-! ### Single queries -/

lemma serve_lookup_of_some (hh : t.get? h = some a) : t.serve (.lookup h) = (t, .found a) := by
  rw [serve, lookup, hh]

lemma serve_lookup_of_none (hh : t.get? h = none) :
    t.serve (.lookup h) = (t, .failed (.invalidHandle h)) := by
  rw [serve, lookup, hh]

lemma next_release {t' : HandleTable α} (hrelease : t.release h = .ok t') : t'.next = t.next := by
  rw [release] at hrelease
  split at hrelease
  · cases hrelease
    rfl
  · cases hrelease

lemma serve_release_of_some (hh : t.get? h = some a) :
    ∃ t', t.release h = .ok t' ∧ t.serve (.release h) = (t', .released) := by
  rw [serve, release, hh]
  exact ⟨_, rfl, rfl⟩

lemma serve_release_of_none (hh : t.get? h = none) :
    t.serve (.release h) = (t, .failed (.invalidHandle h)) := by
  rw [serve, release, hh]

/-- A query about one handle changes no other one. -/
lemma get?_serve_of_ne (q : Query α) (hk : t.subject q ≠ k) :
    (t.serve q).1.get? k = t.get? k := by
  cases q with
  | register a => exact (get?_register ..).trans (if_neg (Ne.symm hk))
  | lookup h =>
    cases hh : t.get? h with
    | some a => rw [serve_lookup_of_some hh]
    | none => rw [serve_lookup_of_none hh]
  | release h =>
    cases hh : t.get? h with
    | some a =>
      obtain ⟨t', hrelease, heq⟩ := serve_release_of_some hh
      rw [heq, get?_release hrelease]
      exact if_neg (Ne.symm hk)
    | none => rw [serve_release_of_none hh]

/-! ### Tables and their histories -/

/-- A table agrees with a history if it holds what the history says, and counts on from there. -/
structure Agrees (history : List (Query α × Response α)) (t : HandleTable α) : Prop where
  issued_eq : (issued history).map UInt64.toNat = List.range' 1 (registrations history)
  next_eq : t.next.toNat = registrations history + 1
  holds_iff : ∀ h a, t.get? h = some a ↔ Holds history h a
  issued_of_released : ∀ h, (.release h, .released) ∈ history → h ∈ issued history
  not_holds_of_released : ∀ h a, (.release h, .released) ∈ history → ¬Holds history h a

lemma Agrees.start : Agrees [] (empty : HandleTable α) where
  issued_eq := rfl
  next_eq := rfl
  holds_iff h a := by
    constructor
    · intro hh
      cases hh
    · rintro ⟨before, after, heq, -⟩
      exact absurd heq.symm (List.append_ne_nil_of_right_ne_nil _ (List.cons_ne_nil _ _))
  issued_of_released h hh := absurd hh List.not_mem_nil
  not_holds_of_released h a hh := absurd hh List.not_mem_nil

/-- The next handle has never been given out. -/
lemma Agrees.next_notMem (hagrees : Agrees history t) : t.next ∉ issued history := by
  intro hmem
  have hrange := List.mem_map_of_mem (f := UInt64.toNat) hmem
  rw [hagrees.issued_eq, List.mem_range'_1, hagrees.next_eq] at hrange
  omega

lemma Agrees.get?_eq_none_iff (hagrees : Agrees history t) :
    t.get? h = none ↔ ∀ a, ¬Holds history h a := by
  rw [Option.eq_none_iff_forall_not_mem]
  exact forall_congr' fun a => not_congr (hagrees.holds_iff h a)

/-- An answer that neither gives out a handle nor takes one back leaves everything as it was. -/
lemma Agrees.concat (hagrees : Agrees history t) {q : Query α} {r : Response α}
    (hq : registrations [(q, r)] = 0) (hissued : issued [(q, r)] = [])
    (hregister : ∀ h a, (q, r) ≠ (.register a, .handle h))
    (hrelease : ∀ h, (q, r) ≠ (.release h, .released)) : Agrees (history ++ [(q, r)]) t where
  issued_eq := by
    rw [issued_concat, registrations_concat, hq, hissued, List.append_nil]
    exact hagrees.issued_eq
  next_eq := by
    rw [registrations_concat, hq]
    exact hagrees.next_eq
  holds_iff h a := by
    rw [hagrees.holds_iff, holds_concat]
    constructor
    · intro hh
      exact Or.inr ⟨hh, hrelease h⟩
    · rintro (heq | ⟨hh, -⟩)
      · exact absurd heq (hregister h a)
      · exact hh
  issued_of_released h hh := by
    rcases List.mem_append.1 hh with hh | hh
    · exact issued_concat .. ▸ List.mem_append_left _ (hagrees.issued_of_released h hh)
    · exact absurd (List.mem_singleton.1 hh).symm (hrelease h)
  not_holds_of_released h a hh := by
    rw [holds_concat]
    rintro (heq | ⟨hholds, -⟩)
    · exact hregister h a heq
    · rcases List.mem_append.1 hh with hh | hh
      · exact hagrees.not_holds_of_released h a hh hholds
      · exact hrelease h (List.mem_singleton.1 hh).symm

lemma Agrees.register (hagrees : Agrees history t) (a : α)
    (hn : registrations history + 1 < UInt64.size - 1) :
    Agrees (history ++ [(.register a, .handle t.next)]) (t.register a).2 where
  issued_eq := by
    rw [issued_concat, registrations_concat, List.map_append, hagrees.issued_eq]
    have hlast : (issued [((.register a : Query α), Response.handle t.next)]).map UInt64.toNat
        = [registrations history + 1] := congrArg (fun n => [n]) hagrees.next_eq
    rw [hlast, Nat.add_comm (registrations history) 1, ← List.range'_1_concat]
    rfl
  next_eq := by
    have hnext : (t.next + 1).toNat = t.next.toNat + 1 := by
      have hlt : registrations history + 1 + 1 < UInt64.size := by omega
      rw [UInt64.toNat_add, UInt64.toNat_one, hagrees.next_eq]
      exact Nat.mod_eq_of_lt hlt
    rw [registrations_concat, HandleTable.register, hnext, hagrees.next_eq]
    rfl
  holds_iff h b := by
    rw [get?_register, holds_concat, ← hagrees.holds_iff]
    split_ifs with hh
    · subst hh
      have hfresh : t.get? t.next = none :=
        hagrees.get?_eq_none_iff.2 fun b hb => hagrees.next_notMem hb.mem_issued
      simp [hfresh]
    · simp [Ne.symm hh]
  issued_of_released h hh := by
    rcases List.mem_append.1 hh with hh | hh
    · exact issued_concat .. ▸ List.mem_append_left _ (hagrees.issued_of_released h hh)
    · cases List.mem_singleton.1 hh
  not_holds_of_released h b hh := by
    rcases List.mem_append.1 hh with hh | hh
    · rw [holds_concat]
      rintro (heq | ⟨hholds, -⟩)
      · -- A released handle has been given out before, so it is not the next one.
        cases heq
        exact hagrees.next_notMem (hagrees.issued_of_released _ hh)
      · exact hagrees.not_holds_of_released h b hh hholds
    · cases List.mem_singleton.1 hh

lemma Agrees.release {t' : HandleTable α} (hagrees : Agrees history t)
    (hrelease : t.release h = .ok t') (hh : Holds history h a) :
    Agrees (history ++ [(.release h, .released)]) t' where
  issued_eq := by
    rw [issued_concat, registrations_concat]
    exact (congrArg _ (List.append_nil _)).trans hagrees.issued_eq
  next_eq := by
    rw [registrations_concat, next_release hrelease]
    exact hagrees.next_eq
  holds_iff k b := by
    rw [get?_release hrelease, holds_concat]
    split_ifs with hk
    · subst hk
      simp
    · rw [hagrees.holds_iff]
      simp [Ne.symm hk]
  issued_of_released k hk := by
    rw [issued_concat]
    refine List.mem_append_left _ ?_
    rcases List.mem_append.1 hk with hk | hk
    · exact hagrees.issued_of_released k hk
    · cases List.mem_singleton.1 hk
      exact hh.mem_issued
  not_holds_of_released k b hk := by
    rw [holds_concat]
    rintro (heq | ⟨hholds, hne⟩)
    · cases heq
    · rcases List.mem_append.1 hk with hk | hk
      · exact hagrees.not_holds_of_released k b hk hholds
      · exact hne (List.mem_singleton.1 hk).symm

/-- A table that agrees with its history still does after one more query. -/
theorem Agrees.serve (hagrees : Agrees history t) (q : Query α)
    (hn : registrations (history ++ [(q, (t.serve q).2)]) < UInt64.size - 1) :
    Agrees (history ++ [(q, (t.serve q).2)]) (t.serve q).1 := by
  cases q with
  | register a =>
    rw [registrations_concat] at hn
    exact hagrees.register a hn
  | lookup h =>
    cases hh : t.get? h with
    | some a =>
      rw [serve_lookup_of_some hh]
      exact hagrees.concat rfl rfl (by simp) (by simp)
    | none =>
      rw [serve_lookup_of_none hh]
      exact hagrees.concat rfl rfl (by simp) (by simp)
  | release h =>
    cases hh : t.get? h with
    | some a =>
      obtain ⟨t', hrelease, heq⟩ := serve_release_of_some hh
      rw [heq]
      exact hagrees.release hrelease ((hagrees.holds_iff h a).1 hh)
    | none =>
      rw [serve_release_of_none hh]
      exact hagrees.concat rfl rfl (by simp) (by simp)

theorem Run.agrees (hr : Run history t) (hn : registrations history < UInt64.size - 1) :
    Agrees history t := by
  induction hr with
  | start => exact Agrees.start
  | serve hr q ih =>
    refine (ih ?_).serve q hn
    rw [registrations_concat] at hn
    omega

/-! ### What every table does -/

/--
The handles of a run are 1, 2, 3 and so on. A handle looks up to what its history holds under it,
and to nothing else; exactly then it can be released, and afterwards it is invalid for ever. What
fails changes nothing, and no query changes what any handle but its own looks up to.
-/
theorem Run.serve_eq_history (hr : Run history t) (hn : registrations history < UInt64.size - 1) :
    (issued history).map UInt64.toNat = List.range' 1 (registrations history) ∧
      (∀ h a, Holds history h a →
        t.serve (.lookup h) = (t, .found a) ∧ (t.serve (.release h)).2 = .released) ∧
      (∀ h, (∀ a, ¬Holds history h a) →
        t.serve (.lookup h) = (t, .failed (.invalidHandle h)) ∧
          t.serve (.release h) = (t, .failed (.invalidHandle h))) ∧
      (∀ h a, (.release h, .released) ∈ history → ¬Holds history h a) ∧
      ∀ q h, t.subject q ≠ h →
        ((t.serve q).1.serve (.lookup h)).2 = (t.serve (.lookup h)).2 := by
  have hagrees := hr.agrees hn
  refine ⟨hagrees.issued_eq, fun h a hh => ?_, fun h hh => ?_, hagrees.not_holds_of_released,
    fun q h hq => ?_⟩
  · have hget := (hagrees.holds_iff h a).2 hh
    obtain ⟨t', -, heq⟩ := serve_release_of_some hget
    exact ⟨serve_lookup_of_some hget, by rw [heq]⟩
  · have hget := hagrees.get?_eq_none_iff.2 hh
    exact ⟨serve_lookup_of_none hget, serve_release_of_none hget⟩
  · have hsame := get?_serve_of_ne q hq
    cases hget : t.get? h with
    | some a => rw [serve_lookup_of_some (hsame.trans hget), serve_lookup_of_some hget]
    | none => rw [serve_lookup_of_none (hsame.trans hget), serve_lookup_of_none hget]

/-- The first of three handles has been released, and stays invalid when the third is given out. -/
theorem Run.serve_eq_history_stale :
    let t : HandleTable Nat := ⟨4, [(3, 30), (2, 20)]⟩
    let history : List (Query Nat × Response Nat) :=
      [(.register 10, .handle 1), (.register 20, .handle 2), (.release 1, .released),
        (.release 1, .failed (.invalidHandle 1)), (.register 30, .handle 3)]
    Run history t ∧ registrations history < UInt64.size - 1 ∧
      (issued history).map UInt64.toNat = [1, 2, 3] ∧
      Holds history 2 20 ∧ t.serve (.lookup 2) = (t, .found 20) ∧
      (.release 1, .released) ∈ history ∧
      t.serve (.lookup 1) = (t, .failed (.invalidHandle 1)) ∧ t.subject (.release 3) ≠ 2 ∧
      ((t.serve (.release 3)).1.serve (.lookup 2)).2 = .found 20 := by
  intro t history
  have hr : Run history t :=
    ((((Run.start.serve (.register 10)).serve (.register 20)).serve (.release 1)).serve
      (.release 1)).serve (.register 30)
  have hn : registrations history < UInt64.size - 1 := by decide
  have hholds : Holds history 2 20 := ⟨[(.register 10, .handle 1)], _, rfl, by simp⟩
  have hreleased : (.release 1, .released) ∈ history := by simp [history]
  have hother : t.subject (.release 3) ≠ 2 := by decide
  obtain ⟨hissued, hlive, hdead, hgone, hframe⟩ := Run.serve_eq_history hr hn
  have hlookup := (hlive 2 20 hholds).1
  refine ⟨hr, hn, hissued, hholds, hlookup, hreleased, ?_, hother, ?_⟩
  · exact (hdead 1 fun a => hgone 1 a hreleased).1
  · rw [hframe _ _ hother, hlookup]

end ByteStore.HandleTable
