import ByteStore.Proofs.Host.Opening
import ByteStore.Proofs.Store.Operations

/-!
# What a host keeps

Only a sync or a close that has been done makes a table durable, and only for the engine and the
directory of its store. Everything else that is done on a host keeps what it has kept.
-/

namespace ByteStore

/-- Whether a store keeps its data in a directory, with an engine. -/
def Store.IsAt (s : Store) (e : Engine) (p : Place) : Prop := s.engine = e ∧ s.home = some p

instance (s : Store) (e : Engine) (p : Place) : Decidable (s.IsAt e p) :=
  inferInstanceAs (Decidable (_ ∧ _))

lemma Store.isAt_serve {s : Store} {e : Engine} {p : Place} (r : Request) :
    (s.serve r).1.IsAt e p ↔ s.IsAt e p := by
  rw [IsAt, IsAt, engine_serve, home_serve]

namespace Host

variable {h h' : Host} {s : Store} {e : Engine} {p : Place}

lemma Prepares.table (hprepares : h.Prepares h') (e : Engine) (p : Place) :
    h'.table e p = h.table e p := by
  rw [Host.table, Host.table, hprepares.kept]

lemma table_keep (h : Host) (s : Store) (e : Engine) (p : Place) :
    (h.keep s).table e p = if s.IsAt e p then s.table else h.table e p := by
  by_cases hat : s.IsAt e p
  · rw [if_pos hat]
    obtain ⟨rfl, hhome⟩ := hat
    rw [keep, hhome, table, List.lookup_cons, beq_self_eq_true]
    rfl
  · rw [if_neg hat, keep]
    cases hhome : s.home with
    | none => rfl
    | some place =>
      have hne : (e, p) ≠ (s.engine, place) := by
        rintro ⟨⟩
        exact hat ⟨rfl, hhome⟩
      rw [table, table, List.lookup_cons, beq_eq_false_iff_ne.2 hne]

/-- Only what has been made durable where the store is at home changes what the host keeps. -/
lemma table_serve (h : Host) (s : Store) (r : Request) (e : Engine) (p : Place) :
    (h.serve s r).1.table e p
      = if r.makesDurable = true ∧ (s.serve r).2 = .done ∧ s.IsAt e p then (s.serve r).1.table
        else h.table e p := by
  rw [serve]
  dsimp only
  cases hdurable : r.makesDurable with
  | false => simp
  | true =>
    by_cases hdone : (s.serve r).2 = .done
    · simp [hdone, table_keep, Store.isAt_serve]
    · simp [hdone]

/-- A request that fails leaves the host as it was. -/
lemma serve_of_ne_done {r : Request} (hr : (s.serve r).2 ≠ .done) : (h.serve s r).1 = h := by
  rw [serve]
  dsimp only
  rw [beq_eq_false_iff_ne.2 hr, Bool.and_false, if_neg Bool.false_ne_true]

/-- Opening a store makes nothing durable. -/
lemma table_openStore (h : Host) (location : String) (inMemory : Bool) (e : Engine) (p : Place) :
    (h.openStore location inMemory).1.table e p = h.table e p := by
  rcases hopen : h.openStore location inMemory with ⟨h₁, (x | s)⟩
  · exact (openStore_eq_error hopen).table e p
  · obtain ⟨h₀, engine, home, findable, hprepares, hstart⟩ := openStore_eq_ok hopen
    cases hstart
    exact hprepares.table e p

end Host

end ByteStore
