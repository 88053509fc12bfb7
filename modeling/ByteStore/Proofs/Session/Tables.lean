import ByteStore.Proofs.Host.Durability
import ByteStore.Proofs.Session.Failure
import ByteStore.Proofs.Store.Iteration

/-!
# Where the tables of a session come from

A session has the tables of its live stores and those that its host has kept. After a call each of
them is empty, or one that the session had before, or such a one with the writes that the call asks
for (`Session.Holds.of_call`). So what holds of the empty table and is kept by such writes holds of
all tables of a session, as `Session.Reached.keysValid` shows of keys that can be stored.
-/

namespace ByteStore.Session

variable {s : Session} {c : Call} {handle : UInt64} {store : Store} {r : Request} {t : Table}

/-- The tables of a session. -/
inductive Holds (s : Session) : Table → Prop
  | kept (e : Engine) (p : Place) : s.Holds (s.host.table e p)
  | live {handle : UInt64} {store : Store} (hlive : s.stores.get? handle = some store) :
      s.Holds store.table

/-- Whether a table is one of the session's with the writes of a request. -/
def Wrote (s : Session) (r : Request) (t : Table) : Prop :=
  ∃ t' ops, s.Holds t' ∧ r.batch? = some ops ∧ (∀ op ∈ ops, Key.Valid op.key) ∧ t = t'.writeAll ops

/-! ### One call -/

lemma holds_or_wrote_table_serve (hlive : s.stores.get? handle = some store) (r : Request) :
    s.Holds (store.serve r).1.table ∨ s.Wrote r (store.serve r).1.table := by
  have hstore : s.Holds store.table := .live hlive
  rcases store.serve_cases r with h | ⟨ops, hbatch, hkeys, h⟩ | ⟨-, closed, h⟩
  · rw [h]
    exact Or.inl hstore
  · rw [h]
    exact Or.inr ⟨store.table, ops, hstore, hbatch, hkeys, rfl⟩
  · rw [h]
    exact Or.inl hstore

lemma Holds.of_serve (ht : (s.serve handle r).1.Holds t) : s.Holds t ∨ s.Wrote r t := by
  cases hlive : s.stores.get? handle with
  | none =>
    rw [serve_of_dead hlive] at ht
    exact Or.inl ht
  | some store =>
    cases ht with
    | kept e p =>
      rw [host_serve hlive, Host.table_serve]
      split_ifs
      · exact holds_or_wrote_table_serve hlive r
      · exact Or.inl (.kept e p)
    | live hother =>
      rw [get?_serve hlive] at hother
      split_ifs at hother
      · cases hother
        exact holds_or_wrote_table_serve hlive r
      · exact Or.inl (.live hother)

/-- A store that opens has what its host has kept, or nothing. -/
lemma Holds.of_openStore {location : Option Bytes} {inMemory : Bool}
    (ht : (s.openStore location inMemory).1.Holds t) : t = ∅ ∨ s.Holds t := by
  rcases hread : readLocation location with f | text
  · simp only [openStore, hread] at ht
    cases ht with
    | kept e p => exact Or.inr (.kept e p)
    | live hlive => exact Or.inr (.live hlive)
  · have hkept (e : Engine) (p : Place) :
        s.Holds ((s.host.openStore text inMemory).1.table e p) := by
      rw [Host.table_openStore]
      exact .kept e p
    rcases hopen : s.host.openStore text inMemory with ⟨host, (x | store)⟩
    · rw [hopen] at hkept
      simp only [openStore, hread, hopen] at ht
      cases ht with
      | kept e p => exact Or.inr (hkept e p)
      | live hlive => exact Or.inr (.live hlive)
    · rw [hopen] at hkept
      simp only [openStore, hread, hopen] at ht
      cases ht with
      | kept e p => exact Or.inr (hkept e p)
      | @live k other hlive =>
        change (s.stores.register store).2.get? k = some other at hlive
        rw [HandleTable.get?_register] at hlive
        split_ifs at hlive
        · cases hlive
          rw [(Host.open_of_openStore hopen).2.2]
          cases store.home with
          | none => exact Or.inl rfl
          | some p => exact Or.inr (.kept store.engine p)
        · exact Or.inr (.live hlive)

/-- Where the tables come from that a session has after a call. -/
theorem Holds.of_call (ht : (s.call c).1.Holds t) :
    t = ∅ ∨ s.Holds t ∨ ∃ handle r, Asks c handle r ∧ s.Wrote r t := by
  have hcongr {s₁ s₂ : Session} (hhost : s₁.host = s₂.host) (hstores : s₁.stores = s₂.stores)
      (h : s₁.Holds t) : s₂.Holds t := by
    cases h with
    | kept e p =>
      rw [hhost]
      exact .kept e p
    | live hlive => exact .live (hstores ▸ hlive)
  cases hopens : c.opens with
  | true =>
    cases c with
    | openStore location inMemory => exact ht.of_openStore.imp_right Or.inl
    | _ => cases hopens
  | false =>
    rcases s.call_cases hopens with ⟨hhost, hstores⟩ | ⟨handle, r, hasks, -, hhost, hstores⟩
    · exact Or.inr (Or.inl (hcongr hhost hstores ht))
    · rcases (hcongr hhost hstores ht).of_serve with h | h
      · exact Or.inr (Or.inl h)
      · exact Or.inr (Or.inr ⟨handle, r, hasks, h⟩)

/-- What holds of all tables of a session still does after a call whose writes keep it. -/
lemma Holds.forall_call {P : Table → Prop} (hempty : P ∅) (hs : ∀ t, s.Holds t → P t)
    (hwrites : ∀ handle r ops t, Asks c handle r → r.batch? = some ops →
      (∀ op ∈ ops, Key.Valid op.key) → P t → P (t.writeAll ops)) :
    ∀ t, (s.call c).1.Holds t → P t := by
  intro t ht
  rcases ht.of_call with rfl | ht | ⟨handle, r, hasks, t', ops, ht', hops, hkeys, rfl⟩
  · exact hempty
  · exact hs t ht
  · exact hwrites handle r ops t' hasks hops hkeys (hs t' ht')

/-! ### All calls -/

lemma Holds.of_start {host : Host} (ht : (start host).Holds t) : ∃ e p, t = host.table e p := by
  cases ht with
  | kept e p => exact ⟨e, p, rfl⟩
  | live hlive => cases hlive

/-- A session stores no key that cannot be stored, if none has been left by an earlier one. -/
theorem Reached.keysValid {host : Host} (hhost : ∀ e p, (host.table e p).KeysValid)
    (hs : s.Reached host) : ∀ t, s.Holds t → t.KeysValid := by
  induction hs with
  | start =>
    intro t ht
    obtain ⟨e, p, rfl⟩ := ht.of_start
    exact hhost e p
  | call hs c ih =>
    refine Holds.forall_call Table.keysValid_empty ih ?_
    intro handle r ops t _ _ hkeys ht
    exact ht.writeAll hkeys

end ByteStore.Session
