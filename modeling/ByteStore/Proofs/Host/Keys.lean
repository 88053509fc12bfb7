import ByteStore.Proofs.Host.Sittings
import ByteStore.Proofs.Store.Reachable

/-!
# Stored keys

A key comes into a store by a single write, with a batch, or with what an earlier store has left in
the same directory. Each of these ways checks it, or finds it checked, so whatever is done on a host
that has kept nothing, no store holds a key that cannot be stored (`World.KeysValid.stepAll`). This
is why a scan may pass over beginnings that are longer than any key.
-/

namespace ByteStore

/-- No key is bound twice. -/
lemma Table.nodup_keys (t : Table) : (t.entries.map Entry.key).Nodup := by
  rw [List.Nodup, List.pairwise_map]
  apply t.sorted.imp
  intro a b hlt heq
  rw [heq] at hlt
  exact List.lt_irrefl b.key hlt

namespace World

variable {w : World} {host : Host}

/-! ### One event -/

/-- Whether all keys that are bound, in the stores and in what the host keeps, can be stored. -/
structure KeysValid (w : World) : Prop where
  kept : ∀ e p, (w.host.table e p).KeysValid
  stored : ∀ x ∈ w.sittings, x.store.table.KeysValid

lemma keysValid_start (hnew : ∀ e p, host.table e p = ∅) : (start host).KeysValid where
  kept e p := hnew e p ▸ Table.keysValid_empty
  stored x hx := by cases hx

lemma KeysValid.openStore (hw : w.KeysValid) (location : String) (inMemory : Bool) :
    (w.step (.openStore location inMemory)).KeysValid := by
  have htable := w.host.table_openStore location inMemory
  rw [step]
  rcases hopen : w.host.openStore location inMemory with ⟨host, (error | store)⟩
  · rw [hopen] at htable
    exact ⟨fun e p => htable e p ▸ hw.kept e p, hw.stored⟩
  · rw [hopen] at htable
    refine ⟨fun e p => htable e p ▸ hw.kept e p, List.forall_mem_cons.2 ⟨?_, hw.stored⟩⟩
    -- A store starts with nothing, or with what its engine has kept in its directory.
    obtain ⟨-, -, hstart⟩ := Host.open_of_openStore hopen
    change store.table.KeysValid
    rw [hstart]
    cases store.home with
    | none => exact Table.keysValid_empty
    | some p => exact hw.kept store.engine p

/-- A sitting that goes on may change its own table. -/
lemma KeysValid.set (hw : w.KeysValid) {host : Host} (i : Nat) {y : Sitting}
    (hkept : ∀ e p, (host.table e p).KeysValid) (hy : y.store.table.KeysValid) :
    (⟨host, w.sittings.set i y⟩ : World).KeysValid := by
  refine ⟨hkept, ?_⟩
  intro x hx
  rcases List.mem_or_eq_of_mem_set hx with hx | rfl
  · exact hw.stored x hx
  · exact hy

lemma KeysValid.ask (hw : w.KeysValid) (i : Nat) (r : Request) : (w.step (.ask i r)).KeysValid := by
  rw [step]
  split
  · rename_i x hx
    split_ifs
    · exact hw
    · have hstored := Store.keysValid_serve (hw.stored x (List.mem_of_getElem? hx)) r
      refine hw.set i ?_ hstored
      intro e p
      rw [Host.table_serve]
      split_ifs
      · exact hstored
      · exact hw.kept e p
  · exact hw

lemma KeysValid.drop (hw : w.KeysValid) (i : Nat) : (w.step (.drop i)).KeysValid := by
  rw [step]
  split
  · rename_i x hx
    exact hw.set i hw.kept (hw.stored x (List.mem_of_getElem? hx))
  · exact hw

theorem KeysValid.step (hw : w.KeysValid) (event : Event) : (w.step event).KeysValid := by
  cases event with
  | openStore location inMemory => exact hw.openStore location inMemory
  | ask i r => exact hw.ask i r
  | drop i => exact hw.drop i

/-! ### All events -/

/-- The world after events, one after the other. -/
def stepAll (w : World) (events : List Event) : World := events.foldl World.step w

theorem KeysValid.stepAll (hw : w.KeysValid) (events : List Event) :
    (w.stepAll events).KeysValid := by
  induction events generalizing w with
  | nil => exact hw
  | cons event events ih => exact ih (hw.step event)

/--
Whatever is done with the stores of a host that has kept nothing, the keys that a store holds can
all be stored, and none of them is held twice. So a store holds nothing under a beginning that is
longer than any key, and the shortcut for such beginnings agrees with the walk that it spares.
-/
theorem keys_stepAll (hnew : ∀ e p, host.table e p = ∅) (events : List Event) :
    ∀ x ∈ ((start host).stepAll events).sittings,
      (∀ e ∈ x.store.table.entries, e.key ≠ [] ∧ e.key.length ≤ Key.limit) ∧
      (x.store.table.entries.map Entry.key).Nodup ∧
      ∀ stem : Bytes, Key.limit < stem.length →
        x.store.table.within (Range.ofBeginning stem) = [] ∧
        (x.store.closed = false → ∀ (σ : Type) (visit : Visitor σ) (t : σ),
          x.store.iterate stem visit t
            = visit.walk (x.store.table.within (Range.ofBeginning stem)) t) := by
  intro x hx
  have hkeys : x.store.table.KeysValid := ((keysValid_start hnew).stepAll events).stored x hx
  refine ⟨?_, x.store.table.nodup_keys, ?_⟩
  · intro e he
    exact hkeys e.key e.value (Table.mem_entries_iff.1 he)
  · intro stem hstem
    have hnil := hkeys.within_eq_nil hstem
    refine ⟨hnil, ?_⟩
    intro hopen σ visit t
    rw [Store.iterate_of_open hopen, if_pos hstem, hnil]
    rfl

/-- A store that has been opened again, with a refused batch before it was closed. -/
theorem keys_stepAll_reopened :
    let w := (start Host.new).stepAll [.openStore "a" false, .ask 0 (.set [107] [118]),
      .ask 0 (.apply [.set [108] [], .set [] [118]]), .ask 0 .close, .openStore "./a" false]
    let stem : Bytes := List.replicate 65536 107
    (∀ e p, Host.new.table e p = ∅) ∧ Key.limit < stem.length ∧
      ∃ x ∈ w.sittings, x.store.closed = false ∧ x.store.table.entries = [⟨[107], [118]⟩] ∧
        (∀ e ∈ x.store.table.entries, e.key ≠ [] ∧ e.key.length ≤ Key.limit) ∧
        x.store.table.within (Range.ofBeginning stem) = [] ∧
        x.store.iterate stem (fun n _ => (n + 1, .ok ())) 0 = (0, .ok ()) := by
  intro w stem
  have hnew : ∀ e p, Host.new.table e p = ∅ := fun _ _ => rfl
  have hstem : Key.limit < stem.length := by
    rw [List.length_replicate]
    decide
  have hstored : w.sittings.map (fun x => (x.store.closed, x.store.table.entries))
      = [(false, [⟨[107], [118]⟩]), (true, [⟨[107], [118]⟩])] := by decide +kernel
  obtain ⟨x, hx, heq⟩ : ∃ x ∈ w.sittings,
      (x.store.closed, x.store.table.entries) = (false, [⟨[107], [118]⟩]) := by
    rw [← List.mem_map, hstored]
    exact List.mem_cons_self
  obtain ⟨hopen, hentries⟩ := Prod.mk.inj heq
  obtain ⟨hkeys, -, hscan⟩ := keys_stepAll hnew _ x hx
  obtain ⟨hnil, hwalk⟩ := hscan stem hstem
  refine ⟨hnew, hstem, x, hx, hopen, hentries, hkeys, hnil, ?_⟩
  rw [hwalk hopen, hnil]
  rfl

end World

end ByteStore
