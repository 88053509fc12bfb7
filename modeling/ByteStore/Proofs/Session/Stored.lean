import ByteStore.Proofs.Session.Tables
import ByteStore.Proofs.Wire.Batch
import ByteStore.Proofs.Wire.Scan

/-!
# What a session stores

An entry can be written into the result of a scan only if it fits. As long as no call passes a value
that does not, all entries of a session do (`Session.Fits.callAll`), those of its open stores as
well as those that its host has kept.
-/

namespace ByteStore

/-! ### Tables -/

/-- Whether all entries of a table are short enough for their length words. -/
def Table.Fits (t : Table) : Prop := ∀ e ∈ t.entries, e.Fits

namespace Table

variable {t : Table}

lemma fits_empty : (∅ : Table).Fits := by
  intro e he
  cases he

lemma Fits.write (ht : t.Fits) {op : Operation} (hop : op.Fits) : (t.write op).Fits := by
  rintro ⟨key, value⟩ he
  rw [mem_entries_iff, get?_write] at he
  split_ifs at he with hkey
  · have hkey : key = op.key := hkey
    subst hkey
    exact ⟨hop.1, hop.2 value he⟩
  · exact ht ⟨key, value⟩ (mem_entries_iff.2 he)

lemma Fits.writeAll (ht : t.Fits) {ops : List Operation} (hops : ∀ op ∈ ops, op.Fits) :
    (t.writeAll ops).Fits := by
  induction ops generalizing t with
  | nil => exact ht
  | cons op ops ih =>
    rw [List.forall_mem_cons] at hops
    exact ih (ht.write hops.1) hops.2

end Table

lemma Key.Valid.length_lt {key : Bytes} (hkey : Valid key) : key.length < Word.limit :=
  Nat.lt_of_le_of_lt hkey.2 (by decide)

/-- Whether a request stores nothing but entries that fit. -/
def Request.Fits (r : Request) : Prop :=
  ∀ ops, r.batch? = some ops → (∀ op ∈ ops, Key.Valid op.key) → ∀ op ∈ ops, op.Fits

/-- Whether a call passes no value that is too long for its length word. -/
def Call.Fits : Call → Prop
  | .set _ _ value => value.given.length < Word.limit
  | _ => True

namespace Session

variable {s : Session} {c : Call} {handle : UInt64} {store : Store} {r : Request}

lemma Asks.fits (hasks : Asks c handle r) (hc : c.Fits) : r.Fits := by
  intro ops hops hkeys
  cases hasks with
  | close handle => cases hops
  | sync handle => cases hops
  | set handle key value =>
    cases hops
    rw [List.forall_mem_singleton] at hkeys ⊢
    exact Operation.fits_set_iff.2 ⟨hkeys.length_lt, hc⟩
  | delete handle key =>
    cases hops
    rw [List.forall_mem_singleton] at hkeys ⊢
    exact Operation.fits_delete_iff.2 hkeys.length_lt
  | apply handle hdecode =>
    cases hops
    exact (Wire.Batch.decode_eq_ok_iff.1 hdecode).1

/-! ### Sessions -/

/-- Whether all entries fit that a session can come to show. -/
structure Fits (s : Session) : Prop where
  kept : ∀ e p, (s.host.table e p).Fits
  stores : ∀ handle store, s.stores.get? handle = some store → store.table.Fits

lemma fits_iff : s.Fits ↔ ∀ t, s.Holds t → t.Fits := by
  constructor
  · rintro ⟨hkept, hstores⟩ t (⟨e, p⟩ | hlive)
    · exact hkept e p
    · exact hstores _ _ hlive
  · intro h
    exact ⟨fun e p => h _ (.kept e p), fun _ _ hlive => h _ (.live hlive)⟩

lemma Fits.call (hs : s.Fits) (hc : c.Fits) : (s.call c).1.Fits := by
  rw [fits_iff] at hs ⊢
  refine Holds.forall_call Table.fits_empty hs ?_
  intro handle r ops t hasks hops hkeys ht
  exact ht.writeAll (hasks.fits hc ops hops hkeys)

theorem Fits.callAll (hs : s.Fits) {cs : List Call} (hcs : ∀ c ∈ cs, c.Fits) :
    (s.callAll cs).1.Fits := by
  induction cs generalizing s with
  | nil => exact hs
  | cons c cs ih =>
    rw [List.forall_mem_cons] at hcs
    exact ih (hs.call hcs.1) hcs.2

lemma fits_start {host : Host} (hhost : ∀ e p, (host.table e p).Fits) : (start host).Fits where
  kept := hhost
  stores handle store hlive := by cases hlive

/-! ### Scans -/

/-- Entries that fit are all collected. -/
lemma walk_collect {es : List Entry} (hes : ∀ e ∈ es, e.Fits) (buffer : Wire.Scan.Buffer) :
    collect.walk es buffer
      = (⟨(es.map Wire.Scan.record).reverse ++ buffer.records⟩, .ok ()) := by
  induction es generalizing buffer with
  | nil => rfl
  | cons e es ih =>
    rw [List.forall_mem_cons] at hes
    rw [Visitor.walk, collect, Wire.Scan.append_of_fits hes.1]
    dsimp only
    rw [ih hes.2, List.map_cons, List.reverse_cons, List.append_assoc, List.singleton_append]

end Session

end ByteStore
