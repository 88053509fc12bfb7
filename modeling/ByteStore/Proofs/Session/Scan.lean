import ByteStore.Proofs.Session.Stored

/-!
# Scans of a session

What a scan hands out is read back as the entries of the store under the prefix, in the order of
their keys (`Session.Reached.decode_scan`). It hands out nothing exactly if there is no such entry,
since a record has its length words even where key and value have no bytes.

One thing gets in the way. The engine of a store that has been fenced off refuses scans as well;
only a prefix that is longer than any key is answered without it.
-/

namespace ByteStore.Session

variable {s : Session} {handle : UInt64} {store : Store} {stem : Argument} {p : Bytes}

lemma scan_of_live (hlive : s.stores.get? handle = some store)
    (hstem : stem.read "prefix" = .ok p) :
    s.scan handle stem = match store.iterate p collect .empty with
      | (buffer, .ok ()) => .ok buffer.bytes
      | (_, .error e) => .error (.ofError e) := by
  rw [scan, hstem, store_of_live hlive]
  simp only [bind, Except.bind]
  rcases store.iterate p collect .empty with ⟨buffer, (e | ⟨⟩)⟩ <;> rfl

/-- An open store shows a scan all entries under its prefix. -/
lemma iterate_collect (hopen : store.closed = false) (hkeys : store.table.KeysValid)
    (hfits : ∀ e ∈ store.table.within (Range.ofBeginning p), e.Fits)
    (hserves : store.log ≠ .fenced ∨ Key.limit < p.length) :
    store.iterate p collect .empty
      = (⟨((store.table.within (Range.ofBeginning p)).map Wire.Scan.record).reverse⟩, .ok ()) := by
  rw [Store.iterate_of_open hopen]
  split_ifs with hlong hlog
  · rw [hkeys.within_eq_nil hlong]
    rfl
  · rcases hserves with h | h
    · exact absurd hlog h
    · exact absurd h hlong
  · rw [walk_collect hfits]
    simp [Wire.Scan.Buffer.empty]

/-- A store that has been fenced off shows nothing of what it holds. -/
lemma iterate_collect_of_fenced (hopen : store.closed = false) (hlog : store.log = .fenced)
    (hp : p.length ≤ Key.limit) :
    store.iterate p collect .empty = (.empty, .error Store.fencedError) := by
  rw [Store.iterate_of_open hopen, if_pos hlog, if_neg (Nat.not_lt.2 hp)]

lemma getD_nonempty (bytes : Bytes) : (nonempty bytes).getD [] = bytes := by
  cases bytes <;> rfl

lemma nonempty_flatMap_eq_none_iff {es : List Entry} :
    nonempty (es.flatMap Wire.Scan.record) = none ↔ es = [] := by
  rw [← Wire.Scan.flatMap_record_eq_nil_iff]
  cases es.flatMap Wire.Scan.record <;> simp [nonempty]

/--
In every state of a session whose values fit their length words, the bytes of a scan are read back
as the entries of the store under the prefix, in the order of their keys, and there are no bytes
exactly if there is no such entry. A store that has been fenced off fails the scan instead, unless
the prefix is longer than any key.
-/
theorem Reached.decode_scan {host : Host} (hhost : ∀ e p, (host.table e p).KeysValid)
    (hs : s.Reached host) (hlive : s.stores.get? handle = some store)
    (hvalues : ∀ e ∈ store.table.entries, e.value.length < Word.limit)
    (hstem : stem.read "prefix" = .ok p) :
    (store.log ≠ .fenced ∨ Key.limit < p.length → ∃ bytes entries,
      s.outcome (.scan handle stem true) = ⟨.buffer bytes (some (bytes.elim 0 List.length)), none⟩ ∧
      Wire.Scan.decode (bytes.getD []) = .ok entries ∧
      entries.Pairwise (fun a b => a.key < b.key) ∧
      (∀ e, e ∈ entries ↔ p <+: e.key ∧ store.table.get? e.key = some e.value) ∧
      (bytes = none ↔ ¬∃ key value, p <+: key ∧ store.table.get? key = some value)) ∧
    (store.log = .fenced → p.length ≤ Key.limit →
      s.outcome (.scan handle stem true)
        = .ofFailure (.scan handle stem true) (.ofError Store.fencedError)) := by
  have hopen : store.closed = false := hs.open_of_live hlive
  have hkeys : store.table.KeysValid := hs.keysValid hhost _ (.live hlive)
  refine ⟨fun hserves => ?_, fun hlog hp => ?_⟩
  · let entries := store.table.within (Range.ofBeginning p)
    have hmem (e : Entry) : e ∈ entries ↔ p <+: e.key ∧ store.table.get? e.key = some e.value := by
      rw [Table.mem_within_iff, Range.contains_ofBeginning]
    have hfits : ∀ e ∈ entries, e.Fits := by
      intro e he
      have hget : store.table.get? e.key = some e.value := ((hmem e).1 he).2
      exact ⟨(hkeys _ _ hget).length_lt, hvalues e (Table.mem_entries_iff.2 hget)⟩
    have hscan : s.scan handle stem = .ok (entries.flatMap Wire.Scan.record) := by
      rw [scan_of_live hlive hstem, iterate_collect hopen hkeys hfits hserves]
      exact congrArg Except.ok (Wire.Scan.bytes_eq_flatMap _)
    refine ⟨nonempty (entries.flatMap Wire.Scan.record), entries, ?_, ?_,
      store.table.sorted.filter _, hmem, ?_⟩
    · rw [outcome_scan, hscan, length_nonempty]
    · rw [getD_nonempty]
      exact Wire.Scan.decode_eq_ok_iff.2 ⟨hfits, rfl⟩
    · rw [nonempty_flatMap_eq_none_iff, List.eq_nil_iff_forall_not_mem]
      simp only [hmem, not_exists]
      constructor
      · exact fun h key value => h ⟨key, value⟩
      · exact fun h e => h e.key e.value
  · rw [outcome_scan, scan_of_live hlive hstem, iterate_collect_of_fenced hopen hlog hp]

/-- An entry without a value has a record all the same. -/
theorem Reached.decode_scan_emptyValue :
    let table : Table := (∅ : Table).insert [107] []
    let s := ((Session.start Host.new).callAll
      [.openStore none true, .set 1 (.bytes [107]) (.absent 0)]).1
    (∀ e p, (Host.new.table e p).KeysValid) ∧ s.Reached Host.new ∧
      s.stores.get? 1 = some ⟨0, .tree, none, table, .sound, false, fun _ => rfl⟩ ∧
      ∃ bytes entries, bytes ≠ none ∧
        s.outcome (.scan 1 (.absent 0) true)
          = ⟨.buffer bytes (some (bytes.elim 0 List.length)), none⟩ ∧
        Wire.Scan.decode (bytes.getD []) = .ok entries ∧ ⟨[107], []⟩ ∈ entries := by
  intro table s
  have hhost : ∀ e p, (Host.new.table e p).KeysValid := fun _ _ => Table.keysValid_empty
  have hs : s.Reached Host.new := Reached.callAll .start _
  have hlive : s.stores.get? 1 = some ⟨0, .tree, none, table, .sound, false, fun _ => rfl⟩ := by
    decide
  have hstem : (Argument.absent 0).read "prefix" = .ok [] := rfl
  obtain ⟨h, -⟩ := Reached.decode_scan hhost hs hlive (by decide) hstem
  obtain ⟨bytes, entries, houtcome, hdecode, -, hmem, hnone⟩ := h (Or.inl Log.noConfusion)
  have hentry : table.get? [107] = some [] := rfl
  refine ⟨hhost, hs, hlive, bytes, entries, ?_, houtcome, hdecode, ?_⟩
  · rw [ne_eq, hnone, not_not]
    exact ⟨[107], [], List.nil_prefix, hentry⟩
  · exact (hmem _).2 ⟨List.nil_prefix, hentry⟩

/--
A store whose log had lost its end when it was written to is fenced off after a flush. It still
holds its entry, but a scan of everything hands out nothing.
-/
theorem Reached.scan_ne_entries :
    let location : Bytes := [115, 108, 97, 116, 101, 100, 98, 58, 126, 107, 118]
    let s := ((Session.start Host.new).callAll
      [.openStore (some location) false, .set 1 (.bytes [97]) (.bytes [98]), .sync 1]).1
    s.Reached Host.new ∧
      (s.stores.get? 1).map (fun store => store.table.entries) = some [⟨[97], [98]⟩] ∧
      (s.outcome (.scan 1 (.absent 0) true)).reply = .buffer none (some 0) := by
  intro location s
  have hs : s.Reached Host.new := Reached.callAll .start _
  exact ⟨hs, by decide +kernel, by decide +kernel⟩

end ByteStore.Session
