import ByteStore.Proofs.Store.Reachable

/-!
# Iteration

A walk over the keys with a given beginning shows a visitor exactly the entries it asks for, in the
order of their keys. The walk skips beginnings that are longer than any key, which is sound as no
run of writes ever stores such a key (`Store.Written.keysValid`).
-/

namespace ByteStore

/-! ### Written stores -/

namespace Store

/--
The stores that come about by opening and writing. A store opens empty, or with what an earlier one
has left; refused writes count as writes.
-/
inductive Written : Store → Prop
  | opened {s : Store} (hopen : s.closed = false) (hlog : s.log ≠ .fenced)
      (hempty : s.table = ∅) : Written s
  | reopened {s s' : Store} (hs : Written s) (hopen : s'.closed = false)
      (hlog : s'.log ≠ .fenced) (htable : s'.table = s.table) : Written s'
  | served {s : Store} (hs : Written s) {r : Request} (hr : r.batch?.isSome) :
      Written (s.serve r).1

variable {s : Store}

lemma Written.closed (hs : s.Written) : s.closed = false := by
  induction hs with
  | opened hopen | reopened _ hopen => exact hopen
  | @served s _ r hr ih =>
    obtain h | ⟨ops, -, h⟩ := serve_batch_cases ih hr
    · rw [h, ih]
    · rw [h, write_closed, ih]

lemma Written.not_fenced (hs : s.Written) : s.log ≠ .fenced := by
  induction hs with
  | opened _ hlog | reopened _ _ hlog => exact hlog
  | @served s hs r hr ih =>
    obtain h | ⟨ops, -, h⟩ := serve_batch_cases hs.closed hr
    · rwa [h]
    · rwa [h, write_log, ne_eq, Log.write_eq_fenced_iff]

lemma Written.reachable (hs : s.Written) : s.Reachable := by
  induction hs with
  | opened hopen hlog hempty => exact .opened hopen hlog hempty
  | reopened _ hopen hlog htable ih => exact .reopened ih hopen hlog htable
  | served _ _ ih => exact .served ih _

/-- No run of writes stores a key that cannot be stored. -/
theorem Written.keysValid (hs : s.Written) : s.table.KeysValid := hs.reachable.keysValid

/-- A written store has a value for a key exactly if its table has. -/
lemma Written.get_eq_ok_iff (hs : s.Written) {key value : Bytes} :
    s.get key = .ok value ↔ s.table.get? key = some value :=
  Store.get_eq_ok_iff hs.closed hs.not_fenced hs.keysValid

end Store

/-! ### Walks -/

/-- A visitor that never refuses sees all entries. -/
lemma Visitor.walk_of_ok {σ : Type} {visit : Visitor σ} (hvisit : ∀ t e, (visit t e).2 = .ok ())
    (es : List Entry) (t : σ) :
    visit.walk es t = (es.foldl (fun t e => (visit t e).1) t, .ok ()) := by
  induction es generalizing t with
  | nil => rfl
  | cons e es ih =>
    have he : visit t e = ((visit t e).1, .ok ()) := by rw [← hvisit t e]
    rw [Visitor.walk, he, List.foldl_cons]
    exact ih _

namespace Store

variable {s : Store}

/-- The shortcut for overlong beginnings agrees with the walk that it spares. -/
theorem Written.iterate_eq_walk (hs : s.Written) {σ : Type} (stem : Bytes) (visit : Visitor σ)
    (t : σ) :
    s.iterate stem visit t = visit.walk (s.table.within (Range.ofBeginning stem)) t :=
  Store.iterate_eq_walk hs.closed hs.not_fenced hs.keysValid stem visit t

/--
In every store that writes can bring about, a walk over a beginning shows a visitor that never
refuses the entries whose keys begin so, each of them once, with the value that the store has for
its key, in the order of the keys. A walk hands back no store, so it leaves the store as it is.
-/
theorem Written.iterate_visits (hs : s.Written) (stem : Bytes) :
    ∃ visited : List Entry,
      visited.Pairwise (fun a b => a.key < b.key) ∧
      (∀ e, e ∈ visited ↔ stem <+: e.key ∧ s.get e.key = .ok e.value) ∧
      ∀ (σ : Type) (visit : Visitor σ), (∀ t e, (visit t e).2 = .ok ()) →
        ∀ t, s.iterate stem visit t = (visited.foldl (fun t e => (visit t e).1) t, .ok ()) := by
  refine ⟨s.table.within (Range.ofBeginning stem), s.table.sorted.filter _, fun e => ?_, ?_⟩
  · rw [Table.mem_within_iff, Range.contains_ofBeginning, hs.get_eq_ok_iff]
  · intro σ visit hvisit t
    rw [hs.iterate_eq_walk, Visitor.walk_of_ok hvisit]

/-- A beginning of greatest bytes only, which no byte string bounds. -/
theorem Written.iterate_visits_greatest :
    let new : Store := ⟨0, .tree, none, ∅, .sound, false, fun _ => rfl⟩
    let s : Store := (new.serve (.apply
      [.set [255, 0] [1], .set [254] [2], .set [255] [3], .set [255] [], .delete [255, 0]])).1
    let collect : Visitor (List Entry) := fun es e => (es ++ [e], .ok ())
    s.Written ∧ (∀ t e, (collect t e).2 = .ok ()) ∧
      ∃ visited : List Entry, visited.Pairwise (fun a b => a.key < b.key) ∧
        ⟨[255], []⟩ ∈ visited ∧ ⟨[255, 0], [1]⟩ ∉ visited ∧ ⟨[254], [2]⟩ ∉ visited ∧
        s.iterate [255] collect [] = (visited.foldl (fun t e => (collect t e).1) [], .ok ()) := by
  intro new s collect
  have hs : s.Written := .served (.opened rfl (by decide) rfl) rfl
  have hcollect : ∀ t e, (collect t e).2 = .ok () := fun _ _ => rfl
  obtain ⟨visited, hsorted, hmem, hwalk⟩ := Written.iterate_visits hs [255]
  refine ⟨hs, hcollect, visited, hsorted, ?_, ?_, ?_, hwalk _ collect hcollect []⟩
  · exact (hmem _).2 (by decide)
  · exact fun h => absurd ((hmem _).1 h) (by decide)
  · exact fun h => absurd ((hmem _).1 h) (by decide)

end Store

end ByteStore
