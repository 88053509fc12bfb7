import ByteStore.Proofs.Host.Additions
import ByteStore.Proofs.Session.LastError

/-!
# Opens that fail

An open that fails leaves the stores of a session and its handles alone, so the next store that opens
is given the handle that it would have been given anyway. On the host, an open may leave directories
behind, on the way to the path of its location (`Host.Spares`).
-/

namespace ByteStore.Session

variable {s : Session} {location : Option Bytes} {inMemory : Bool} {f : Failure}

/-! ### Handles -/

lemma next_call_of_opened {c : Call} (hopened : opened [⟨c, s.outcome c, s.failure? c⟩] = 0) :
    (s.call c).1.stores.next = s.stores.next := by
  rw [opened, List.countP_eq_zero, List.forall_mem_singleton] at hopened
  rw [next_call, if_neg hopened, UInt64.add_zero]

/-- A run in which no store opens takes no handle. -/
lemma next_runAll {actions : List Action} (hopened : opened (s.runAll actions).2 = 0) :
    (s.runAll actions).1.stores.next = s.stores.next := by
  induction actions generalizing s with
  | nil => rfl
  | cons action actions ih =>
    cases action with
    | call c =>
      rw [runAll_call, opened_cons, Nat.add_eq_zero_iff] at hopened
      rw [runAll_call, ih hopened.2, next_call_of_opened hopened.1]
    | lastError => exact ih hopened
    | freeBuffer bytes length => exact ih hopened
    | freeString text => exact ih hopened

lemma reply_openStore_of_failure (hf : s.failure? (.openStore location inMemory) = some f) :
    (s.call (.openStore location inMemory)).2 = .handle 0 :=
  congrArg Outcome.reply (outcome_of_failure hf)

lemma reply_openStore_of_success (hopen : s.failure? (.openStore location inMemory) = none) :
    (s.call (.openStore location inMemory)).2 = .handle s.stores.next := by
  have houtcome := s.outcome_openStore location inMemory
  rw [hopen] at houtcome
  exact congrArg Outcome.reply houtcome

lemma stores_openStore_of_failure (hf : s.failure? (.openStore location inMemory) = some f) :
    (s.call (.openStore location inMemory)).1.stores = s.stores := by
  rcases hread : readLocation location with f' | text
  · simp only [call, openStore, hread]
    rfl
  · rcases hopen : s.host.openStore text inMemory with ⟨host, e | store⟩
    · simp only [call, openStore, hread, hopen]
      rfl
    · simp only [failure?, hread, hopen] at hf
      cases hf

/-! ### Failures -/

/--
An open gives a store or says that it has failed to open one. It spares the host; and if it fails,
it returns no handle, it leaves the stores alone, and the next store to open is given the handle that
it would have been given without the failure.
-/
theorem openStore_spares (s : Session) (inMemory : Bool) :
    (∀ text : String,
      ((∃ store, (s.host.openStore text inMemory).2 = .ok store) ∨
        ∃ reason, (s.host.openStore text inMemory).2 = .error (.openFailed reason)) ∧
      s.host.Spares text inMemory (s.host.openStore text inMemory).1) ∧
    ∀ location f, s.failure? (.openStore location inMemory) = some f →
      (s.call (.openStore location inMemory)).2 = .handle 0 ∧
      (s.call (.openStore location inMemory)).1.stores = s.stores ∧
      ∀ t, t = s ∨ t = (s.call (.openStore location inMemory)).1 →
        ∀ actions, opened (t.runAll actions).2 = 0 → ∀ location' inMemory',
          (t.runAll actions).1.failure? (.openStore location' inMemory') = none →
            ((t.runAll actions).1.call (.openStore location' inMemory')).2
              = .handle s.stores.next := by
  constructor
  · intro text
    exact ⟨s.host.openStore_ok_or_openFailed text inMemory, s.host.spares_openStore text inMemory⟩
  · intro location f hf
    have hstores := stores_openStore_of_failure hf
    refine ⟨reply_openStore_of_failure hf, hstores, ?_⟩
    intro t ht actions hopened location' inMemory' hopen
    have hnext : t.stores.next = s.stores.next := by
      rcases ht with rfl | rfl
      · rfl
      · rw [hstores]
    rw [reply_openStore_of_success hopen, next_runAll hopened, hnext]

/-- The directory of a store is made before its settings turn out to be of no known format. -/
theorem openStore_spares_settings :
    let s := start Host.new
    let location := "slatedb:\x7b\"path\":\"d\",\"settings_path\":\"x\"\x7d"
    let s' := (s.call (.openStore (some location.toUTF8.toList) false)).1
    s.failure? (.openStore (some location.toUTF8.toList) false) ≠ none ∧
      s'.stores = s.stores ∧
      s.host.Spares location false s'.host ∧
      s.host.status "d" = none ∧ s'.host.status "d" = some .directory ∧
      (s'.call (.openStore none true)).2 = .handle 1 := by
  intro s location s'
  have hfailed : s.failure? (.openStore (some location.toUTF8.toList) false) ≠ none := by
    decide +kernel
  obtain ⟨f, hf⟩ := Option.ne_none_iff_exists'.1 hfailed
  obtain ⟨hhost, hsession⟩ := openStore_spares s false
  obtain ⟨-, hstores, hnext⟩ := hsession _ f hf
  have hhost' : s'.host = (s.host.openStore location false).1 := by decide +kernel
  refine ⟨hfailed, hstores, ?_, by decide +kernel, by decide +kernel, ?_⟩
  · rw [hhost']
    exact (hhost location).2
  · exact hnext s' (.inr rfl) [] rfl none true (by decide +kernel)

end ByteStore.Session
