import ByteStore.Proofs.Session.Checks
import ByteStore.Proofs.Session.Foreseen
import ByteStore.Proofs.Session.LastError

/-!
# Live handles

A live handle of a session has been given out by it, and it names a store that is open and that no
other live handle names. A store that is closed loses its handle in the same call, so no call ever
meets a closed store (`Session.liveStores_runAll`).

`Moves.origin` says where a store comes from that is live after a call. The invariant `Numbered`
follows from it for one call (`Numbered.call`) and for every run (`Numbered.runAll`), for as long as
there are handles left.
-/

namespace ByteStore

/-! ### Serial numbers -/

@[simp] lemma Store.serial_serve (s : Store) (r : Request) : (s.serve r).1.serial = s.serial := by
  rcases s.serve_cases r with h | ⟨ops, -, -, h⟩ | ⟨-, closed, h⟩
  · rw [h]
  · rw [h]
    rfl
  · rw [h]

namespace Host

variable {h h' : Host} {location : String} {inMemory : Bool}

@[simp] lemma opened_keep (h : Host) (s : Store) : (h.keep s).opened = h.opened := by
  rw [keep]
  cases s.home <;> rfl

@[simp] lemma opened_serve (h : Host) (s : Store) (r : Request) :
    (h.serve s r).1.opened = h.opened := by
  rw [serve]
  dsimp only
  split_ifs
  · exact opened_keep h _
  · rfl

/-- A store that opens is given the next number. -/
lemma serial_of_openStore {s : Store} (hs : h.openStore location inMemory = (h', .ok s)) :
    s.serial = h.opened ∧ h'.opened = h.opened + 1 := by
  obtain ⟨h₀, e, home, findable, hprepares, hstart⟩ := openStore_eq_ok hs
  cases hstart
  rw [← hprepares.opened]
  exact ⟨rfl, rfl⟩

end Host

namespace Session

variable {s : Session} {host : Host} {stores : HandleTable Store} {handle k l : UInt64}
  {store t u : Store} {c : Call} {f : Failure}

/-! ### Stores under handles -/

/-- A store that is live after a move has been so before, or it is new and has the next handle. -/
lemma Moves.origin (hmoves : s.Moves host stores) (hlive : stores.get? k = some t) :
    (∃ u, s.stores.get? k = some u ∧ u.serial = t.serial) ∨
      k = s.stores.next ∧ t.serial = s.host.opened ∧
        stores.next = s.stores.next + 1 ∧ host.opened = s.host.opened + 1 := by
  cases hmoves with
  | stay => exact .inl ⟨t, hlive, rfl⟩
  | refuse hopen => exact .inl ⟨t, hlive, rfl⟩
  | @serve handle store r hstore hr =>
    rw [HandleTable.get?_update, hstore, Option.map_some] at hlive
    split_ifs at hlive with hk
    · cases hlive
      exact .inl ⟨store, hk ▸ hstore, (store.serial_serve r).symm⟩
    · exact .inl ⟨t, hlive, rfl⟩
  | @close handle store stores hstore hdone hrelease =>
    rw [HandleTable.get?_release hrelease] at hlive
    split_ifs at hlive with hk
    rw [HandleTable.get?_update, if_neg hk] at hlive
    exact .inl ⟨t, hlive, rfl⟩
  | @register location inMemory host store hopen =>
    rw [HandleTable.get?_register] at hlive
    split_ifs at hlive with hk
    · cases hlive
      obtain ⟨hserial, hcount⟩ := Host.serial_of_openStore hopen
      exact .inr ⟨hk, hserial, rfl, hcount⟩
    · exact .inl ⟨t, hlive, rfl⟩

lemma Moves.opened_le (hmoves : s.Moves host stores) : s.host.opened ≤ host.opened := by
  cases hmoves with
  | stay => exact Nat.le_refl _
  | refuse hopen => exact Nat.le_of_eq (Host.openStore_eq_error hopen).opened.symm
  | serve hlive hr => exact Nat.le_of_eq (Host.opened_serve ..).symm
  | close hlive hdone hrelease => exact Nat.le_of_eq (Host.opened_serve ..).symm
  | register hopen => exact (Host.serial_of_openStore hopen).2 ▸ Nat.le_succ _

/-- What ties the handles and the stores of a session to the numbers that have been given out. -/
structure Numbered (s : Session) : Prop where
  first : 1 ≤ s.stores.next
  issued : ∀ k t, s.stores.get? k = some t → 1 ≤ k ∧ k < s.stores.next
  counted : ∀ k t, s.stores.get? k = some t → t.serial < s.host.opened
  unique : ∀ k l t u, s.stores.get? k = some t → s.stores.get? l = some u →
    t.serial = u.serial → k = l

lemma numbered_start (host : Host) : (start host).Numbered where
  first := UInt64.le_refl 1
  issued k t hlive := by cases hlive
  counted k t hlive := by cases hlive
  unique k l t u hlive := by cases hlive

/-- A move keeps the numbers in order, unless it uses up the last handle. -/
lemma Numbered.of_moves (hs : s.Numbered) (hmoves : s.Moves host stores)
    (hnext : s.stores.next ≤ stores.next) (message : Option String) :
    (⟨host, stores, message⟩ : Session).Numbered where
  first := UInt64.le_trans hs.first hnext
  issued k t hlive := by
    rcases hmoves.origin hlive with ⟨u, hu, -⟩ | ⟨rfl, -, hsucc, -⟩
    · obtain ⟨hfirst, hlt⟩ := hs.issued k u hu
      exact ⟨hfirst, Std.lt_of_lt_of_le hlt hnext⟩
    · refine ⟨hs.first, UInt64.lt_of_le_of_ne hnext ?_⟩
      rw [hsucc]
      simp
  counted k t hlive := by
    rcases hmoves.origin hlive with ⟨u, hu, hserial⟩ | ⟨-, hserial, -, hcount⟩
    · exact hserial ▸ Nat.lt_of_lt_of_le (hs.counted k u hu) hmoves.opened_le
    · exact hcount ▸ hserial ▸ Nat.lt_succ_self _
  unique k l t u ht hu heq := by
    -- A new store has a number that no older one has.
    rcases hmoves.origin ht with ⟨t', ht', hserial⟩ | ⟨rfl, hserial, -, -⟩ <;>
      rcases hmoves.origin hu with ⟨u', hu', hserial'⟩ | ⟨rfl, hserial', -, -⟩
    · exact hs.unique k l t' u' ht' hu' (by rw [hserial, hserial', heq])
    · have hlt := hs.counted k t' ht'
      omega
    · have hlt := hs.counted l u' hu'
      omega
    · rfl

lemma Numbered.call (hs : s.Numbered) (c : Call)
    (hlt : s.stores.next.toNat + opened [⟨c, s.outcome c, s.failure? c⟩] < UInt64.size) :
    (s.call c).1.Numbered := by
  have hnext : s.stores.next ≤ (s.call c).1.stores.next := by
    rw [UInt64.le_iff_toNat_le, toNat_next_call hlt]
    exact Nat.le_add_right _ _
  exact hs.of_moves (s.moves_call c) hnext (s.call c).1.lastFailure

theorem Numbered.runAll (hs : s.Numbered) {actions : List Action}
    (hlt : s.stores.next.toNat + opened (s.runAll actions).2 < UInt64.size) :
    (s.runAll actions).1.Numbered := by
  induction actions generalizing s with
  | nil => exact hs
  | cons action actions ih =>
    cases action with
    | call c =>
      rw [runAll_call, opened_cons] at hlt
      have hone : s.stores.next.toNat + opened [⟨c, s.outcome c, s.failure? c⟩] < UInt64.size := by
        omega
      refine ih (hs.call c hone) ?_
      rw [toNat_next_call hone]
      omega
    | lastError => exact ih hs hlt
    | freeBuffer bytes length => exact ih hs hlt
    | freeString text => exact ih hs hlt

lemma Reached.runAll (hs : s.Reached host) (actions : List Action) :
    (s.runAll actions).1.Reached host := by
  induction actions generalizing s with
  | nil => exact hs
  | cons action actions ih =>
    cases action with
    | call c => exact ih (hs.call c)
    | lastError => exact ih hs
    | freeBuffer bytes length => exact ih hs
    | freeString text => exact ih hs

/-! ### Closing -/

/-- A close of a live handle takes it, and succeeds if the engine makes the writes durable. -/
lemma call_close_of_live (hlive : s.stores.get? handle = some store)
    (hopen : store.closed = false) (hserves : s.EngineServes (.close handle)) :
    s.outcome (.close handle) = ⟨.status .ok, none⟩ ∧
      ∀ k, (s.call (.close handle)).1.stores.get? k
        = if k = handle then none else s.stores.get? k := by
  have hnone : (store.serve .close).2.failure? = none :=
    failure?_serve_close hopen (hserves handle store rfl hlive)
  have hdone : (store.serve .close).2 = .done := by
    rcases store.answer_close with hdone | ⟨e, he⟩
    · exact hdone
    · rw [he] at hnone
      cases hnone
  constructor
  · refine outcome_finish_of_success ?_
    rw [of?_serve, dead?_of_live hlive, hlive, Option.none_or, Option.bind_some, hnone]
  · intro k
    rw [call, finish_stores, get?_serve hlive]
    simp only [hdone, and_self, if_true]

/-! ### All runs -/

/--
After every run in which fewer stores have been opened than there are handles, each live handle
names an open store, which no other live handle names, and it is among the handles that have been
given out. So a close of a live handle succeeds as long as its engine serves, and takes this handle
and no other; and no call reports that a store is closed, or that the program is at fault.
-/
theorem liveStores_runAll (host : Host) {actions : List Action}
    (hopened : opened ((start host).runAll actions).2 < UInt64.size - 1) :
    let s := ((start host).runAll actions).1
    (∀ h a, s.stores.get? h = some a → a.closed = false ∧ 1 ≤ h ∧ h < s.stores.next) ∧
    (∀ h k a b, s.stores.get? h = some a → s.stores.get? k = some b → a.serial = b.serial →
      h = k) ∧
    (∀ h a, s.stores.get? h = some a → s.EngineServes (.close h) →
      s.outcome (.close h) = ⟨.status .ok, none⟩ ∧
        ∀ k, (s.call (.close h)).1.stores.get? k = if k = h then none else s.stores.get? k) ∧
    ∀ c f, s.failure? c = some f →
      s.outcome c = .ofFailure c f ∧ f ≠ .ofError Store.closedError ∧ f.status ≠ .internal := by
  intro s
  have hfirst : (start host).stores.next.toNat = 1 := rfl
  have hnumbered : s.Numbered := (numbered_start host).runAll (by omega)
  have hreached : s.Reached host := Reached.start.runAll actions
  have hopen : ∀ h a, s.stores.get? h = some a → a.closed = false :=
    fun _ _ => hreached.open_of_live
  refine ⟨?_, hnumbered.unique, ?_, ?_⟩
  · intro h a hlive
    exact ⟨hopen h a hlive, hnumbered.issued h a hlive⟩
  · intro h a hlive
    exact call_close_of_live hlive (hopen h a hlive)
  · intro c f hf
    have hforeseen : f.Foreseen := foreseen_of_failure? hopen hf
    exact ⟨outcome_of_failure hf, hforeseen.ne_closedError, hforeseen.status_ne_internal⟩

/-- The second of three stores is closed twice, and its handle is not given to the third one. -/
theorem liveStores_runAll_closed :
    let actions : List Action := [.call (.openStore none true), .call (.openStore none true),
      .call (.close 2), .lastError, .call (.close 2), .call (.openStore none true)]
    let s := ((start Host.new).runAll actions).1
    opened ((start Host.new).runAll actions).2 < UInt64.size - 1 ∧
      (∃ a b, s.stores.get? 1 = some a ∧ s.stores.get? 3 = some b ∧ a.serial ≠ b.serial ∧
        b.closed = false ∧ (3 : UInt64) < s.stores.next) ∧
      s.EngineServes (.close 3) ∧ s.outcome (.close 3) = ⟨.status .ok, none⟩ ∧
      (s.call (.close 3)).1.stores.get? 3 = none ∧
      ∃ f, s.failure? (.close 2) = some f ∧ f ≠ .ofError Store.closedError := by
  intro actions s
  have hopened : opened ((start Host.new).runAll actions).2 < UInt64.size - 1 := by decide +kernel
  obtain ⟨hlive, hunique, hclose, hfailure⟩ := liveStores_runAll Host.new hopened
  have hfirst : s.stores.get? 1 = some ⟨0, .tree, none, ∅, .sound, false, fun _ => rfl⟩ := by
    decide +kernel
  have hthird : s.stores.get? 3 = some ⟨2, .tree, none, ∅, .sound, false, fun _ => rfl⟩ := by
    decide +kernel
  have hserves : s.EngineServes (.close 3) := by
    rintro handle store ⟨⟩ hstore
    rw [hthird] at hstore
    cases hstore
    exact Log.noConfusion
  have hstale : s.failure? (.close 2) = some (.ofError (.invalidHandle 2)) := by decide +kernel
  obtain ⟨hthirdOpen, -, hlt⟩ := hlive 3 _ hthird
  obtain ⟨houtcome, hstores⟩ := hclose 3 _ hthird hserves
  refine ⟨hopened, ⟨_, _, hfirst, hthird, ?_, hthirdOpen, hlt⟩, hserves, houtcome, ?_, _, hstale,
    (hfailure _ _ hstale).2.1⟩
  · exact fun heq => absurd (hunique 1 3 _ _ hfirst hthird heq) (by decide)
  · rw [hstores, if_pos rfl]

end Session

end ByteStore
