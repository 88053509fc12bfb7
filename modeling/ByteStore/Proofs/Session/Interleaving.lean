import ByteStore.Proofs.Session.Checks
import ByteStore.Proofs.Session.LastError

/-!
# Calls on different handles

Calls on a handle are answered by its store alone, and what other handles do in between does not
show (`Session.answersOn_eq`). So two clients with a store each may mix their calls as they like, as
long as their stores do not share a directory: `Session.callAll_interleavings`. Only the last
failure tells which call has come last.

`AlikeAt` says what has to agree between two sessions for calls on a handle to be answered alike. A
call on this handle keeps it on both sides (`AlikeAt.call`), a call on another handle on either side
(`alikeAt_call_of_ne`).
-/

namespace ByteStore

/-! ### Interleavings -/

/-- Whether a list consists of two others, each of them in its own order. -/
inductive Interleaving {α : Type} : List α → List α → List α → Prop
  | nil : Interleaving [] [] []
  | left {as bs cs : List α} (a : α) (h : Interleaving as bs cs) :
      Interleaving (a :: as) bs (a :: cs)
  | right {as bs cs : List α} (b : α) (h : Interleaving as bs cs) :
      Interleaving as (b :: bs) (b :: cs)

namespace Interleaving

variable {α : Type} {as bs cs : List α}

lemma symm (h : Interleaving as bs cs) : Interleaving bs as cs := by
  induction h with
  | nil => exact .nil
  | left a _ ih => exact .right a ih
  | right b _ ih => exact .left b ih

lemma forall_mem {P : α → Prop} (h : Interleaving as bs cs) (has : ∀ a ∈ as, P a)
    (hbs : ∀ b ∈ bs, P b) : ∀ c ∈ cs, P c := by
  induction h with
  | nil => exact has
  | left a _ ih =>
    rw [List.forall_mem_cons] at has ⊢
    exact ⟨has.1, ih has.2 hbs⟩
  | right b _ ih =>
    rw [List.forall_mem_cons] at hbs ⊢
    exact ⟨hbs.1, ih has hbs.2⟩

lemma filter_eq {p : α → Bool} (h : Interleaving as bs cs) (has : ∀ a ∈ as, p a = true)
    (hbs : ∀ b ∈ bs, p b = false) : cs.filter p = as := by
  induction h with
  | nil => rfl
  | left a _ ih =>
    rw [List.forall_mem_cons] at has
    rw [List.filter_cons_of_pos has.1, ih has.2 hbs]
  | right b _ ih =>
    rw [List.forall_mem_cons] at hbs
    rw [List.filter_cons_of_neg (by rw [hbs.1]; exact Bool.false_ne_true), ih has hbs.2]

end Interleaving

lemma Call.opens_of_handle? {c : Call} {handle : UInt64} (hc : c.handle? = some handle) :
    c.opens = false := by
  cases c with
  | openStore location inMemory => cases hc
  | _ => rfl

namespace Session

variable {s t u : Session} {handle k : UInt64} {places : Engine → Place → Prop} {c : Call}
  {cs : List Call}

lemma Asks.handle?_eq {r : Request} (hasks : Asks c handle r) : c.handle? = some handle := by
  cases hasks <;> rfl

/-! ### Sessions that agree on a handle -/

/-- Whether sessions have the same store under a handle, and have kept the same at some places. -/
structure AlikeAt (handle : UInt64) (places : Engine → Place → Prop) (s t : Session) : Prop where
  store : t.stores.get? handle = s.stores.get? handle
  kept : ∀ e p, places e p → t.host.table e p = s.host.table e p

namespace AlikeAt

lemma refl (s : Session) : AlikeAt handle places s s := ⟨rfl, fun _ _ _ => rfl⟩

lemma symm (h : AlikeAt handle places s t) : AlikeAt handle places t s :=
  ⟨h.store.symm, fun e p hp => (h.kept e p hp).symm⟩

lemma trans (h : AlikeAt handle places s t) (h' : AlikeAt handle places t u) :
    AlikeAt handle places s u :=
  ⟨h'.store.trans h.store, fun e p hp => (h'.kept e p hp).trans (h.kept e p hp)⟩

lemma serve (h : AlikeAt handle places s t) (r : Request) :
    (t.serve handle r).2 = (s.serve handle r).2 ∧
      AlikeAt handle places (s.serve handle r).1 (t.serve handle r).1 := by
  cases hlive : s.stores.get? handle with
  | none =>
    have hdead : t.stores.get? handle = none := h.store.trans hlive
    rw [serve_of_dead hlive, serve_of_dead hdead]
    exact ⟨rfl, h⟩
  | some store =>
    have hlive' : t.stores.get? handle = some store := h.store.trans hlive
    refine ⟨?_, ?_, fun e p hp => ?_⟩
    · rw [result_serve hlive, result_serve hlive']
    · rw [get?_serve hlive, get?_serve hlive', if_pos rfl, if_pos rfl]
    · rw [host_serve hlive, host_serve hlive', Host.table_serve, Host.table_serve, h.kept e p hp]

lemma finish {x y : Session × Except Failure Unit}
    (h : y.2 = x.2 ∧ AlikeAt handle places x.1 y.1) :
    (finish y).2 = (finish x).2 ∧ AlikeAt handle places (finish x).1 (finish y).1 := by
  obtain ⟨s, result⟩ := x
  obtain ⟨t, result'⟩ := y
  obtain ⟨rfl, h⟩ := h
  cases result' <;> exact ⟨rfl, h.store, h.kept⟩

lemma finishBuffer (h : AlikeAt handle places s t) (place : String) (lengthPlace : Bool)
    (result : Except Failure (Option Bytes)) :
    (t.finishBuffer place lengthPlace result).2 = (s.finishBuffer place lengthPlace result).2 ∧
      AlikeAt handle places (s.finishBuffer place lengthPlace result).1
        (t.finishBuffer place lengthPlace result).1 := by
  cases lengthPlace with
  | false => exact ⟨rfl, h.store, h.kept⟩
  | true => rcases result with f | (_ | bytes) <;> exact ⟨rfl, h.store, h.kept⟩

/-- A call on the handle is answered alike, and the sessions still agree. -/
theorem call (h : AlikeAt handle places s t) (hc : c.handle? = some handle) :
    (t.call c).2 = (s.call c).2 ∧ AlikeAt handle places (s.call c).1 (t.call c).1 := by
  have hstore : t.store handle = s.store handle := by
    rw [Session.store, Session.store, HandleTable.lookup, HandleTable.lookup, h.store]
  cases c with
  | openStore location inMemory => cases hc
  | initLogging => cases hc
  | close _ =>
    cases hc
    exact AlikeAt.finish (h.serve .close)
  | sync _ =>
    cases hc
    exact AlikeAt.finish (h.serve .sync)
  | set _ key value =>
    cases hc
    refine AlikeAt.finish ?_
    rw [Session.set, Session.set]
    split
    · exact h.serve _
    · exact ⟨rfl, h⟩
    · exact ⟨rfl, h⟩
  | delete _ key =>
    cases hc
    refine AlikeAt.finish ?_
    rw [Session.delete, Session.delete]
    split
    · exact h.serve _
    · exact ⟨rfl, h⟩
  | apply _ ops =>
    cases hc
    have hread : t.readBatch handle ops = s.readBatch handle ops := by
      rw [readBatch, readBatch, hstore]
    refine AlikeAt.finish ?_
    rw [Session.apply, Session.apply, hread]
    split
    · exact h.serve _
    · exact ⟨rfl, h⟩
  | get _ key place =>
    cases hc
    have hget : t.get handle key = s.get handle key := by
      rw [Session.get, Session.get, hstore]
    rw [Session.call, Session.call, hget]
    exact h.finishBuffer _ _ _
  | scan _ stem place =>
    cases hc
    have hscan : t.scan handle stem = s.scan handle stem := by
      rw [Session.scan, Session.scan, hstore]
    rw [Session.call, Session.call, hscan]
    exact h.finishBuffer _ _ _

end AlikeAt

/-! ### Calls on other handles -/

/-- Whether the store under a handle, if there is one, keeps its data at none of some places. -/
def Clear (s : Session) (handle : UInt64) (places : Engine → Place → Prop) : Prop :=
  ∀ store, s.stores.get? handle = some store → ∀ e p, places e p → ¬store.IsAt e p

lemma alikeAt_serve_of_ne (hne : k ≠ handle) (hclear : s.Clear k places) (r : Request) :
    AlikeAt handle places s (s.serve k r).1 := by
  cases hlive : s.stores.get? k with
  | none =>
    rw [serve_of_dead hlive]
    exact .refl s
  | some store =>
    refine ⟨?_, fun e p hp => ?_⟩
    · rw [get?_serve hlive, if_neg hne.symm]
    · rw [host_serve hlive, Host.table_serve, if_neg]
      rintro ⟨-, -, hat⟩
      exact hclear store hlive e p hp hat

/-- A call on another handle changes neither a handle nor what is kept elsewhere. -/
lemma alikeAt_call_of_ne (hc : c.handle? = some k) (hne : k ≠ handle) (hclear : s.Clear k places) :
    AlikeAt handle places s (s.call c).1 := by
  rcases s.call_cases (Call.opens_of_handle? hc) with ⟨hhost, hstores⟩ |
    ⟨k', r, hasks, -, hhost, hstores⟩
  · exact ⟨by rw [hstores], fun e p _ => by rw [hhost]⟩
  · obtain rfl : k' = k := Option.some.inj (hasks.handle?_eq.symm.trans hc)
    have h : AlikeAt handle places s (s.serve k' r).1 := alikeAt_serve_of_ne hne hclear r
    exact ⟨hstores ▸ h.store, fun e p hp => hhost ▸ h.kept e p hp⟩

/-- No store moves. -/
lemma Clear.call (hclear : s.Clear k places) (hopens : c.opens = false) :
    (s.call c).1.Clear k places := by
  intro store hstore
  rcases s.call_cases hopens with ⟨-, hstores⟩ | ⟨k', r, -, -, -, hstores⟩
  · exact hclear store (hstores ▸ hstore)
  · rw [hstores] at hstore
    cases hlive : s.stores.get? k' with
    | none =>
      rw [serve_of_dead hlive] at hstore
      exact hclear store hstore
    | some old =>
      rw [get?_serve hlive] at hstore
      split_ifs at hstore with hk
      · cases hstore
        intro e p hp
        rw [Store.isAt_serve]
        exact hclear old (hk ▸ hlive) e p hp
      · exact hclear store hstore

/-! ### Runs -/

/-- The replies to calls, each with its call. -/
def answers (s : Session) (cs : List Call) : List (Call × Reply) :=
  cs.zip ((s.callAll cs).2.map Outcome.reply)

lemma answers_cons (s : Session) (c : Call) (cs : List Call) :
    s.answers (c :: cs) = (c, (s.call c).2) :: (s.call c).1.answers cs := rfl

/-- The replies to the calls on a handle. -/
def answersOn (s : Session) (handle : UInt64) (cs : List Call) : List (Call × Reply) :=
  (s.answers cs).filter fun answer => answer.1.handle? = some handle

/--
Calls on a handle are answered as if no other calls were there. What they leave is the same too,
also on the host, except where the stores under the other handles keep their data.
-/
theorem answersOn_eq (h : AlikeAt handle places s t)
    (hcs : ∀ c ∈ cs, ∃ k, c.handle? = some k ∧ (k ≠ handle → s.Clear k places)) :
    let own := cs.filter fun c => c.handle? = some handle
    s.answersOn handle cs = t.answers own ∧
      AlikeAt handle places (s.callAll cs).1 (t.callAll own).1 := by
  -- A call on the handle is a step on both sides, any other call one of the first session alone.
  induction cs generalizing s t with
  | nil => exact ⟨rfl, h⟩
  | cons c cs ih =>
    obtain ⟨⟨k, hk, hclear⟩, hcs⟩ := List.forall_mem_cons.1 hcs
    have hnext : ∀ c' ∈ cs, ∃ k, c'.handle? = some k ∧
        (k ≠ handle → (s.call c).1.Clear k places) := by
      intro c' hc'
      obtain ⟨k', hk', hclear'⟩ := hcs c' hc'
      exact ⟨k', hk', fun hne => (hclear' hne).call (Call.opens_of_handle? hk)⟩
    by_cases hkh : k = handle
    · subst hkh
      obtain ⟨hreply, hcall⟩ := h.call hk
      obtain ⟨hanswers, hend⟩ := ih hcall hnext
      intro own
      have hown : own = c :: cs.filter fun c => c.handle? = some k :=
        List.filter_cons_of_pos (decide_eq_true hk)
      rw [hown, answers_cons, hreply, ← hanswers]
      exact ⟨List.filter_cons_of_pos (decide_eq_true hk), hend⟩
    · obtain ⟨hanswers, hend⟩ := ih ((alikeAt_call_of_ne hk hkh (hclear hkh)).symm.trans h) hnext
      have hother : ¬decide (c.handle? = some handle) = true := by
        rw [decide_eq_true_iff, hk]
        exact fun heq => hkh (Option.some.inj heq)
      intro own
      have hown : own = cs.filter fun c => c.handle? = some handle := List.filter_cons_of_neg hother
      rw [hown, ← hanswers]
      exact ⟨List.filter_cons_of_neg hother, hend⟩

/-! ### What is left at the end -/

/--
Whether sessions have the same stores under the same handles, on hosts that differ at most in how
they keep the same tables. The last failures may differ.
-/
structure Alike (s t : Session) : Prop where
  next : t.stores.next = s.stores.next
  stores : ∀ k, t.stores.get? k = s.stores.get? k
  host : ∃ kept, t.host = { s.host with kept }
  tables : ∀ e p, t.host.table e p = s.host.table e p

lemma exists_host_serve (h : Host) (store : Store) (r : Request) :
    ∃ kept, (h.serve store r).1 = { h with kept } := by
  rw [Host.serve]
  dsimp only
  split_ifs
  · rw [Host.keep]
    split
    · exact ⟨_, rfl⟩
    · exact ⟨h.kept, rfl⟩
  · exact ⟨h.kept, rfl⟩

lemma exists_host_call (hopens : c.opens = false) :
    ∃ kept, (s.call c).1.host = { s.host with kept } := by
  rcases s.call_cases hopens with ⟨hhost, -⟩ | ⟨k, r, -, -, hhost, -⟩
  · exact ⟨s.host.kept, hhost⟩
  · rw [hhost]
    cases hlive : s.stores.get? k with
    | none =>
      rw [serve_of_dead hlive]
      exact ⟨s.host.kept, rfl⟩
    | some store =>
      rw [host_serve hlive]
      exact exists_host_serve s.host store r

lemma next_callAll (hcs : ∀ c ∈ cs, c.opens = false) :
    (s.callAll cs).1.stores.next = s.stores.next := by
  induction cs generalizing s with
  | nil => rfl
  | cons c cs ih =>
    rw [List.forall_mem_cons] at hcs
    rw [callAll_cons, ih hcs.2, next_call, hcs.1]
    exact UInt64.add_zero _

lemma exists_host_callAll (hcs : ∀ c ∈ cs, c.opens = false) :
    ∃ kept, (s.callAll cs).1.host = { s.host with kept } := by
  induction cs generalizing s with
  | nil => exact ⟨s.host.kept, rfl⟩
  | cons c cs ih =>
    rw [List.forall_mem_cons] at hcs
    obtain ⟨kept, hkept⟩ := exists_host_call (s := s) hcs.1
    obtain ⟨kept', hkept'⟩ := ih hcs.2 (s := (s.call c).1)
    exact ⟨kept', by rw [callAll_cons, hkept', hkept]⟩

/-! ### Two clients -/

section TwoClients

variable {h₁ h₂ : UInt64} {store₁ store₂ : Store} {as bs : List Call}

/-- A client sees and leaves the same as if its calls were the only ones. -/
lemma answersOn_interleaving (hne : h₁ ≠ h₂) (hlive₂ : s.stores.get? h₂ = some store₂)
    (has : ∀ c ∈ as, c.handle? = some h₁) (hbs : ∀ c ∈ bs, c.handle? = some h₂)
    (hcs : Interleaving as bs cs) :
    s.answersOn h₁ cs = s.answers as ∧
      AlikeAt h₁ (fun e p => ¬store₂.IsAt e p) (s.callAll cs).1 (s.callAll as).1 := by
  have hclear : s.Clear h₂ fun e p => ¬store₂.IsAt e p := by
    intro store hstore e p hp
    obtain rfl : store₂ = store := Option.some.inj (hlive₂.symm.trans hstore)
    exact hp
  have hnamed : ∀ c ∈ cs, ∃ k, c.handle? = some k ∧
      (k ≠ h₁ → s.Clear k fun e p => ¬store₂.IsAt e p) := by
    refine hcs.forall_mem (fun c hc => ⟨h₁, has c hc, fun h => absurd rfl h⟩) (fun c hc => ?_)
    exact ⟨h₂, hbs c hc, fun _ => hclear⟩
  have hown : cs.filter (fun c => c.handle? = some h₁) = as := by
    refine hcs.filter_eq (fun c hc => decide_eq_true (has c hc)) (fun c hc => ?_)
    rw [decide_eq_false_iff_not, hbs c hc]
    exact fun h => hne (Option.some.inj h).symm
  have h := answersOn_eq (.refl s) hnamed
  rwa [hown] at h

lemma get?_callAll_of_ne (hcs : ∀ c ∈ cs, ∃ k, c.handle? = some k ∧ k ≠ handle) :
    (s.callAll cs).1.stores.get? handle = s.stores.get? handle := by
  have hnamed : ∀ c ∈ cs, ∃ k, c.handle? = some k ∧
      (k ≠ handle → s.Clear k fun _ _ => False) := by
    intro c hc
    obtain ⟨k, hk, -⟩ := hcs c hc
    exact ⟨k, hk, fun _ _ _ _ _ hp => hp.elim⟩
  have hown : cs.filter (fun c => c.handle? = some handle) = [] := by
    rw [List.filter_eq_nil_iff]
    intro c hc
    obtain ⟨k, hk, hne⟩ := hcs c hc
    rw [decide_eq_true_iff, hk]
    exact fun h => hne (Option.some.inj h)
  obtain ⟨-, halike⟩ := answersOn_eq (.refl s) hnamed
  rw [hown] at halike
  exact halike.store.symm

/--
In every session, take two live handles whose stores are in memory or in different directories, and
calls on the one and on the other. However these calls are mixed, each of them has the same reply,
and the sessions end with the same stores under the same handles, on hosts that have kept the same.
-/
theorem callAll_interleavings (hne : h₁ ≠ h₂) (hlive₁ : s.stores.get? h₁ = some store₁)
    (hlive₂ : s.stores.get? h₂ = some store₂)
    (hapart : ∀ p, store₁.home = some p → store₂.home ≠ some p)
    (has : ∀ c ∈ as, c.handle? = some h₁) (hbs : ∀ c ∈ bs, c.handle? = some h₂)
    {cs cs' : List Call} (hcs : Interleaving as bs cs) (hcs' : Interleaving as bs cs') :
    s.answersOn h₁ cs = s.answersOn h₁ cs' ∧ s.answersOn h₂ cs = s.answersOn h₂ cs' ∧
      Alike (s.callAll cs).1 (s.callAll cs').1 := by
  obtain ⟨hanswers₁, halike₁⟩ := answersOn_interleaving hne hlive₂ has hbs hcs
  obtain ⟨hanswers₂, halike₂⟩ := answersOn_interleaving hne.symm hlive₁ hbs has hcs.symm
  obtain ⟨hanswers₁', halike₁'⟩ := answersOn_interleaving hne hlive₂ has hbs hcs'
  obtain ⟨hanswers₂', halike₂'⟩ := answersOn_interleaving hne.symm hlive₁ hbs has hcs'.symm
  have h₁' := halike₁.trans halike₁'.symm
  have h₂' := halike₂.trans halike₂'.symm
  have hopens : ∀ c ∈ as, c.opens = false := fun c hc => Call.opens_of_handle? (has c hc)
  have hopens' : ∀ c ∈ bs, c.opens = false := fun c hc => Call.opens_of_handle? (hbs c hc)
  refine ⟨hanswers₁.trans hanswers₁'.symm, hanswers₂.trans hanswers₂'.symm, ?_⟩
  refine ⟨?_, fun k => ?_, ?_, fun e p => ?_⟩
  · rw [next_callAll (hcs.forall_mem hopens hopens'), next_callAll (hcs'.forall_mem hopens hopens')]
  · by_cases hk₁ : k = h₁
    · exact hk₁ ▸ h₁'.store
    · by_cases hk₂ : k = h₂
      · exact hk₂ ▸ h₂'.store
      · have hother : ∀ cs, Interleaving as bs cs →
            (s.callAll cs).1.stores.get? k = s.stores.get? k := by
          intro cs h
          refine get?_callAll_of_ne (h.forall_mem (fun c hc => ?_) (fun c hc => ?_))
          · exact ⟨h₁, has c hc, Ne.symm hk₁⟩
          · exact ⟨h₂, hbs c hc, Ne.symm hk₂⟩
        rw [hother cs hcs, hother cs' hcs']
  · obtain ⟨kept, hkept⟩ := exists_host_callAll (s := s) (hcs.forall_mem hopens hopens')
    obtain ⟨kept', hkept'⟩ := exists_host_callAll (s := s) (hcs'.forall_mem hopens hopens')
    exact ⟨kept', by rw [hkept, hkept']⟩
  · -- Each place is not that of the one store or not that of the other.
    by_cases hat : store₂.IsAt e p
    · refine h₂'.kept e p fun hat₁ => ?_
      exact hapart p hat₁.2 hat.2
    · exact h₁'.kept e p hat

/-- A store in memory, which is closed while the other one, in a directory, is in use. -/
theorem callAll_interleavings_closed :
    let location : Bytes := [107, 118]
    let s := ((start Host.new).callAll
      [.openStore none true, .openStore (some location) false]).1
    let as : List Call := [.close 1, .get 1 (.bytes [97]) true]
    let bs : List Call := [.set 2 (.bytes [97]) (.bytes [98]), .sync 2, .scan 2 (.absent 0) true]
    let mixed : List Call := [.set 2 (.bytes [97]) (.bytes [98]), .close 1, .sync 2,
      .get 1 (.bytes [97]) true, .scan 2 (.absent 0) true]
    ∃ store₁ store₂, s.stores.get? 1 = some store₁ ∧ s.stores.get? 2 = some store₂ ∧
      (∀ p, store₁.home = some p → store₂.home ≠ some p) ∧ store₂.home ≠ none ∧
      (∀ c ∈ as, c.handle? = some 1) ∧ (∀ c ∈ bs, c.handle? = some 2) ∧
      Interleaving as bs (as ++ bs) ∧ Interleaving as bs mixed ∧
      s.answersOn 1 (as ++ bs) = s.answersOn 1 mixed ∧
      s.answersOn 2 (as ++ bs) = s.answersOn 2 mixed ∧
      Alike (s.callAll (as ++ bs)).1 (s.callAll mixed).1 := by
  intro location s as bs mixed
  have hhome₁ : (s.stores.get? 1).map Store.home = some none := by decide +kernel
  have hhome₂ : (s.stores.get? 2).map (fun store => store.home.isSome) = some true := by
    decide +kernel
  obtain ⟨store₁, hlive₁, hmemory⟩ := Option.map_eq_some_iff.1 hhome₁
  obtain ⟨store₂, hlive₂, hdirectory⟩ := Option.map_eq_some_iff.1 hhome₂
  have hapart : ∀ p, store₁.home = some p → store₂.home ≠ some p := by
    intro p hp
    rw [hmemory] at hp
    cases hp
  have has : ∀ c ∈ as, c.handle? = some 1 := by decide
  have hbs : ∀ c ∈ bs, c.handle? = some 2 := by decide
  have hinTurn : Interleaving as bs (as ++ bs) :=
    .left _ (.left _ (.right _ (.right _ (.right _ .nil))))
  have hmixed : Interleaving as bs mixed :=
    .right _ (.left _ (.right _ (.left _ (.right _ .nil))))
  refine ⟨store₁, store₂, hlive₁, hlive₂, hapart, ?_, has, hbs, hinTurn, hmixed, ?_⟩
  · exact Option.isSome_iff_ne_none.1 hdirectory
  · exact callAll_interleavings (by decide) hlive₁ hlive₂ hapart has hbs hinTurn hmixed

end TwoClients

end Session

end ByteStore
