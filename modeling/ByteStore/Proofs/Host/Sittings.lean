import ByteStore.Proofs.Host.Directories
import ByteStore.Proofs.Store.Reference

/-!
# Sittings

A sitting is what is done with a store from its opening on, until it is closed or dropped. Sittings
in one directory, on one engine, pass on what they have written: if each has ended before the next
one starts, by a close or by a sync after its last write, then the next one starts with what the one
before it has left, whatever goes on elsewhere.

All lists of this module have the latest first.
-/

namespace ByteStore

/-- A store from its opening on. -/
structure Sitting where
  location : String
  inMemory : Bool
  /-- What the store has started with. -/
  start : Table
  /-- What the store has been asked, with its answers. -/
  trace : List (Request × Answer)
  /-- The store as it is now, or as it was when it was dropped. -/
  store : Store
  dropped : Bool

namespace Sitting

/-- The sitting of a store that has just been opened. -/
def opened (location : String) (inMemory : Bool) (store : Store) : Sitting :=
  ⟨location, inMemory, store.table, [], store, false⟩

def ask (x : Sitting) (r : Request) : Sitting :=
  { x with
    trace := (r, (x.store.serve r).2) :: x.trace
    store := (x.store.serve r).1 }

def drop (x : Sitting) : Sitting := { x with dropped := true }

/--
Whether an answer says that something has been written or made durable. A batch without operations
writes nothing.
-/
def counts (asked : Request × Answer) : Bool :=
  asked.2 == .done && (asked.1.makesDurable || !asked.1.writes.isEmpty)

/-- Whether nothing has been written since the last sync or close. -/
def Settled (x : Sitting) : Prop := ∀ last ∈ x.trace.find? counts, last.1.makesDurable = true

/-- Whether a sitting has ended: by a close, or by a sync after the last write and a drop. -/
def Ended (x : Sitting) : Prop := (.close, .done) ∈ x.trace ∨ x.dropped = true ∧ x.Settled

instance (x : Sitting) : Decidable x.Settled :=
  inferInstanceAs (Decidable (∀ last ∈ x.trace.find? counts, last.1.makesDurable = true))

instance (x : Sitting) : Decidable x.Ended :=
  inferInstanceAs (Decidable (_ ∨ _ ∧ _))

end Sitting

/-! ### Worlds -/

/-- A host with all sittings that there have been on it. -/
structure World where
  host : Host
  sittings : List Sitting

/-- What can happen on a host, scans apart, which change nothing. Sittings count from the latest. -/
inductive Event
  | openStore (location : String) (inMemory : Bool)
  | ask (i : Nat) (r : Request)
  | drop (i : Nat)

namespace World

/-- A host on which no store has been opened yet. -/
def start (host : Host) : World := ⟨host, []⟩

/-- The world after an event. Nothing can be asked of a store that has been dropped. -/
def step (w : World) : Event → World
  | .openStore location inMemory =>
    match w.host.openStore location inMemory with
    | (host, .ok store) => ⟨host, .opened location inMemory store :: w.sittings⟩
    | (host, .error _) => ⟨host, w.sittings⟩
  | .ask i r =>
    match w.sittings[i]? with
    | some x =>
      if x.dropped then w else ⟨(w.host.serve x.store r).1, w.sittings.set i (x.ask r)⟩
    | none => w
  | .drop i =>
    match w.sittings[i]? with
    | some x => ⟨w.host, w.sittings.set i x.drop⟩
    | none => w

/-- The sittings in a directory, on an engine. -/
def sittingsAt (w : World) (e : Engine) (p : Place) : List Sitting :=
  w.sittings.filter fun x => x.store.IsAt e p

/-- Whether an event starts no sitting in a directory before those there have ended. -/
def Waits (w : World) (e : Engine) (p : Place) : Event → Prop
  | .openStore location inMemory =>
    ∀ store, (w.host.openStore location inMemory).2 = .ok store → store.IsAt e p →
      ∀ x ∈ w.sittingsAt e p, x.Ended
  | .ask .. | .drop _ => True

/-- The worlds that come about on a host while sittings in one directory wait for each other. -/
inductive Run (e : Engine) (p : Place) (host : Host) : World → Prop
  | start : Run e p host (.start host)
  | step {w : World} (hw : Run e p host w) {event : Event} (hevent : w.Waits e p event) :
      Run e p host (w.step event)

end World

/-! ### Contents -/

namespace Sitting

/-- What the latest of some sittings has written; nothing if there is none. -/
def contents : List Sitting → Table
  | [] => ∅
  | x :: _ => x.store.table

/-- Whether each sitting has started with what the one before it has written. -/
def Succeed : List Sitting → Prop
  | [] => True
  | x :: older => x.start = contents older ∧ Succeed older

/-- Whether nothing more can be done in a sitting. -/
def Finished (x : Sitting) : Prop := x.store.closed = true ∨ x.dropped = true

/-- What holds of every sitting: a store that has been closed is closed, and settled. -/
structure Coherent (x : Sitting) : Prop where
  closed : (.close, .done) ∈ x.trace → x.store.closed = true
  settled : x.store.closed = true → x.Settled

variable {x y : Sitting} {r : Request} {location : String} {inMemory : Bool} {store : Store}

lemma Coherent.finished (hx : x.Coherent) (hended : x.Ended) : x.Finished :=
  hended.imp hx.closed And.left

lemma Coherent.settled_of_ended (hx : x.Coherent) (hended : x.Ended) : x.Settled :=
  hended.elim (fun hclose => hx.settled (hx.closed hclose)) And.right

lemma coherent_opened (hopen : store.closed = false) :
    (opened location inMemory store).Coherent where
  closed hclose := by cases hclose
  settled hclosed := by
    rw [opened, hopen] at hclosed
    cases hclosed

/-! ### Requests -/

lemma settled_ask_of_counts (hr : counts (r, (x.store.serve r).2) = true) :
    (x.ask r).Settled ↔ r.makesDurable = true := by
  rw [Settled, ask, List.find?_cons_of_pos hr]
  simp only [Option.mem_some_iff, forall_eq']

lemma settled_ask_of_not_counts (hr : counts (r, (x.store.serve r).2) = false) :
    (x.ask r).Settled ↔ x.Settled := by
  rw [Settled, ask, List.find?_cons_of_neg (by rw [hr]; exact Bool.false_ne_true)]
  rfl

/-- A request that does not count changes no entry. -/
lemma table_ask_of_not_counts (hr : counts (r, (x.store.serve r).2) = false) :
    (x.ask r).store.table = x.store.table := by
  change (x.store.serve r).1.table = x.store.table
  rcases x.store.serve_cases r with h | ⟨ops, hops, -, h⟩ | ⟨-, closed, h⟩
  · rw [h]
  · have hempty : ops = [] := by
      simp only [counts, h, Request.writes, hops] at hr
      simpa using (Bool.or_eq_false_iff.1 hr).2
    rw [h, hempty]
    rfl
  · rw [h]

/-- Of a closed store no request counts, and none changes it. -/
lemma ask_of_closed (hclosed : x.store.closed = true) (r : Request) :
    counts (r, (x.store.serve r).2) = false ∧ (x.ask r).store = x.store := by
  have hserve := Store.serve_of_closed hclosed r
  constructor
  · rw [hserve]
    rfl
  · rw [ask, hserve]

lemma Coherent.ask (hx : x.Coherent) (r : Request) : (x.ask r).Coherent := by
  cases hopen : x.store.closed with
  | true =>
    obtain ⟨hcounts, hstore⟩ := ask_of_closed hopen r
    exact ⟨fun _ => hstore ▸ hopen,
      fun _ => (settled_ask_of_not_counts hcounts).2 (hx.settled hopen)⟩
  | false =>
    refine ⟨fun hclose => ?_, fun hclosed => ?_⟩
    · rcases List.mem_cons.1 hclose with heq | hclose
      · obtain ⟨rfl, hdone⟩ := Prod.mk.inj heq
        exact Store.closed_serve_close hopen hdone.symm
      · rw [hx.closed hclose] at hopen
        cases hopen
    · -- Only a close that succeeds closes a store, and such a close counts.
      have hdone : r = .close ∧ ¬∃ e, (x.store.serve r).2 = .failed e := by
        by_contra hnot
        have hkept := Store.closed_serve hopen (r := r) (by tauto)
        exact absurd (hkept.symm.trans hclosed) Bool.false_ne_true
      obtain ⟨rfl, hsucceeded⟩ := hdone
      have hcounts : counts (.close, (x.store.serve .close).2) = true := by
        rw [x.store.answer_close.resolve_right hsucceeded]
        rfl
      exact (settled_ask_of_counts hcounts).2 rfl

lemma Coherent.drop (hx : x.Coherent) : x.drop.Coherent := ⟨hx.closed, hx.settled⟩

/-! ### Orderly sittings -/

/-- What holds of the sittings in a directory that wait for each other, given what is kept there. -/
structure Orderly (kept : Table) (xs : List Sitting) : Prop where
  succeed : Succeed xs
  finished : ∀ x ∈ xs.tail, x.Finished
  kept : (∀ x ∈ xs.head?, x.Settled) → kept = contents xs

variable {kept kept' : Table} {after before xs : List Sitting}

lemma orderly_nil : Orderly ∅ [] := ⟨trivial, by simp, fun _ => rfl⟩

lemma Orderly.opened (hxs : Orderly kept xs) (hended : ∀ x ∈ xs, x.Finished ∧ x.Settled)
    (hstart : store.table = kept) : Orderly kept (.opened location inMemory store :: xs) where
  succeed := by
    refine ⟨hstart.trans (hxs.kept fun x hx => ?_), hxs.succeed⟩
    exact (hended x (List.mem_of_mem_head? hx)).2
  finished x hx := (hended x hx).1
  kept _ := hstart.symm

/-- The latest sitting goes on, and what is kept changes only to what it has written. -/
lemma Orderly.head (hxs : Orderly kept (x :: before)) (hstart : y.start = x.start)
    (hkept : y.Settled → kept' = y.store.table) : Orderly kept' (y :: before) where
  succeed := ⟨hstart.trans hxs.succeed.1, hxs.succeed.2⟩
  finished := hxs.finished
  kept hsettled := hkept (hsettled y rfl)

lemma Succeed.replace (hxs : Succeed (after ++ x :: before)) (hstart : y.start = x.start)
    (htable : y.store.table = x.store.table) : Succeed (after ++ y :: before) := by
  induction after with
  | nil => exact ⟨hstart.trans hxs.1, hxs.2⟩
  | cons z after ih =>
    refine ⟨?_, ih hxs.2⟩
    cases after with
    | nil => exact hxs.1.trans htable.symm
    | cons z' after => exact hxs.1

/-- A sitting can be replaced by one with the same contents that is as far as it. -/
lemma Orderly.replace (hxs : Orderly kept (after ++ x :: before)) (hstart : y.start = x.start)
    (htable : y.store.table = x.store.table) (hfinished : x.Finished → y.Finished)
    (hsettled : y.Settled → x.Settled) : Orderly kept (after ++ y :: before) := by
  have hsucceed := hxs.succeed.replace hstart htable
  cases after with
  | nil =>
    refine ⟨hsucceed, hxs.finished, fun hy => ?_⟩
    have hkept : kept = x.store.table := hxs.kept fun z hz => by
      cases hz
      exact hsettled (hy y rfl)
    exact hkept.trans htable.symm
  | cons z after =>
    refine ⟨hsucceed, fun z' hz' => ?_, hxs.kept⟩
    rcases List.mem_append.1 hz' with hz' | hz'
    · exact hxs.finished z' (List.mem_append_left _ hz')
    · rcases List.mem_cons.1 hz' with rfl | hz'
      · exact hfinished (hxs.finished x (List.mem_append_right _ List.mem_cons_self))
      · exact hxs.finished z' (List.mem_append_right _ (List.mem_cons_of_mem _ hz'))

end Sitting

/-! ### Runs -/

namespace World

open Sitting

variable {w : World} {e : Engine} {p : Place} {host : Host}

/-- What holds of all worlds in which sittings in one directory wait for each other. -/
structure Invariant (e : Engine) (p : Place) (w : World) : Prop where
  coherent : ∀ x ∈ w.sittings, x.Coherent
  located : ∀ x ∈ w.sittings, w.host.Located x.location x.inMemory x.store
  orderly : Orderly (w.host.table e p) (w.sittingsAt e p)

lemma invariant_start (hnew : host.table e p = ∅) : (start host).Invariant e p where
  coherent x hx := by cases hx
  located x hx := by cases hx
  orderly := by
    change Orderly (host.table e p) []
    rw [hnew]
    exact orderly_nil

lemma sittingsAt_cons (host : Host) (x : Sitting) (xs : List Sitting) (e : Engine) (p : Place) :
    (⟨host, x :: xs⟩ : World).sittingsAt e p = if x.store.IsAt e p
      then x :: (⟨host, xs⟩ : World).sittingsAt e p else (⟨host, xs⟩ : World).sittingsAt e p := by
  simp only [sittingsAt, List.filter_cons, decide_eq_true_eq]

lemma Invariant.openStore (hw : w.Invariant e p) {location : String} {inMemory : Bool}
    (hevent : w.Waits e p (.openStore location inMemory)) :
    (w.step (.openStore location inMemory)).Invariant e p := by
  have hextends := w.host.extends_openStore location inMemory
  have htable := w.host.table_openStore location inMemory e p
  rcases hopen : w.host.openStore location inMemory with ⟨host, (error | store)⟩
  · rw [hopen] at hextends htable
    simp only [step, hopen]
    refine ⟨hw.coherent, fun x hx => (hw.located x hx).extends hextends, ?_⟩
    rw [htable]
    exact hw.orderly
  · rw [hopen] at hextends htable
    obtain ⟨hclosed, -, hstart⟩ := Host.open_of_openStore hopen
    simp only [step, hopen]
    refine ⟨?_, ?_, ?_⟩
    · rintro x (_ | ⟨_, hx⟩)
      · exact coherent_opened hclosed
      · exact hw.coherent x hx
    · rintro x (_ | ⟨_, hx⟩)
      · exact Host.located_openStore hopen
      · exact (hw.located x hx).extends hextends
    · rw [htable, sittingsAt_cons]
      split_ifs with hopened
      · have hat : store.IsAt e p := hopened
        refine hw.orderly.opened (fun x hx => ?_) ?_
        · have hcoherent := hw.coherent x (List.mem_filter.1 hx).1
          have hended := hevent store (by rw [hopen]) hat x hx
          exact ⟨hcoherent.finished hended, hcoherent.settled_of_ended hended⟩
        · rw [hstart, hat.1, hat.2]
          rfl
      · exact hw.orderly

/-- Where a sitting is replaced, it is so among those in its directory, and not among others. -/
lemma sittingsAt_replace {after before : List Sitting} {x y : Sitting}
    (hsplit : w.sittings = after ++ x :: before) (hiff : y.store.IsAt e p ↔ x.store.IsAt e p)
    (host : Host) :
    (x.store.IsAt e p ∧ ∃ newer older, w.sittingsAt e p = newer ++ x :: older ∧
        (⟨host, after ++ y :: before⟩ : World).sittingsAt e p = newer ++ y :: older) ∨
      ¬x.store.IsAt e p ∧
        (⟨host, after ++ y :: before⟩ : World).sittingsAt e p = w.sittingsAt e p := by
  simp only [sittingsAt, hsplit, List.filter_append, List.filter_cons, hiff, decide_eq_true_eq]
  by_cases hat : x.store.IsAt e p
  · simp only [if_pos hat]
    exact Or.inl ⟨hat, _, _, rfl, rfl⟩
  · simp only [if_neg hat]
    exact Or.inr ⟨hat, trivial⟩

lemma exists_split {xs : List Sitting} {i : Nat} {x : Sitting} (hx : xs[i]? = some x)
    (y : Sitting) : ∃ after before, xs = after ++ x :: before ∧ xs.set i y = after ++ y :: before := by
  obtain ⟨hi, rfl⟩ := List.getElem?_eq_some_iff.1 hx
  obtain ⟨after, before, hsplit, -, hset⟩ : ∃ after before, xs = after ++ xs[i] :: before ∧
      after.length = i ∧ xs.set i y = after ++ y :: before := List.exists_of_set hi
  exact ⟨after, before, hsplit, hset⟩

/-- A sitting that goes on keeps the invariant if its directory stays in order. -/
lemma Invariant.replace (hw : w.Invariant e p) {after before : List Sitting} {x y : Sitting}
    (hsplit : w.sittings = after ++ x :: before) (hextends : w.host.Extends host)
    (hcoherent : y.Coherent) (hlocated : host.Located y.location y.inMemory y.store)
    (horderly : Orderly (host.table e p) ((⟨host, after ++ y :: before⟩ : World).sittingsAt e p)) :
    (⟨host, after ++ y :: before⟩ : World).Invariant e p := by
  have hcoherents := hw.coherent
  have hlocateds := hw.located
  rw [hsplit, List.forall_mem_append, List.forall_mem_cons] at hcoherents hlocateds
  refine ⟨?_, ?_, horderly⟩
  · rw [List.forall_mem_append, List.forall_mem_cons]
    exact ⟨hcoherents.1, hcoherent, hcoherents.2.2⟩
  · rw [List.forall_mem_append, List.forall_mem_cons]
    exact ⟨fun z hz => (hlocateds.1 z hz).extends hextends, hlocated,
      fun z hz => (hlocateds.2.2 z hz).extends hextends⟩

/-- Of a sitting that is not finished, no newer one has begun. -/
lemma eq_nil_of_not_finished {kept : Table} {newer older : List Sitting} {x : Sitting}
    (horderly : Orderly kept (newer ++ x :: older)) (hx : ¬x.Finished) : newer = [] := by
  cases newer with
  | nil => rfl
  | cons y newer =>
    exact absurd (horderly.finished x (List.mem_append_right _ List.mem_cons_self)) hx

/-- Only the latest sitting can write, and what it makes durable is all that it has written. -/
lemma orderly_ask {x : Sitting} {r : Request} {newer older : List Sitting}
    (horderly : Orderly (host.table e p) (newer ++ x :: older)) (hat : x.store.IsAt e p)
    (hdropped : x.dropped = false) :
    Orderly ((host.serve x.store r).1.table e p) (newer ++ x.ask r :: older) := by
  rw [Host.table_serve]
  cases hcounts : counts (r, (x.store.serve r).2) with
  | false =>
    have hkept : ¬(r.makesDurable = true ∧ (x.store.serve r).2 = .done ∧ x.store.IsAt e p) := by
      rintro ⟨hdurable, hdone, -⟩
      rw [counts, hdone, hdurable] at hcounts
      cases hcounts
    rw [if_neg hkept]
    refine horderly.replace rfl (table_ask_of_not_counts hcounts) ?_
      (settled_ask_of_not_counts hcounts).1
    exact Or.imp_left fun hclosed => (ask_of_closed hclosed r).2 ▸ hclosed
  | true =>
    -- What has counted has been asked of an open store, so it is the latest sitting that wrote it.
    have hfinished : ¬x.Finished := by
      rintro (hclosed | hdrop)
      · rw [(ask_of_closed hclosed r).1] at hcounts
        cases hcounts
      · rw [hdropped] at hdrop
        cases hdrop
    obtain rfl := eq_nil_of_not_finished horderly hfinished
    refine Orderly.head horderly rfl fun hsettled => ?_
    have hdone : (x.store.serve r).2 = .done := eq_of_beq (Bool.and_eq_true_iff.1 hcounts).1
    exact if_pos ⟨(settled_ask_of_counts hcounts).1 hsettled, hdone, hat⟩

lemma Invariant.ask (hw : w.Invariant e p) (i : Nat) (r : Request) :
    (w.step (.ask i r)).Invariant e p := by
  rw [step]
  split
  · rename_i x hx
    split_ifs with hdropped
    · exact hw
    · obtain ⟨after, before, hsplit, hset⟩ := exists_split hx (x.ask r)
      have hmem : x ∈ w.sittings := List.mem_of_getElem? hx
      have hextends := w.host.extends_serve x.store r
      have hlocated := ((hw.located x hmem).serve r).extends hextends
      rw [hset]
      refine hw.replace hsplit hextends ((hw.coherent x hmem).ask r) hlocated ?_
      have horderly := hw.orderly
      rcases sittingsAt_replace (y := x.ask r) hsplit (Store.isAt_serve r)
          (w.host.serve x.store r).1 with ⟨hat, newer, older, hold, hnew⟩ | ⟨hat, heq⟩
      · rw [hold] at horderly
        rw [hnew]
        exact orderly_ask horderly hat (Bool.eq_false_iff.2 hdropped)
      · rw [heq, Host.table_serve, if_neg fun hkeep => hat hkeep.2.2]
        exact horderly
  · exact hw

lemma Invariant.drop (hw : w.Invariant e p) (i : Nat) : (w.step (.drop i)).Invariant e p := by
  rw [step]
  split
  · rename_i x hx
    obtain ⟨after, before, hsplit, hset⟩ := exists_split hx x.drop
    have hmem : x ∈ w.sittings := List.mem_of_getElem? hx
    rw [hset]
    refine hw.replace hsplit (.refl w.host) (hw.coherent x hmem).drop (hw.located x hmem) ?_
    have horderly := hw.orderly
    rcases sittingsAt_replace (y := x.drop) hsplit Iff.rfl w.host with
      ⟨-, newer, older, hold, hnew⟩ | ⟨-, heq⟩
    · rw [hold] at horderly
      rw [hnew]
      exact horderly.replace rfl rfl (fun _ => Or.inr rfl) id
    · rw [heq]
      exact horderly
  · exact hw

theorem Run.invariant (hnew : host.table e p = ∅) (hw : w.Run e p host) : w.Invariant e p := by
  induction hw with
  | start => exact invariant_start hnew
  | @step w hw event hevent ih =>
    cases event with
    | openStore location inMemory => exact ih.openStore hevent
    | ask i r => exact ih.ask i r
    | drop i => exact ih.drop i

/--
Sittings in a directory in which nothing has been kept pass their contents on, as long as each of
them waits for the end of the one before it: the first starts with nothing, and each other one with
what the one before it has written. They are the sittings whose locations lead to the directory,
however these are spelled. A store in memory starts with nothing on every host.
-/
theorem Run.succeed_sittingsAt (hnew : host.table e p = ∅) (hw : w.Run e p host) :
    Succeed (w.sittingsAt e p) ∧
      (∀ x ∈ w.sittings,
        x ∈ w.sittingsAt e p ↔ w.host.LeadsTo x.location x.inMemory e p) ∧
      ∀ (h h' : Host) (location : String) (inMemory : Bool) (l : Location) (store : Store),
        Location.parse location inMemory = .ok l → l.InMemory →
        h.openStore location inMemory = (h', .ok store) → store.table = ∅ := by
  have hinvariant := hw.invariant hnew
  refine ⟨hinvariant.orderly.succeed, fun x hx => ?_, ?_⟩
  · rw [← (hinvariant.located x hx).isAt_iff, sittingsAt, List.mem_filter, decide_eq_true_eq]
    exact and_iff_right hx
  · intro h h' location inMemory l store hparse hl hopen
    exact Host.table_of_inMemory hopen hparse hl

/-- A store that has been synced and dropped, a store in memory, and the first one again. -/
theorem Run.succeed_sittingsAt_reopened :
    let p : Place := [⟨['a'], by decide⟩, Host.work, Host.temporary]
    let w₁ := ((((World.start Host.new).step (.openStore "a" false)).step
      (.ask 0 (.set [107] [118]))).step (.ask 0 .sync)).step (.drop 0)
    let w₂ := (w₁.step (.openStore "a" true)).step (.ask 0 (.set [107] []))
    let w := w₂.step (.openStore "./a/" false)
    Host.new.table .tree p = ∅ ∧ w.Run .tree p Host.new ∧ Succeed (w.sittingsAt .tree p) ∧
      (w.sittingsAt .tree p).map (fun x => (x.location, x.start.get? [107]))
        = [("./a/", some [118]), ("a", none)] ∧
      (∀ x ∈ w.sittingsAt .tree p, w.host.LeadsTo x.location x.inMemory .tree p) ∧
      ∃ store, (w.host.openStore "a" true).2 = .ok store ∧ store.table = ∅ := by
  intro p w₁ w₂ w
  have hnew : Host.new.table .tree p = ∅ := rfl
  have hw₁ : w₁.Run .tree p Host.new := by
    refine .step (.step (.step (.step .start ?_) ?_) ?_) ?_
    · rintro store - - x ⟨⟩
    all_goals exact trivial
  have hw₂ : w₂.Run .tree p Host.new := by
    refine .step (.step hw₁ ?_) ?_
    · exact fun _ _ _ => by decide +kernel
    · exact trivial
  have hw : w.Run .tree p Host.new := by
    refine .step hw₂ ?_
    exact fun _ _ _ => by decide +kernel
  obtain ⟨hsucceed, hleads, hmemory⟩ := Run.succeed_sittingsAt hnew hw
  refine ⟨hnew, hw, hsucceed, by decide +kernel, fun x hx => ?_, ?_⟩
  · exact (hleads x (List.mem_filter.1 hx).1).1 hx
  · have hopens : (w.host.openStore "a" true).2.isOk = true := by decide +kernel
    rcases hopen : w.host.openStore "a" true with ⟨h', (error | store)⟩
    · rw [hopen] at hopens
      cases hopens
    · exact ⟨store, rfl, hmemory _ _ _ _ (.tree .memory) store (by decide +kernel) rfl hopen⟩

end World

end ByteStore
