import ByteStore.Host
import Mathlib.Tactic.Common

/-!
# Opening a store

Preparing the surroundings of a store makes the directory of a path, if the store has one, and does
nothing else to the host (`Host.Makes`): what engines have made durable and the number of stores
opened stay as they are. So an open that succeeds starts a store, on a host that keeps what the old
one kept, and an open that fails leaves no store behind.
-/

namespace ByteStore

/-! ### Paths of locations -/

def TreeSite.path? : TreeSite → Option String
  | .memory => none
  | .directory path => some path

def ObjectStore.path? : ObjectStore → Option String
  | .directory path => some path
  | _ => none

namespace Location

def engine : Location → Engine
  | .tree _ => .tree
  | .objects _ => .objects

/-- The path of a location on disk. -/
def path? : Location → Option String
  | .tree site => site.path?
  | .objects site => site.objects.path?

/-- Whether a location asks for a store in memory. -/
def InMemory : Location → Prop
  | .tree site => site = .memory
  | .objects site => site.objects = .memory

lemma InMemory.path? {l : Location} (hl : l.InMemory) : l.path? = none := by
  cases l with
  | tree site =>
    cases hl
    rfl
  | objects site =>
    have hobjects : site.objects = .memory := hl
    rw [Location.path?, hobjects]
    rfl

end Location

namespace Host

variable {h h₁ h₂ : Host}

/-! ### Preparations -/

/-- One host prepares another if they differ at most in their files. -/
structure Prepares (h h' : Host) : Prop where
  workingDirectory : h'.workingDirectory = h.workingDirectory
  kept : h'.kept = h.kept
  opened : h'.opened = h.opened

lemma Prepares.refl (h : Host) : h.Prepares h := ⟨rfl, rfl, rfl⟩

lemma Prepares.trans (h₁₂ : h.Prepares h₁) (h₂₃ : h₁.Prepares h₂) : h.Prepares h₂ :=
  ⟨h₂₃.workingDirectory.trans h₁₂.workingDirectory, h₂₃.kept.trans h₁₂.kept,
    h₂₃.opened.trans h₁₂.opened⟩

lemma prepares_makeDirectory (h : Host) (path : String) : h.Prepares (h.makeDirectory path).1 :=
  ⟨rfl, rfl, rfl⟩

/-- What may come of a host when the directory of a path, if there is one, is made several times. -/
inductive Makes (h : Host) (path? : Option String) : Host → Prop
  | refl : h.Makes path? h
  | make {h' : Host} {path : String} (hmakes : h.Makes path? h') (hpath : path? = some path) :
      h.Makes path? (h'.makeDirectory path).1

variable {path? : Option String}

lemma Makes.trans (h₁₂ : h.Makes path? h₁) (h₂₃ : h₁.Makes path? h₂) : h.Makes path? h₂ := by
  induction h₂₃ with
  | refl => exact h₁₂
  | make _ hpath ih => exact .make ih hpath

lemma Makes.of_eq {α : Type} {p : Host × α} {a : α} (hp : h.Makes path? p.1)
    (heq : p = (h₁, a)) : h.Makes path? h₁ := by
  subst heq
  exact hp

lemma Makes.prepares (hmakes : h.Makes path? h₁) : h.Prepares h₁ := by
  induction hmakes with
  | refl => exact .refl h
  | make _ _ ih => exact ih.trans (prepares_makeDirectory _ _)

lemma makes_prepareDirectory (h : Host) (path : String) :
    h.Makes (some path) (h.prepareDirectory path).1 := by
  have hmade : h.Makes (some path) (h.makeDirectory path).1 := .make .refl rfl
  rw [prepareDirectory]
  split
  · exact hmade.of_eq ‹_›
  · split <;> exact hmade.of_eq ‹_›

lemma makes_prepareTree (h : Host) (site : TreeSite) :
    h.Makes site.path? (h.prepareTree site).1 := by
  cases site with
  | memory => exact .refl
  | directory path =>
    have hmade : h.Makes (some path) (h.makeDirectory path).1 := .make .refl rfl
    rw [prepareTree]
    split
    · exact hmade.of_eq ‹_›
    · split <;> exact hmade.of_eq ‹_›

lemma makes_createObjectStore (h : Host) (o : ObjectStore) :
    h.Makes o.path? (h.createObjectStore o).1 := by
  cases o with
  | directory path =>
    have hprepared := h.makes_prepareDirectory path
    rw [createObjectStore]
    split <;> exact hprepared.of_eq ‹_›
  | _ => exact .refl

lemma makes_prepareObjects (h : Host) (o : ObjectStore) :
    h.Makes o.path? (h.prepareObjects o).1 := by
  cases o with
  | directory path =>
    have hprepared := h.makes_prepareDirectory path
    rw [prepareObjects]
    split <;> exact hprepared.of_eq ‹_›
  | _ => exact .refl

lemma makes_prepareSite (h : Host) (site : ObjectsSite) :
    h.Makes site.objects.path? (h.prepareSite site).1 := by
  have hobjects := h.makes_prepareObjects site.objects
  rw [prepareSite]
  split
  · exact hobjects.of_eq ‹_›
  · rename_i h₁ home hprepared
    have hcreated := (hobjects.of_eq hprepared).trans (h₁.makes_createObjectStore site.objects)
    split
    · exact hcreated.of_eq ‹_›
    · rename_i h₂ hcreate
      have hready : h.Makes site.objects.path? h₂ := hcreated.of_eq hcreate
      split
      · exact hready
      · split <;> exact hready

/-! ### Stores that start -/

lemma startIf_eq_ok {e : Engine} {findable : Option Place → Bool}
    {home : Except Error (Option Place)} {s : Store}
    (hs : h.startIf e findable home = (h₁, .ok s)) :
    ∃ place, home = .ok place ∧ (h₁, s) = h.start e place (findable place) := by
  cases home with
  | error x => cases hs
  | ok place =>
    cases hs
    exact ⟨place, rfl, rfl⟩

lemma startIf_eq_error {e : Engine} {findable : Option Place → Bool}
    {home : Except Error (Option Place)} {x : Error}
    (hx : h.startIf e findable home = (h₁, .error x)) : h₁ = h := by
  cases home with
  | error y =>
    cases hx
    rfl
  | ok place => cases hx

/-- A store that opens is one that starts on a prepared host. -/
theorem openLocation_eq_ok {l : Location} {s : Store} (hs : h.openLocation l = (h₁, .ok s)) :
    ∃ h₀ e home findable, h.Prepares h₀ ∧ (h₁, s) = h₀.start e home findable := by
  cases l with
  | tree site =>
    obtain ⟨place, -, hstart⟩ := startIf_eq_ok hs
    exact ⟨_, _, _, _, (h.makes_prepareTree site).prepares, hstart⟩
  | objects site =>
    obtain ⟨place, -, hstart⟩ := startIf_eq_ok hs
    exact ⟨_, _, _, _, (h.makes_prepareSite site).prepares, hstart⟩

lemma openLocation_eq_error {l : Location} {x : Error}
    (hx : h.openLocation l = (h₁, .error x)) : h.Prepares h₁ := by
  cases l with
  | tree site =>
    rw [startIf_eq_error hx]
    exact (h.makes_prepareTree site).prepares
  | objects site =>
    rw [startIf_eq_error hx]
    exact (h.makes_prepareSite site).prepares

theorem openStore_eq_ok {location : String} {inMemory : Bool} {s : Store}
    (hs : h.openStore location inMemory = (h₁, .ok s)) :
    ∃ h₀ e home findable, h.Prepares h₀ ∧ (h₁, s) = h₀.start e home findable := by
  rw [openStore] at hs
  split at hs
  · cases hs
  · split at hs
    · rename_i hopen
      cases hs
      exact openLocation_eq_ok hopen
    · cases hs

/-- An open that fails changes files at most. -/
theorem openStore_eq_error {location : String} {inMemory : Bool} {x : Error}
    (hx : h.openStore location inMemory = (h₁, .error x)) : h.Prepares h₁ := by
  rw [openStore] at hx
  split at hx
  · cases hx
    exact Prepares.refl h
  · split at hx
    · cases hx
    · rename_i hopen
      cases hx
      exact openLocation_eq_error hopen

/-- Every store that opens is open, and starts with nothing or with what its engine has kept. -/
theorem open_of_openStore {location : String} {inMemory : Bool} {s : Store}
    (hs : h.openStore location inMemory = (h₁, .ok s)) :
    s.closed = false ∧ s.log ≠ .fenced ∧
      s.table = (s.home.map (h.table s.engine)).getD ∅ := by
  obtain ⟨h₀, e, home, findable, hprepares, hstart⟩ := openStore_eq_ok hs
  cases hstart
  refine ⟨rfl, Log.new_ne_fenced e findable, ?_⟩
  cases home with
  | none => rfl
  | some place => simp only [table, hprepares.kept, Option.map_some, Option.getD_some]

/-! ### Hosts after an open -/

lemma exists_startIf_eq (h : Host) (e : Engine) (findable : Option Place → Bool)
    (home : Except Error (Option Place)) :
    ∃ n, (h.startIf e findable home).1 = { h with opened := n } := by
  cases home with
  | error x => exact ⟨h.opened, rfl⟩
  | ok place => exact ⟨h.opened + 1, rfl⟩

/-- Opening at a location makes directories, and counts the store if it opens. -/
lemma exists_openLocation_eq (h : Host) (l : Location) :
    ∃ h₀ n, h.Makes l.path? h₀ ∧ (h.openLocation l).1 = { h₀ with opened := n } := by
  cases l with
  | tree site =>
    obtain ⟨n, hn⟩ := exists_startIf_eq (h.prepareTree site).1 .tree (fun _ => true)
      (h.prepareTree site).2
    exact ⟨_, n, h.makes_prepareTree site, hn⟩
  | objects site =>
    obtain ⟨n, hn⟩ := exists_startIf_eq (h.prepareSite site).1 .objects (isFindable site)
      (h.prepareSite site).2
    exact ⟨_, n, h.makes_prepareSite site, hn⟩

/-- A text that is no location leaves the host alone. -/
lemma openStore_cases (h : Host) (location : String) (inMemory : Bool) :
    (∃ e, Location.parse location inMemory = .error e ∧
      (h.openStore location inMemory).1 = h) ∨
    ∃ l h₀ n, Location.parse location inMemory = .ok l ∧ h.Makes l.path? h₀ ∧
      (h.openStore location inMemory).1 = { h₀ with opened := n } := by
  cases hparse : Location.parse location inMemory with
  | error e =>
    refine .inl ⟨e, rfl, ?_⟩
    rw [openStore, hparse]
  | ok l =>
    obtain ⟨h₀, n, hmakes, hn⟩ := h.exists_openLocation_eq l
    refine .inr ⟨l, h₀, n, rfl, hmakes, ?_⟩
    rw [openStore, hparse]
    rcases hopen : h.openLocation l with ⟨h', e | store⟩
    · rw [hopen] at hn
      simpa only [hopen] using hn
    · rw [hopen] at hn
      simpa only [hopen] using hn

end Host

end ByteStore
