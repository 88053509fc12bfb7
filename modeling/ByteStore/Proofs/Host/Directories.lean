import ByteStore.Proofs.Host.Durability

/-!
# The directories of locations

A location on disk names a path, and the path resolves to a directory, whatever the spelling. A store
opens where its location resolves to (`Host.located_openStore`). As directories are made and never
removed, a location goes on resolving to the same directory.
-/

namespace ByteStore

/-! ### Growing trees -/

namespace FileTree

variable {t t' t'' : FileTree} {p q workingDirectory : Place} {text : String}

/-- Whether all directories of one tree are directories of another. -/
def Extends (t t' : FileTree) : Prop := ∀ q, t.at? q = some .directory → t'.at? q = some .directory

lemma Extends.refl (t : FileTree) : t.Extends t := fun _ hq => hq

lemma Extends.trans (h : t.Extends t') (h' : t'.Extends t'') : t.Extends t'' :=
  fun q hq => h' q (h q hq)

lemma extends_makeDirectory (t : FileTree) (workingDirectory : Place) (text : String) :
    t.Extends (t.makeDirectory workingDirectory text).1 :=
  fun _ hq => directory_makeDirectory hq

/-- A name leads to a directory of that name. -/
lemma step_name_eq_ok {n : Name} :
    t.step p (.name n) = .ok q ↔ t.at? (n :: p) = some .directory ∧ q = n :: p := by
  constructor
  · intro hq
    simp only [FileTree.step] at hq
    split at hq
    · cases hq
      exact ⟨by assumption, rfl⟩
    · cases hq
    · cases hq
  · rintro ⟨hdirectory, rfl⟩
    simp only [FileTree.step, hdirectory]

lemma Extends.step (h : t.Extends t') {step : Step} (hq : t.step p step = .ok q) :
    t'.step p step = .ok q := by
  cases step with
  | here => exact hq
  | up => exact hq
  | overlong => exact hq
  | name n =>
    obtain ⟨hdirectory, rfl⟩ := step_name_eq_ok.1 hq
    exact step_name_eq_ok.2 ⟨h _ hdirectory, rfl⟩

/-- Steps that lead to a directory lead there in every larger tree. -/
lemma Extends.walk (h : t.Extends t') {steps : List Step} (hq : t.walk p steps = .ok q) :
    t'.walk p steps = .ok q := by
  induction steps generalizing p with
  | nil => exact hq
  | cons step steps ih =>
    rw [FileTree.walk, List.foldlM_cons] at hq ⊢
    cases hstep : t.step p step with
    | error f =>
      rw [hstep] at hq
      cases hq
    | ok p' =>
      rw [hstep] at hq
      rw [h.step hstep]
      exact ih hq

/-- A path resolves to what lies at the end of its steps, if that is not too long to be spelled. -/
lemma resolve_eq_ok_iff : t.resolve workingDirectory text = .ok p ↔
    checkText text = .ok () ∧ text ≠ "" ∧
      t.walk ((Path.ofChars text.toList).start workingDirectory) (Path.ofChars text.toList).steps
        = .ok p ∧ p.text.utf8ByteSize < pathLimit := by
  simp only [FileTree.resolve]
  cases hcheck : checkText text with
  | error f => simp [bind, Except.bind]
  | ok u =>
    by_cases hempty : text = ""
    · simp [bind, Except.bind, throw, throwThe, MonadExceptOf.throw, hempty]
    · cases hwalk : t.walk ((Path.ofChars text.toList).start workingDirectory)
          (Path.ofChars text.toList).steps with
      | error f => simp [bind, Except.bind, hempty]
      | ok q =>
        by_cases hlong : q.text.utf8ByteSize ≥ pathLimit
        · have hne : q = p → ¬ p.text.utf8ByteSize < pathLimit := by
            rintro rfl
            exact Nat.not_lt.2 hlong
          simp only [bind, Except.bind, throw, throwThe, MonadExceptOf.throw, hlong]
          simpa [hempty] using hne
        · have hlt : q = p → p.text.utf8ByteSize < pathLimit := by
            rintro rfl
            exact Nat.not_le.1 hlong
          simp only [bind, Except.bind, pure, Except.pure, hlong]
          simpa [hempty] using hlt

lemma Extends.resolve (h : t.Extends t') (hp : t.resolve workingDirectory text = .ok p) :
    t'.resolve workingDirectory text = .ok p := by
  obtain ⟨hcheck, hne, hwalk, hshort⟩ := resolve_eq_ok_iff.1 hp
  exact resolve_eq_ok_iff.2 ⟨hcheck, hne, h.walk hwalk, hshort⟩

end FileTree

/-! ### Growing hosts -/

namespace Host

variable {h h' h'' h₁ h₂ : Host} {l : Location} {s : Store} {p : Place} {path location : String}
  {inMemory : Bool}

/-- Whether one host starts its paths where another does, and has all its directories. -/
structure Extends (h h' : Host) : Prop where
  workingDirectory : h'.workingDirectory = h.workingDirectory
  tree : h.tree.Extends h'.tree

lemma Extends.refl (h : Host) : h.Extends h := ⟨rfl, .refl h.tree⟩

lemma Extends.trans (hh : h.Extends h') (hh' : h'.Extends h'') : h.Extends h'' :=
  ⟨hh'.workingDirectory.trans hh.workingDirectory, hh.tree.trans hh'.tree⟩

/-- Whether a path resolves to a place. -/
def Resolves (h : Host) (path : String) (p : Place) : Prop :=
  h.tree.resolve h.workingDirectory path = .ok p

lemma Resolves.unique {q : Place} (hp : h.Resolves path p) (hq : h.Resolves path q) : p = q :=
  Except.ok.inj (hp.symm.trans hq)

lemma Extends.resolves (hh : h.Extends h') (hp : h.Resolves path p) : h'.Resolves path p := by
  rw [Resolves, hh.workingDirectory]
  exact hh.tree.resolve hp

lemma extends_makeDirectory (h : Host) (path : String) : h.Extends (h.makeDirectory path).1 :=
  ⟨rfl, FileTree.extends_makeDirectory _ _ _⟩

/-- No directory is lost when directories are made. -/
lemma Makes.extends {path? : Option String} (hmakes : h.Makes path? h') : h.Extends h' := by
  induction hmakes with
  | refl => exact .refl h
  | make _ _ ih => exact ih.trans (extends_makeDirectory _ _)

/-! ### Preparing directories -/

lemma Extends.rel_resolves (hh : h.Extends h') {path? : Option String} {home : Option Place}
    (hhome : Option.Rel h.Resolves path? home) : Option.Rel h'.Resolves path? home := by
  cases hhome with
  | none => exact .none
  | some hp => exact .some (hh.resolves hp)

lemma resolves_of_prepareDirectory (hp : h.prepareDirectory path = (h₁, .ok p)) :
    h₁.Resolves path p := by
  rw [prepareDirectory] at hp
  split at hp
  · cases hp
  · split at hp
    · cases hp
      assumption
    · cases hp

lemma rel_of_prepareTree {site : TreeSite} {home : Option Place}
    (hhome : h.prepareTree site = (h₁, .ok home)) : Option.Rel h₁.Resolves site.path? home := by
  cases site with
  | memory =>
    cases hhome
    exact .none
  | directory path =>
    rw [prepareTree] at hhome
    split at hhome
    · cases hhome
    · split at hhome
      · cases hhome
        exact .some ‹_›
      · cases hhome

lemma rel_of_prepareObjects {o : ObjectStore} {home : Option Place}
    (hhome : h.prepareObjects o = (h₁, .ok home)) : Option.Rel h₁.Resolves o.path? home := by
  cases o with
  | directory path =>
    rw [prepareObjects] at hhome
    split at hhome
    · cases hhome
      exact .some (resolves_of_prepareDirectory ‹_›)
    · cases hhome
  | _ =>
    cases hhome
    exact .none

lemma rel_of_prepareSite {site : ObjectsSite} {home : Option Place}
    (hhome : h.prepareSite site = (h₂, .ok home)) :
    Option.Rel h₂.Resolves site.objects.path? home := by
  rw [prepareSite] at hhome
  split at hhome
  · cases hhome
  · rename_i h₁ home' hprepared
    have hcreated := h₁.makes_createObjectStore site.objects
    split at hhome
    · cases hhome
    · rename_i hcreate
      split at hhome
      · cases hhome
      · split at hhome
        · cases hhome
        · cases hhome
          exact (hcreated.of_eq hcreate).extends.rel_resolves (rel_of_prepareObjects hprepared)

/-! ### Opening -/

/-- No directory is lost where a store opens. -/
lemma extends_openStore (h : Host) (location : String) (inMemory : Bool) :
    h.Extends (h.openStore location inMemory).1 := by
  rcases h.openStore_cases location inMemory with ⟨e, -, heq⟩ | ⟨l, h₀, n, -, hmakes, heq⟩
  · rw [heq]
    exact .refl h
  · rw [heq]
    exact hmakes.extends.trans ⟨rfl, .refl h₀.tree⟩

lemma extends_serve (h : Host) (s : Store) (r : Request) : h.Extends (h.serve s r).1 := by
  rw [serve]
  dsimp only
  split
  · rw [keep]
    split <;> exact ⟨rfl, .refl h.tree⟩
  · exact .refl h

lemma rel_of_openLocation (hs : h.openLocation l = (h₁, .ok s)) :
    s.engine = l.engine ∧ Option.Rel h₁.Resolves l.path? s.home := by
  cases l with
  | tree site =>
    rcases hprepared : h.prepareTree site with ⟨h', home⟩
    simp only [openLocation, hprepared] at hs
    obtain ⟨place, rfl, hstart⟩ := startIf_eq_ok hs
    have hhome := rel_of_prepareTree hprepared
    cases hstart
    exact ⟨rfl, hhome⟩
  | objects site =>
    rcases hprepared : h.prepareSite site with ⟨h', home⟩
    simp only [openLocation, hprepared] at hs
    obtain ⟨place, rfl, hstart⟩ := startIf_eq_ok hs
    have hhome := rel_of_prepareSite hprepared
    cases hstart
    exact ⟨rfl, hhome⟩

/-- Whether a store is on the engine and in the directory of a location, or in memory as it is. -/
def Located (h : Host) (location : String) (inMemory : Bool) (s : Store) : Prop :=
  ∃ l, Location.parse location inMemory = .ok l ∧ s.engine = l.engine ∧
    Option.Rel h.Resolves l.path? s.home

/-- Every store opens where its location says. -/
theorem located_openStore (hs : h.openStore location inMemory = (h₁, .ok s)) :
    h₁.Located location inMemory s := by
  rw [openStore] at hs
  split at hs
  · cases hs
  · rename_i l hparse
    split at hs
    · rename_i hopen
      cases hs
      exact ⟨l, hparse, rel_of_openLocation hopen⟩
    · cases hs

lemma Located.extends (hs : h.Located location inMemory s) (hh : h.Extends h') :
    h'.Located location inMemory s := by
  obtain ⟨l, hparse, hengine, hhome⟩ := hs
  exact ⟨l, hparse, hengine, hh.rel_resolves hhome⟩

lemma Located.serve (hs : h.Located location inMemory s) (r : Request) :
    h.Located location inMemory (s.serve r).1 := by
  obtain ⟨l, hparse, hengine, hhome⟩ := hs
  exact ⟨l, hparse, (s.engine_serve r).trans hengine, (s.home_serve r).symm ▸ hhome⟩

/-- Whether a location names a directory, on an engine. -/
def LeadsTo (h : Host) (location : String) (inMemory : Bool) (e : Engine) (p : Place) : Prop :=
  ∃ l path, Location.parse location inMemory = .ok l ∧ l.engine = e ∧ l.path? = some path ∧
    h.Resolves path p

/-- A store keeps its data in a directory exactly if its location leads there, however spelled. -/
theorem Located.isAt_iff (hs : h.Located location inMemory s) {e : Engine} {p : Place} :
    s.IsAt e p ↔ h.LeadsTo location inMemory e p := by
  obtain ⟨l, hparse, hengine, hhome⟩ := hs
  constructor
  · rintro ⟨rfl, hp⟩
    rw [hp] at hhome
    cases hpath : l.path? with
    | none =>
      rw [hpath] at hhome
      cases hhome
    | some path =>
      rw [hpath] at hhome
      cases hhome with
      | some hresolves => exact ⟨l, path, hparse, hengine.symm, hpath, hresolves⟩
  · rintro ⟨l', path, hparse', rfl, hpath, hresolves⟩
    cases Except.ok.inj (hparse.symm.trans hparse')
    rw [hpath] at hhome
    generalize hhome' : s.home = home at hhome
    cases hhome with
    | some hresolves' =>
      rw [hresolves.unique hresolves']
      exact ⟨hengine, hhome'⟩

/-- A store in memory starts with nothing, whatever has been done on the host. -/
theorem table_of_inMemory (hs : h.openStore location inMemory = (h₁, .ok s))
    (hparse : Location.parse location inMemory = .ok l) (hl : l.InMemory) : s.table = ∅ := by
  obtain ⟨l', hparse', -, hhome⟩ := located_openStore hs
  cases Except.ok.inj (hparse.symm.trans hparse')
  rw [hl.path?] at hhome
  rw [(open_of_openStore hs).2.2]
  generalize s.home = home at hhome
  cases hhome
  rfl

end Host

end ByteStore
