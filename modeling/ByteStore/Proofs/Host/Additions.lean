import ByteStore.Proofs.Host.Directories

/-!
# What opening adds

Where a store opens, every file and every directory stays. All that is new are directories that the
first steps of the location's path lead to (`FileTree.AddsAlong`), and a store in memory adds none.
-/

namespace ByteStore

/-! ### Beginnings of paths -/

namespace Path

lemma isPrefix_trimEnd (steps : List Step) : trimEnd steps <+: steps := by
  rw [trimEnd, ← List.reverse_suffix, List.reverse_reverse]
  exact List.dropWhile_suffix _

lemma isPrefix_parent (steps : List Step) : parent steps <+: steps := by
  have hdropLast : (trimEnd steps).dropLast <+: trimEnd steps := List.dropLast_prefix _
  exact ((isPrefix_trimEnd _).trans hdropLast).trans (isPrefix_trimEnd steps)

end Path

/-! ### Trees -/

namespace FileTree

variable {t t' t'' : FileTree} {p q workingDirectory : Place} {steps front : List Step}

/--
Whether one tree has every node of another, and beside them only directories that the first of some
steps lead to.
-/
structure AddsAlong (t : FileTree) (p : Place) (steps : List Step) (t' : FileTree) : Prop where
  kept : ∀ q node, t.at? q = some node → t'.at? q = some node
  added : ∀ q node, t.at? q = none → t'.at? q = some node →
    node = .directory ∧ ∃ front, front <+: steps ∧ t'.walk p front = .ok q

lemma AddsAlong.refl (t : FileTree) (p : Place) (steps : List Step) : t.AddsAlong p steps t where
  kept _ _ hnode := hnode
  added q node hnone hnode := by
    rw [hnone] at hnode
    cases hnode

lemma AddsAlong.extends (h : t.AddsAlong p steps t') : t.Extends t' := fun q => h.kept q .directory

lemma AddsAlong.mono (h : t.AddsAlong p front t') (hfront : front <+: steps) :
    t.AddsAlong p steps t' where
  kept := h.kept
  added q node hnone hnode := by
    obtain ⟨hdirectory, first, hfirst, hwalk⟩ := h.added q node hnone hnode
    exact ⟨hdirectory, first, hfirst.trans hfront, hwalk⟩

lemma AddsAlong.trans (h : t.AddsAlong p steps t') (h' : t'.AddsAlong p steps t'') :
    t.AddsAlong p steps t'' where
  kept q node hnode := h'.kept q node (h.kept q node hnode)
  added q node hnone hnode := by
    cases hnode' : t'.at? q with
    | none => exact h'.added q node hnode' hnode
    | some node' =>
      obtain ⟨rfl, first, hfirst, hwalk⟩ := h.added q node' hnone hnode'
      have hdirectory := h'.kept q .directory hnode'
      exact ⟨Option.some.inj (hnode.symm.trans hdirectory), first, hfirst, h'.extends.walk hwalk⟩

/-! ### Making directories -/

lemma directory_of_step {step : Step} (hp : t.at? p = some .directory)
    (hq : t.step p step = .ok q) : t.at? q = some .directory := by
  cases step with
  | here =>
    cases hq
    exact hp
  | up =>
    cases hq
    cases p with
    | nil => rfl
    | cons n p => exact at?_parent (Option.isSome_of_eq_some hp)
  | overlong => cases hq
  | name n =>
    obtain ⟨hdirectory, rfl⟩ := step_name_eq_ok.1 hq
    exact hdirectory

/-- Steps lead from a directory to a directory. -/
lemma directory_of_walk (hp : t.at? p = some .directory) (hq : t.walk p steps = .ok q) :
    t.at? q = some .directory := by
  induction steps generalizing p with
  | nil =>
    cases hq
    exact hp
  | cons step steps ih =>
    rw [walk, List.foldlM_cons] at hq
    cases hstep : t.step p step with
    | error f =>
      rw [hstep] at hq
      cases hq
    | ok p' =>
      rw [hstep] at hq
      exact ih (directory_of_step hp hstep) hq

lemma walk_append_eq_ok {back : List Step} : t.walk p (front ++ back) = .ok q ↔
    ∃ r, t.walk p front = .ok r ∧ t.walk r back = .ok q := by
  rw [walk, walk, List.foldlM_append]
  cases hr : front.foldlM t.step p with
  | error f => simp [bind, Except.bind]
  | ok r => simp [bind, Except.bind, walk]

lemma walk_concat_eq_ok {step : Step} : t.walk p (front ++ [step]) = .ok q ↔
    ∃ r, t.walk p front = .ok r ∧ t.step r step = .ok q := by
  have hstep : ∀ r, t.walk r [step] = t.step r step := by
    intro r
    rw [walk, List.foldlM_cons]
    cases t.step r step <;> rfl
  simp only [walk_append_eq_ok, hstep]

/-- A directory that can be made has a free name, in a directory that the steps before lead to. -/
lemma make_eq_ok (hm : t.make p steps = .ok t') : ∃ front n q, steps = front ++ [.name n] ∧
    t.walk p front = .ok q ∧ t.at? (n :: q) = none ∧ t' = t.put q n .directory := by
  rw [make] at hm
  split at hm
  · cases hm
  · rename_i last hlast
    obtain ⟨front, rfl⟩ := List.getLast?_eq_some_iff.1 hlast
    rw [List.dropLast_concat] at hm
    cases hwalk : t.walk p front with
    | error f =>
      rw [hwalk] at hm
      cases hm
    | ok q =>
      rw [hwalk] at hm
      cases last with
      | name n =>
        cases hnode : t.at? (n :: q) with
        | none =>
          simp only [bind, Except.bind, hnode, Option.isSome_none] at hm
          cases hm
          exact ⟨front, n, q, rfl, hwalk, hnode, rfl⟩
        | some node =>
          simp only [bind, Except.bind, hnode, Option.isSome_some] at hm
          cases hm
      | _ => cases hm

lemma addsAlong_put {n : Name} (hp : t.at? p = some .directory) (hq : t.walk p front = .ok q)
    (hfree : t.at? (n :: q) = none) :
    t.AddsAlong p (front ++ [.name n]) (t.put q n .directory) := by
  have hdirectory := directory_of_walk hp hq
  have hnot : t.at? (n :: q) ≠ some .directory := by
    rw [hfree]
    exact (Option.some_ne_none _).symm
  constructor
  · intro q' node hnode
    rw [at?_put hdirectory hnot, if_neg, hnode]
    rintro rfl
    rw [hfree] at hnode
    cases hnode
  · intro q' node hnone hnode
    rw [at?_put hdirectory hnot] at hnode
    split_ifs at hnode with hq'
    · cases hnode
      subst hq'
      have hextends : t.Extends (t.put q n .directory) := fun _ h => directory_put h _ _ _
      have hmade : (t.put q n .directory).at? (n :: q) = some .directory := by
        rw [at?_put hdirectory hnot, if_pos rfl]
      have hstep := step_name_eq_ok.2 ⟨hmade, rfl⟩
      exact ⟨rfl, _, List.prefix_rfl, walk_concat_eq_ok.2 ⟨q, hextends.walk hq, hstep⟩⟩
    · rw [hnone] at hnode
      cases hnode

lemma addsAlong_make (hp : t.at? p = some .directory) (hm : t.make p steps = .ok t') :
    t.AddsAlong p steps t' := by
  obtain ⟨front, n, q, rfl, hwalk, hfree, rfl⟩ := make_eq_ok hm
  exact addsAlong_put hp hwalk hfree

/-- Whatever directories are made, they lie on the way. -/
lemma addsAlong_makeAll (hp : t.at? p = some .directory) (steps : List Step) :
    t.AddsAlong p steps (t.makeAll p steps).1 := by
  fun_induction makeAll t p steps with
  | case1 => exact .refl t p _
  | case2 steps hne t' hm => exact addsAlong_make hp hm
  | case3 steps hne hmissing hlt t' f hparent ih =>
    rw [hparent] at ih
    exact ih.mono (Path.isPrefix_parent steps)
  | case4 steps hne hmissing hlt t' hparent t'' hm ih =>
    rw [hparent] at ih
    have hadds : t.AddsAlong p steps t' := ih.mono (Path.isPrefix_parent steps)
    exact hadds.trans (addsAlong_make (hadds.kept _ _ hp) hm)
  | case5 steps hne hmissing hlt t' hparent f hm ih =>
    rw [hparent] at ih
    exact ih.mono (Path.isPrefix_parent steps)
  | case6 steps hne f hmissing hm => exact .refl t p steps

/-- A path starts from a directory. -/
lemma directory_start (hp : t.at? workingDirectory = some .directory) (path : Path) :
    t.at? (path.start workingDirectory) = some .directory := by
  rw [Path.start]
  split_ifs
  · rfl
  · exact hp

lemma addsAlong_makeDirectory (hp : t.at? workingDirectory = some .directory) (text : String) :
    t.AddsAlong ((Path.ofChars text.toList).start workingDirectory)
      (Path.ofChars text.toList).steps (t.makeDirectory workingDirectory text).1 := by
  rw [makeDirectory]
  split
  · exact .refl ..
  · exact addsAlong_makeAll (directory_start hp _) _

end FileTree

/-! ### Hosts -/

namespace Host

variable {h h' : Host} {path : String}

/-- A host in which no path is made a directory of has the same files. -/
lemma Makes.tree_eq (hmakes : h.Makes none h') : h'.tree = h.tree := by
  cases hmakes with
  | refl => rfl
  | make _ hpath => cases hpath

lemma Makes.addsAlong (hmakes : h.Makes (some path) h') :
    h.tree.AddsAlong ((Path.ofChars path.toList).start h.workingDirectory)
      (Path.ofChars path.toList).steps h'.tree := by
  induction hmakes with
  | refl => exact .refl ..
  | @make h' path' hmakes hpath ih =>
    cases hpath
    have hadds := FileTree.addsAlong_makeDirectory h'.isDirectory path
    rw [← hmakes.prepares.workingDirectory] at ih ⊢
    exact ih.trans hadds

/-! ### Opening -/

/-- What is left of a host by an open: all that has been there, and directories on the way. -/
structure Spares (h : Host) (location : String) (inMemory : Bool) (h' : Host) : Prop where
  workingDirectory : h'.workingDirectory = h.workingDirectory
  kept : h'.kept = h.kept
  node : ∀ p node, h.tree.at? p = some node → h'.tree.at? p = some node
  added : ∀ p node, h.tree.at? p = none → h'.tree.at? p = some node →
    node = .directory ∧ ∃ l path front,
      Location.parse location inMemory = .ok l ∧ l.path? = some path ∧
      front <+: (Path.ofChars path.toList).steps ∧
      h'.tree.walk ((Path.ofChars path.toList).start h.workingDirectory) front = .ok p
  memory : ∀ l, Location.parse location inMemory = .ok l → l.InMemory → h'.tree = h.tree

lemma Spares.of_tree_eq {location : String} {inMemory : Bool}
    (hworking : h'.workingDirectory = h.workingDirectory) (hkept : h'.kept = h.kept)
    (htree : h'.tree = h.tree) : h.Spares location inMemory h' where
  workingDirectory := hworking
  kept := hkept
  node p node hnode := by rwa [htree]
  added p node hnone hnode := by
    rw [htree, hnone] at hnode
    cases hnode
  memory _ _ _ := htree

/-- Opening spares the host, whether it succeeds or fails. -/
theorem spares_openStore (h : Host) (location : String) (inMemory : Bool) :
    h.Spares location inMemory (h.openStore location inMemory).1 := by
  rcases h.openStore_cases location inMemory with
    ⟨e, hparse, heq⟩ | ⟨l, h₀, n, hparse, hmakes, heq⟩
  · rw [heq]
    exact .of_tree_eq rfl rfl rfl
  · rw [heq]
    have hprepares := hmakes.prepares
    cases hpath : l.path? with
    | none =>
      rw [hpath] at hmakes
      exact .of_tree_eq hprepares.workingDirectory hprepares.kept hmakes.tree_eq
    | some path =>
      rw [hpath] at hmakes
      have hadds := hmakes.addsAlong
      refine ⟨hprepares.workingDirectory, hprepares.kept, hadds.kept, ?_, ?_⟩
      · intro p node hnone hnode
        obtain ⟨hdirectory, front, hfront, hwalk⟩ := hadds.added p node hnone hnode
        exact ⟨hdirectory, l, path, front, hparse, hpath, hfront, hwalk⟩
      · intro l' hparse' hmemory
        cases Except.ok.inj (hparse.symm.trans hparse')
        rw [hmemory.path?] at hpath
        cases hpath

/-- An open that fails says so and nothing else, whatever has gone wrong. -/
lemma openStore_ok_or_openFailed (h : Host) (location : String) (inMemory : Bool) :
    (∃ store, (h.openStore location inMemory).2 = .ok store) ∨
      ∃ reason, (h.openStore location inMemory).2 = .error (.openFailed reason) := by
  rw [openStore]
  split
  · rename_i e hparse
    rw [Location.parse] at hparse
    split at hparse
    · cases hparse
    · rename_i f _
      cases hparse
      cases f with
      | document c => exact .inr ⟨_, rfl⟩
      | noBucket => exact .inr ⟨_, rfl⟩
  · split
    · exact .inl ⟨_, rfl⟩
    · rename_i e _
      cases e with
      | _ => exact .inr ⟨_, rfl⟩

end Host

end ByteStore
