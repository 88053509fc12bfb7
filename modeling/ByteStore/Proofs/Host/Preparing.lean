import ByteStore.Proofs.FileTree.Text
import ByteStore.Proofs.Host.Additions

/-!
# Preparing a directory

A path names a directory if its steps lead there (`Host.Names`), and a directory has many names. The
place that a path is prepared at has the shortest of them for its text. Whatever name of the place is
prepared afterwards, nothing changes and the place is the same (`Host.Prepared`).
-/

namespace ByteStore

/-! ### Trees -/

namespace FileTree

variable {t : FileTree} {p q workingDirectory : Place} {steps : List Step} {text : String}

/-- No directory is made where the steps lead to one. -/
lemma make_of_walk (hq : t.walk p steps = .ok q) : t.make p steps = .error .alreadyExists := by
  obtain rfl | ⟨front, last, rfl⟩ := List.eq_nil_or_concat' steps
  · rfl
  · obtain ⟨r, hr, hlast⟩ := walk_concat_eq_ok.1 hq
    rw [make, List.getLast?_concat]
    dsimp only
    rw [List.dropLast_concat, hr]
    cases last with
    | here => rfl
    | up => rfl
    | overlong => cases hlast
    | name n =>
      obtain ⟨hdirectory, -⟩ := step_name_eq_ok.1 hlast
      simp only [bind, Except.bind, hdirectory]
      rfl

lemma accept_of_walk {f : Fault} (hq : t.walk p steps = .ok q) (hm : t.make p steps = .error f) :
    t.accept p steps f = .ok () := by
  rw [make_of_walk hq] at hm
  cases hm
  simp only [accept, hq]

lemma makeAll_of_walk (hq : t.walk p steps = .ok q) : t.makeAll p steps = (t, .ok ()) := by
  have hmake := make_of_walk hq
  rw [makeAll]
  split_ifs
  · rfl
  · rw [hmake]
    dsimp only
    rw [accept_of_walk hq hmake]

/-- If steps lead to a directory after an attempt to make it, then the attempt has succeeded. -/
lemma makeAll_eq_ok_of_walk (hq : (t.makeAll p steps).1.walk p steps = .ok q) :
    (t.makeAll p steps).2 = .ok () := by
  fun_induction makeAll t p steps generalizing q with
  | case1 => rfl
  | case2 => rfl
  | case3 steps hne hmissing hlt t' f hparent ih =>
    -- What leads to the end leads to the parent, so the parent could have been made.
    obtain ⟨rest, hrest⟩ := Path.isPrefix_parent steps
    rw [← hrest] at hq
    obtain ⟨r, hr, -⟩ := walk_append_eq_ok.1 hq
    rw [hparent] at ih
    exact ih hr
  | case4 => rfl
  | case5 steps hne hmissing hlt t' hparent f hm ih => exact accept_of_walk hq hm
  | case6 steps hne f hmissing hm => exact accept_of_walk hq hm

/-- The names on the way to a directory lead there from the root. -/
lemma walk_place (hp : t.at? p = some .directory) :
    t.walk [] (p.reverse.map .name) = .ok p := by
  induction p with
  | nil => rfl
  | cons n p ih =>
    have hparent := ih (at?_parent (Option.isSome_of_eq_some hp))
    rw [List.reverse_cons, List.map_append]
    exact walk_concat_eq_ok.2 ⟨p, hparent, step_name_eq_ok.2 ⟨hp, rfl⟩⟩

end FileTree

/-! ### Names of directories -/

namespace Host

variable {h h' : Host} {path : String} {p : Place}

/-- Whether a path names a directory: whether its steps, taken one after the other, lead there. -/
def Names (h : Host) (path : String) (p : Place) : Prop :=
  FileTree.checkText path = .ok () ∧ path ≠ "" ∧
    h.tree.walk ((Path.ofChars path.toList).start h.workingDirectory) (Path.ofChars path.toList).steps
      = .ok p

lemma Names.unique {q : Place} (hp : h.Names path p) (hq : h.Names path q) : p = q :=
  Except.ok.inj (hp.2.2.symm.trans hq.2.2)

lemma Extends.names (hh : h.Extends h') (hp : h.Names path p) : h'.Names path p := by
  obtain ⟨hcheck, hne, hwalk⟩ := hp
  refine ⟨hcheck, hne, ?_⟩
  rw [hh.workingDirectory]
  exact hh.tree.walk hwalk

lemma Names.directory (hp : h.Names path p) : h.tree.at? p = some .directory :=
  FileTree.directory_of_walk (FileTree.directory_start h.isDirectory _) hp.2.2

lemma resolves_iff : h.Resolves path p ↔
    h.Names path p ∧ p.text.utf8ByteSize < FileTree.pathLimit := by
  rw [Resolves, FileTree.resolve_eq_ok_iff, Names]
  tauto

/-- The text of a directory is one of its names. -/
lemma names_text (hp : h.tree.at? p = some .directory)
    (hshort : p.text.utf8ByteSize < FileTree.pathLimit) : h.Names p.text p := by
  refine ⟨?_, p.text_ne_empty, ?_⟩
  · have hnul : ¬ p.text.toList.contains '\x00' := by
      simpa using p.nul_notMem_text
    rw [FileTree.checkText, if_neg hnul, if_neg (Nat.not_le.2 hshort)]
  · rw [Place.start_text, Place.steps_text]
    exact FileTree.walk_place hp

/-! ### Preparing -/

lemma makeDirectory_of_names (hp : h.Names path p) : h.makeDirectory path = (h, .ok ()) := by
  obtain ⟨hcheck, -, hwalk⟩ := hp
  simp only [makeDirectory, FileTree.makeDirectory, hcheck, FileTree.makeAll_of_walk hwalk]

lemma makeDirectory_eq_ok_of_names (hp : (h.makeDirectory path).1.Names path p) :
    (h.makeDirectory path).2 = .ok () := by
  obtain ⟨hcheck, -, hwalk⟩ := hp
  simp only [makeDirectory, FileTree.makeDirectory, hcheck] at hwalk ⊢
  exact FileTree.makeAll_eq_ok_of_walk hwalk

/-- A path is prepared at a place exactly if it resolves to the place afterwards. -/
lemma prepareDirectory_eq_ok_iff : (h.prepareDirectory path).2 = .ok p ↔
    (h.prepareDirectory path).1.Resolves path p := by
  constructor
  · intro hp
    exact resolves_of_prepareDirectory (Prod.ext rfl hp)
  · rw [prepareDirectory]
    rcases hmade : h.makeDirectory path with ⟨h', f | ⟨⟩⟩
    · dsimp only
      intro hp
      have hok : (h.makeDirectory path).2 = .ok () := by
        apply makeDirectory_eq_ok_of_names
        rw [hmade]
        exact (resolves_iff.1 hp).1
      rw [hmade] at hok
      cases hok
    · dsimp only
      cases hresolve : h'.tree.resolve h'.workingDirectory path with
      | ok q =>
        dsimp only
        intro hp
        rw [Except.ok.inj (hresolve.symm.trans hp)]
      | error f =>
        dsimp only
        intro hp
        cases hresolve.symm.trans hp

/-- Nothing is left to be done for a path that names a directory. -/
lemma prepareDirectory_of_names (hp : h.Names path p)
    (hshort : p.text.utf8ByteSize < FileTree.pathLimit) :
    h.prepareDirectory path = (h, .ok p) := by
  have hmade := makeDirectory_of_names hp
  have hresolves : h.Resolves path p := resolves_iff.2 ⟨hp, hshort⟩
  rw [Resolves] at hresolves
  rw [prepareDirectory, hmade]
  dsimp only
  rw [hresolves]

/--
What a host is like once a path has been prepared at a place. The text of the place is canonical and,
like the path, it names the place, which is a directory. Whatever names the place is prepared there
without any change, the path and the text among them.
-/
structure Prepared (h : Host) (path : String) (p : Place) : Prop where
  canonical : Path.IsCanonical p.text.toList
  directory : h.tree.at? p = some .directory
  names : h.Names path p
  namesText : h.Names p.text p
  again : h.prepareDirectory path = (h, .ok p)
  againText : h.prepareDirectory p.text = (h, .ok p)
  aliases : ∀ path', h.Names path' p → h.prepareDirectory path' = (h, .ok p)

lemma Resolves.prepared (hp : h.Resolves path p) : h.Prepared path p := by
  obtain ⟨hnames, hshort⟩ := resolves_iff.1 hp
  have hdirectory := hnames.directory
  have hnamesText := names_text hdirectory hshort
  have haliases : ∀ path', h.Names path' p → h.prepareDirectory path' = (h, .ok p) :=
    fun path' hpath' => prepareDirectory_of_names hpath' hshort
  exact ⟨p.isCanonical_text, hdirectory, hnames, hnamesText, haliases path hnames,
    haliases p.text hnamesText, haliases⟩

/-- Two paths are prepared at places of one text exactly if they name one directory in the end. -/
lemma Prepared.text_eq_iff {h' : Host} {path' : String} {p' : Place} (hp : h.Prepared path p)
    (hp' : h.prepareDirectory path' = (h', .ok p')) :
    p'.text = p.text ↔ ∃ q, h'.Names path q ∧ h'.Names path' q := by
  have hextends : h.Extends h' :=
    ((h.makes_prepareDirectory path').of_eq hp').extends
  have hnames := hextends.names hp.names
  have hnames' := (resolves_iff.1 (resolves_of_prepareDirectory hp')).1
  constructor
  · intro htext
    rw [Place.text_injective htext] at hnames'
    exact ⟨p, hnames, hnames'⟩
  · rintro ⟨q, hq, hq'⟩
    rw [hnames'.unique hq', hnames.unique hq]

/--
Preparing a path keeps everything that is there and adds nothing but directories on the way, whether
it succeeds or fails. It succeeds exactly if the path names a directory afterwards whose text is no
longer than a path may be. Then the path is prepared, and another path is prepared at a place of the
same text exactly if it names the same directory.
-/
theorem prepareDirectory_canonical (h : Host) (path : String) :
    let h' := (h.prepareDirectory path).1
    h.Prepares h' ∧
    h.tree.AddsAlong ((Path.ofChars path.toList).start h.workingDirectory)
      (Path.ofChars path.toList).steps h'.tree ∧
    ∀ p, ((h.prepareDirectory path).2 = .ok p ↔
        h'.Names path p ∧ p.text.utf8ByteSize < FileTree.pathLimit) ∧
      ((h.prepareDirectory path).2 = .ok p → h'.Prepared path p ∧
        ∀ path' h'' p', h'.prepareDirectory path' = (h'', .ok p') →
          (p'.text = p.text ↔ ∃ q, h''.Names path q ∧ h''.Names path' q)) := by
  have hmakes := h.makes_prepareDirectory path
  refine ⟨hmakes.prepares, hmakes.addsAlong, ?_⟩
  intro p
  constructor
  · rw [prepareDirectory_eq_ok_iff, resolves_iff]
  · intro hp
    have hprepared := (prepareDirectory_eq_ok_iff.1 hp).prepared
    refine ⟨hprepared, ?_⟩
    intro path' h'' p' hp'
    exact hprepared.text_eq_iff hp'

/-- A detour through a directory that is not there makes that one, too. -/
theorem prepareDirectory_canonical_detour :
    let h' := (new.prepareDirectory "tmp/..//./work").1
    (new.prepareDirectory "tmp/..//./work").2 = .ok [work, work, temporary] ∧
    h'.Prepared "tmp/..//./work" [work, work, temporary] ∧
    Place.text [work, work, temporary] = "/tmp/work/work" ∧
    h'.tree.at? [temporary, work, temporary] = some .directory ∧
    ∃ q, h'.Names "tmp/..//./work" q ∧ h'.Names "../work/work/" q := by
  have hplace : (new.prepareDirectory "tmp/..//./work").2 = .ok [work, work, temporary] := by
    decide +kernel
  have hother : (new.prepareDirectory "tmp/..//./work").1.prepareDirectory "../work/work/"
      = ((new.prepareDirectory "tmp/..//./work").1, .ok [work, work, temporary]) := by
    decide +kernel
  obtain ⟨hprepared, hsame⟩ := ((prepareDirectory_canonical new _).2.2 _).2 hplace
  exact ⟨hplace, hprepared, by decide +kernel, by decide +kernel, (hsame _ _ _ hother).1 rfl⟩

end Host

end ByteStore
