import ByteStore.FileTree.Path

/-!
# File trees

A file tree has a node at some places: a directory, a file with its text, or a device. Everything
stands in a directory, and the root is one. There are no links, so the parent of a directory is the
one that its place names, and no permissions, so every file can be read and a directory can be made
in every other one.
-/

namespace ByteStore

/-- What stands at a place. -/
inductive Node
  | directory
  | file (text : String)
  | device
  deriving DecidableEq, Repr

namespace FileTree

/-- The node that a list of nodes has at a place. The root is a directory. -/
def nodeAt (nodes : List (Place × Node)) (p : Place) : Option Node :=
  if p = [] then some .directory else nodes.lookup p

/-- Why something cannot be done with a path. -/
inductive Fault
  /-- Something stands where a directory is to be made. -/
  | alreadyExists
  /-- The path leads through something that is no directory. -/
  | notDirectory
  /-- The path, or a name in it, is too long. -/
  | nameTooLong
  /-- The path leads through nothing. -/
  | missing
  /-- The path holds a character that no path can hold. -/
  | nulByte
  deriving DecidableEq, Repr

def Fault.message : Fault → String
  | .alreadyExists => "File exists (os error 17)"
  | .notDirectory => "Not a directory (os error 20)"
  | .nameTooLong => "File name too long (os error 36)"
  | .missing => "No such file or directory (os error 2)"
  | .nulByte => "file name contained an unexpected NUL byte"

end FileTree

/-- A file tree: its nodes, the latest first. -/
structure FileTree where
  nodes : List (Place × Node)
  rooted : ∀ n p, (FileTree.nodeAt nodes (n :: p)).isSome →
    FileTree.nodeAt nodes p = some .directory
  deriving DecidableEq

namespace FileTree

/-- The node at a place. -/
def at? (t : FileTree) (p : Place) : Option Node := nodeAt t.nodes p

/-- The tree of a root without anything in it. -/
def empty : FileTree where
  nodes := []
  rooted n p h := by simp [nodeAt] at h

@[simp] theorem at?_root (t : FileTree) : t.at? [] = some .directory := rfl

theorem at?_parent {t : FileTree} {n : Name} {p : Place} (h : (t.at? (n :: p)).isSome) :
    t.at? p = some .directory :=
  t.rooted n p h

/-! ### Changing a tree -/

private theorem lookup_cons_eq (p q : Place) (node : Node) (nodes : List (Place × Node)) :
    ((p, node) :: nodes).lookup q = if q = p then some node else nodes.lookup q := by
  rw [List.lookup_cons]
  by_cases h : q = p
  · simp [h]
  · simp [h, beq_eq_false_iff_ne.2 h]

theorem nodeAt_cons (n : Name) (p q : Place) (node : Node) (nodes : List (Place × Node)) :
    nodeAt ((n :: p, node) :: nodes) q = if q = n :: p then some node else nodeAt nodes q := by
  unfold nodeAt
  by_cases hq : q = []
  · subst hq
    simp
  · rw [if_neg hq, if_neg hq, lookup_cons_eq]

/--
Puts a node under a name into a directory. Where there is no such directory, or where the name is
that of another directory, the tree stays as it is.
-/
def put (t : FileTree) (p : Place) (n : Name) (node : Node) : FileTree :=
  if h : t.at? p = some .directory ∧ t.at? (n :: p) ≠ some .directory then
    { nodes := (n :: p, node) :: t.nodes
      rooted := fun m q hq => by
        rw [nodeAt_cons] at hq ⊢
        have hself : q ≠ n :: p → nodeAt t.nodes q = some .directory →
            (if q = n :: p then some node else nodeAt t.nodes q) = some .directory :=
          fun hne hd => by rw [if_neg hne, hd]
        by_cases hm : m :: q = n :: p
        · obtain ⟨rfl, rfl⟩ := List.cons.inj hm
          exact hself (fun he => absurd (congrArg List.length he) (by simp)) h.1
        · rw [if_neg hm] at hq
          have hd := t.rooted m q hq
          exact hself (fun he => h.2 (he ▸ hd)) hd }
  else t

theorem at?_put {t : FileTree} {p : Place} {n : Name} {node : Node}
    (hp : t.at? p = some .directory) (hn : t.at? (n :: p) ≠ some .directory) (q : Place) :
    (t.put p n node).at? q = if q = n :: p then some node else t.at? q := by
  rw [put, dif_pos ⟨hp, hn⟩]
  exact nodeAt_cons ..

/-- A directory stays a directory. -/
theorem directory_put {t : FileTree} {q : Place} (h : t.at? q = some .directory) (p : Place)
    (n : Name) (node : Node) : (t.put p n node).at? q = some .directory := by
  by_cases hp : t.at? p = some .directory ∧ t.at? (n :: p) ≠ some .directory
  · have hne : q ≠ n :: p := fun he => hp.2 (he ▸ h)
    rw [at?_put hp.1 hp.2, if_neg hne, h]
  · rw [put, dif_neg hp, h]

/-! ### Walking -/

/-- The directory that one step leads to. -/
def step (t : FileTree) (p : Place) : Step → Except Fault Place
  | .here => .ok p
  | .up => .ok p.tail
  | .name n =>
    match t.at? (n :: p) with
    | some .directory => .ok (n :: p)
    | some _ => .error .notDirectory
    | none => .error .missing
  | .overlong => .error .nameTooLong

/-- The directory that steps lead to, one after the other. -/
def walk (t : FileTree) (p : Place) (steps : List Step) : Except Fault Place :=
  steps.foldlM t.step p

/-- The place of what steps lead to, be it a directory or not. -/
def find (t : FileTree) (p : Place) (steps : List Step) : Except Fault Place :=
  match steps.getLast? with
  | some (.name n) => do
    let q ← t.walk p steps.dropLast
    if (t.at? (n :: q)).isSome then return n :: q else throw .missing
  | _ => t.walk p steps

/-! ### Making directories -/

/-- Makes the directory that steps lead to, in a directory that is there. -/
def make (t : FileTree) (p : Place) (steps : List Step) : Except Fault FileTree :=
  match steps.getLast? with
  | none => .error .alreadyExists
  | some last => do
    let q ← t.walk p steps.dropLast
    match last with
    | .name n =>
      if (t.at? (n :: q)).isSome then throw .alreadyExists
      return t.put q n .directory
    | .overlong => throw .nameTooLong
    | _ => throw .alreadyExists

theorem directory_make {t t' : FileTree} {p : Place} {steps : List Step}
    (hm : t.make p steps = .ok t') {q : Place} (h : t.at? q = some .directory) :
    t'.at? q = some .directory := by
  unfold make at hm
  split at hm
  · simp at hm
  · cases hw : t.walk p steps.dropLast with
    | error f => simp [hw, bind, Except.bind] at hm
    | ok r =>
      simp only [hw, bind, Except.bind] at hm
      split at hm
      · split at hm
        · simp [throw, throwThe, MonadExceptOf.throw] at hm
        · simp only [pure, Except.pure, Except.ok.injEq] at hm
          exact hm ▸ directory_put h ..
      all_goals simp [throw, throwThe, MonadExceptOf.throw] at hm

/-- Passes a directory that could not be made because it is there. -/
def accept (t : FileTree) (p : Place) (steps : List Step) (f : Fault) : Except Fault Unit :=
  match f, t.walk p steps with
  | .alreadyExists, .ok _ => .ok ()
  | f, _ => .error f

/--
Makes the directory that steps lead to and, if something is missing on the way, its parent first. A
directory that could be made stays, even if a later one could not.
-/
def makeAll (t : FileTree) (p : Place) (steps : List Step) : FileTree × Except Fault Unit :=
  if h : steps = [] then (t, .ok ())
  else
    match t.make p steps with
    | .ok t' => (t', .ok ())
    | .error .missing =>
      have := Path.length_parent_lt h
      match t.makeAll p (Path.parent steps) with
      | (t', .error f) => (t', .error f)
      | (t', .ok ()) =>
        match t'.make p steps with
        | .ok t'' => (t'', .ok ())
        | .error f => (t', t'.accept p steps f)
    | .error f => (t, t.accept p steps f)
termination_by steps.length
decreasing_by exact this

theorem directory_makeAll {t : FileTree} {p : Place} {steps : List Step} {q : Place}
    (h : t.at? q = some .directory) : (t.makeAll p steps).1.at? q = some .directory := by
  induction hn : steps.length using Nat.strongRecOn generalizing steps with
  | ind n ih =>
    subst hn
    rw [makeAll]
    split
    · exact h
    · rename_i hne
      split
      · rename_i hm
        exact directory_make hm h
      · have hp := ih _ (Path.length_parent_lt hne) rfl
        split
        · rename_i hr
          simpa [hr] using hp
        · rename_i t' hr
          have ht' : t'.at? q = some .directory := by simpa [hr] using hp
          split
          · rename_i hm
            exact directory_make hm ht'
          · exact ht'
      · exact h

/-! ### Texts of paths -/

/-- The number of bytes that no path reaches. -/
def pathLimit : Nat := 4096

/-- Passes a text that may be the text of a path. -/
def checkText (text : String) : Except Fault Unit :=
  if text.toList.contains '\x00' then .error .nulByte
  else if text.utf8ByteSize ≥ pathLimit then .error .nameTooLong
  else .ok ()

/-- Makes the directory that a path leads to. Nothing is to be made for the empty path. -/
def makeDirectory (t : FileTree) (workingDirectory : Place) (text : String) :
    FileTree × Except Fault Unit :=
  match checkText text with
  | .error f => (t, .error f)
  | .ok () =>
    let path := Path.ofChars text.toList
    t.makeAll (path.start workingDirectory) path.steps

theorem directory_makeDirectory {t : FileTree} {workingDirectory : Place} {text : String}
    {q : Place} (h : t.at? q = some .directory) :
    (t.makeDirectory workingDirectory text).1.at? q = some .directory := by
  unfold makeDirectory
  split
  · exact h
  · exact directory_makeAll h

/-- The directory that a path leads to. The empty path leads nowhere. -/
def resolve (t : FileTree) (workingDirectory : Place) (text : String) : Except Fault Place := do
  checkText text
  if text.isEmpty then throw .missing
  let path := Path.ofChars text.toList
  let place ← t.walk (path.start workingDirectory) path.steps
  if place.text.utf8ByteSize ≥ pathLimit then throw .nameTooLong
  return place

/-- What a path leads to. -/
def status (t : FileTree) (workingDirectory : Place) (text : String) : Option Node :=
  let path := Path.ofChars text.toList
  match checkText text, t.find (path.start workingDirectory) path.steps with
  | .ok (), .ok place =>
    match t.at? place with
    | some .directory => if text.isEmpty then none else some .directory
    | node => if path.endsInSlash then none else node
  | _, _ => none

/-- Writes a file at a path, into a directory that is there. -/
def writeFile (t : FileTree) (workingDirectory : Place) (path text : String) : FileTree :=
  let path := Path.ofChars path.toList
  match path.steps.getLast?, t.walk (path.start workingDirectory) path.steps.dropLast with
  | some (.name n), .ok place => t.put place n (.file text)
  | _, _ => t

theorem directory_writeFile {t : FileTree} {workingDirectory : Place} {path text : String}
    {q : Place} (h : t.at? q = some .directory) :
    (t.writeFile workingDirectory path text).at? q = some .directory := by
  unfold writeFile
  dsimp only
  split
  · exact directory_put h ..
  · exact h

end FileTree

end ByteStore
