import ByteStore.FileTree.Place
import ByteStore.Text.Split

/-!
# Paths

A path is a text that leads from a directory to a file. Its words, between slashes, are steps: to a
name, up to the parent, or nowhere. Slashes in a row count as one. A word that is too long for a
name is a step too, but one that cannot be taken.
-/

namespace ByteStore

/-- One step of a path. -/
inductive Step
  | here
  | up
  | name (name : Name)
  | overlong
  deriving DecidableEq

namespace Step

/-- The step that a word stands for. There is none for the empty word. -/
def ofWord? (word : List Char) : Option Step :=
  if word = [] then none
  else if word = ['.'] then some .here
  else if word = ['.', '.'] then some .up
  else if h : IsName word then some (.name ⟨word, h⟩)
  else some .overlong

end Step

/-- Where a path starts and which steps it takes. -/
structure Path where
  fromRoot : Bool
  steps : List Step
  /-- Whether the path ends with a slash, which only the path of a directory may do. -/
  endsInSlash : Bool
  deriving DecidableEq

namespace Path

/-- Reads a path. -/
def ofChars (s : List Char) : Path where
  fromRoot := s.head? == some '/'
  steps := (Text.split '/' s).filterMap Step.ofWord?
  endsInSlash := s.getLast? == some '/'

/-- The place a path starts from, in a working directory. -/
def start (p : Path) (workingDirectory : Place) : Place :=
  if p.fromRoot then [] else workingDirectory

/-! ### Parents -/

/-- Steps without those at the end that lead nowhere. -/
def trimEnd (steps : List Step) : List Step :=
  (steps.reverse.dropWhile (· == .here)).reverse

/-- The steps to the directory of what `steps` lead to. -/
def parent (steps : List Step) : List Step := trimEnd (trimEnd steps).dropLast

theorem length_trimEnd_le (steps : List Step) : (trimEnd steps).length ≤ steps.length := by
  have h := (List.dropWhile_sublist (l := steps.reverse) (· == Step.here)).length_le
  simpa [trimEnd] using h

theorem length_parent_lt {steps : List Step} (h : steps ≠ []) :
    (parent steps).length < steps.length := by
  have hpos := List.length_pos_iff.2 h
  have h1 := length_trimEnd_le (trimEnd steps).dropLast
  have h2 := length_trimEnd_le steps
  rw [List.length_dropLast] at h1
  unfold parent
  omega

end Path

end ByteStore
