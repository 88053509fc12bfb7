import ByteStore.Text.Digits
import ByteStore.Yaml.Cursor

/-!
# YAML scalars

A scalar is plain, between apostrophes or quotation marks, or a block of lines. Over several lines a
scalar is folded: the end of a single line counts as a space, and ends of lines in a row count one
less.
-/

namespace ByteStore.Yaml

/-! ### Folding -/

/-- The white space since the last word of a scalar, each part reversed. -/
structure Gap where
  /-- The blanks, as long as the line has not ended. -/
  blanks : List Char
  breaks : List Char
  /-- Whether a backslash has ended a line, which then counts as nothing. -/
  joined : Bool

namespace Gap

/-- No white space. -/
def none : Gap := ⟨[], [], false⟩

/-- The gap after a backslash at the end of a line. -/
def afterJoin : Gap := ⟨[], [], true⟩

/-- Whether a line has ended. -/
def isLeading (g : Gap) : Bool := g.joined || !g.breaks.isEmpty

/-- Whether there is any white space. -/
def isEmpty (g : Gap) : Bool := g.blanks.isEmpty && g.breaks.isEmpty && !g.joined

/-- Adds a blank, or the end of a line. Blanks at the ends of lines do not count. -/
def add (g : Gap) (c : Char) : Gap :=
  if isBreak c then { g with blanks := [], breaks := c :: g.breaks }
  else if g.isLeading then g
  else { g with blanks := c :: g.blanks }

/-- What white space stands for within a scalar. -/
def fold (g : Gap) : List Char :=
  match g.breaks.reverse with
  | [] => g.blanks.reverse
  | b :: bs =>
    if g.joined ∨ b ≠ '\n' then b :: bs
    else if bs.isEmpty then [' ']
    else bs

end Gap

/-- The line and the column after a character. -/
def moved (line column : Nat) (c : Char) : Nat × Nat :=
  if isBreak c then (line + 1, 0) else (line, column + 1)

/-! ### Scalars between marks -/

/-- The characters that letters stand for after a backslash. -/
def escapes : List (Char × Char) :=
  [('0', '\x00'), ('a', '\x07'), ('b', '\x08'), ('t', '\t'), ('\t', '\t'), ('n', '\n'),
    ('v', '\x0b'), ('f', '\x0c'), ('r', '\r'), ('e', '\x1b'), (' ', ' '), ('"', '"'), ('/', '/'),
    ('\\', '\\'), ('N', '\u0085'), ('_', '\u00a0'), ('L', '\u2028'), ('P', '\u2029')]

/-- The rest of a scalar between apostrophes; `out` holds what comes before it, reversed. -/
def apostrophes (line column : Nat) (out : List Char) (gap : Gap) :
    List Char → Option (List Char × Cursor)
  | [] => none
  | c :: s =>
    if column = 0 ∧ atDocument (c :: s) then none
    else if isBlank c || isBreak c then
      let (line, column) := moved line column c
      apostrophes line column out (gap.add c) s
    else
      let out := gap.fold.reverse ++ out
      if c = '\'' then
        match s with
        | '\'' :: s => apostrophes line (column + 2) ('\'' :: out) .none s
        | s => some (out.reverse, ⟨s, line, column + 1⟩)
      else apostrophes line (column + 1) (c :: out) .none s

/-- The rest of a scalar between quotation marks; `out` holds what comes before it, reversed. -/
def quotationMarks (line column : Nat) (out : List Char) (gap : Gap) (text : List Char) :
    Option (List Char × Cursor) :=
  if column = 0 ∧ atDocument text then none
  else
    let out' := gap.fold.reverse ++ out
    let after (digits : List Char) (next : Nat → List Char → Option (List Char × Cursor)) :
        Option (List Char × Cursor) := do
      let x ← Text.character? digits
      next (column + digits.length + 2) (x :: out')
    match text with
    | [] => none
    | '"' :: s => some (out'.reverse, ⟨s, line, column + 1⟩)
    | '\\' :: 'x' :: a :: b :: s =>
      after [a, b] fun column out => quotationMarks line column out .none s
    | '\\' :: 'u' :: a :: b :: c :: d :: s =>
      after [a, b, c, d] fun column out => quotationMarks line column out .none s
    | '\\' :: 'U' :: a :: b :: c :: d :: e :: f :: g :: h :: s =>
      after [a, b, c, d, e, f, g, h] fun column out => quotationMarks line column out .none s
    | '\\' :: c :: s =>
      if isBreak c then quotationMarks (line + 1) 0 out' .afterJoin s
      else
        match escapes.lookup c with
        | some x => quotationMarks line (column + 2) (x :: out') .none s
        | none => none
    | c :: s =>
      if isBlank c || isBreak c then
        let (line, column) := moved line column c
        quotationMarks line column out (gap.add c) s
      else quotationMarks line (column + 1) (c :: out') .none s

/-! ### Plain scalars -/

/-- Whether a character opens, closes or parts a flow collection. -/
def isFlowMark (c : Char) : Bool :=
  c == ',' || c == '[' || c == ']' || c == '\x7b' || c == '\x7d'

/-- Whether a plain scalar ends before a character, where the text after it is `s`. -/
def endsPlain (inFlow : Bool) (c : Char) (s : List Char) : Bool :=
  (c == ':' && atGap s) || (inFlow && isFlowMark c)

/-- Whether a colon in a flow collection stands where none may. -/
def isStrayColon (inFlow : Bool) (c : Char) (s : List Char) : Bool :=
  inFlow && c == ':' && s.head?.any fun d => isFlowMark d || d == '?'

/-- Whether a plain scalar has ended in the white space before a character. -/
def endsInGap (inFlow : Bool) (margin column : Nat) (c : Char) (s : List Char) : Bool :=
  c == '#' || (!inFlow && decide (column < margin)) || (column == 0 && atDocument (c :: s))

/--
The rest of a plain scalar, and whether a line has ended after it. Outside flow collections its
lines start in the column `margin` at least.
-/
def plain (inFlow : Bool) (margin : Nat) (line column : Nat) (out : List Char) (gap : Gap) :
    List Char → Option (List Char × Bool × Cursor)
  | [] => some (out.reverse, gap.isLeading, ⟨[], line, column⟩)
  | c :: s =>
    if isBlank c || isBreak c then
      if gap.isLeading ∧ column < margin ∧ c = '\t' then none
      else
        let (line', column') := moved line column c
        plain inFlow margin line' column' out (gap.add c) s
    else if !gap.isEmpty && endsInGap inFlow margin column c s then
      some (out.reverse, gap.isLeading, ⟨c :: s, line, column⟩)
    else if isStrayColon inFlow c s then none
    else if endsPlain inFlow c s then some (out.reverse, gap.isLeading, ⟨c :: s, line, column⟩)
    else plain inFlow margin line (column + 1) (c :: (gap.fold.reverse ++ out)) .none s

/-! ### Blocks -/

/-- What becomes of the ends of lines after the last line of a block. -/
inductive Chomping
  /-- All are left out. -/
  | strip
  /-- The first one stays. -/
  | clip
  /-- All stay. -/
  | keep
  deriving DecidableEq, Repr

/-- The header of a block: what is to become of its end, and its indentation if that is given. -/
structure BlockHeader where
  chomping : Chomping
  indent : Option Nat

/-- The chomping that a sign stands for. -/
def chomping? (c : Char) : Option Chomping :=
  if c = '+' then some .keep else if c = '-' then some .strip else none

/-- The header of a block, after the character that starts it. -/
def blockHeader (s : List Char) : Option (BlockHeader × List Char) :=
  let digit? (c : Char) : Option Nat :=
    if c.isDigit then some (c.toNat - '0'.toNat) else none
  let indent? (s : List Char) : Option (Option Nat × List Char) :=
    match s.head? >>= digit? with
    | some 0 => none
    | some n => some (some n, s.drop 1)
    | none => some (none, s)
  match s.head? >>= chomping? with
  | some chomping => do
    let (indent, s) ← indent? (s.drop 1)
    return (⟨chomping, indent⟩, s)
  | none => do
    let (indent, s) ← indent? s
    match s.head? >>= chomping? with
    | some chomping =>
      if indent.isSome then return (⟨chomping, indent⟩, s.drop 1)
      else return (⟨.clip, indent⟩, s)
    | none => return (⟨.clip, indent⟩, s)

/-- The rest of a line in which only a comment may stand, up to its end. -/
def lineRest (s : List Char) : Option (List Char) :=
  match s.dropWhile isBlank with
  | [] => some []
  | '#' :: s => some (s.dropWhile fun c => !isBreak c)
  | c :: s => if isBreak c then some (c :: s) else none

/--
The lines without content at the beginning of a block: their ends, reversed, the widest column of
spaces, and where the content starts.
-/
def blockStart (widest line column : Nat) (breaks : List Char) :
    List Char → Option (Nat × List Char × Cursor)
  | [] => some (max widest column, breaks, ⟨[], line, column⟩)
  | c :: s =>
    if c = ' ' then blockStart widest line (column + 1) breaks s
    else if c = '\t' then none
    else if isBreak c then blockStart (max widest column) (line + 1) 0 (c :: breaks) s
    else some (max widest column, breaks, ⟨c :: s, line, column⟩)

/-- What has been read of a block, each part reversed. -/
structure Block where
  out : List Char
  /-- The end of the last line with content, as long as it is not in `out`. -/
  lineBreak : List Char
  /-- The ends of the lines without content after it. -/
  breaks : List Char
  /-- Whether the last line with content starts with a blank. -/
  startsBlank : Bool

/-- A block to which a line is added that starts with the character `c`. -/
def Block.addLine (b : Block) (folded : Bool) (c : Char) : Block :=
  let isFolded := folded && b.lineBreak == ['\n'] && !b.startsBlank && !isBlank c
  let joint := if isFolded then (if b.breaks.isEmpty then [' '] else []) else b.lineBreak
  { out := c :: (b.breaks ++ joint ++ b.out)
    lineBreak := []
    breaks := []
    startsBlank := isBlank c }

/-- The text of a block. -/
def Block.text (b : Block) (chomping : Chomping) : List Char :=
  (match chomping with
    | .strip => b.out
    | .clip => b.lineBreak ++ b.out
    | .keep => b.breaks ++ b.lineBreak ++ b.out).reverse

/-- The lines of a block with content. Their text starts in the column `indent`. -/
def blockLines (folded : Bool) (indent : Nat) (inLine : Bool) (line column : Nat) (b : Block) :
    List Char → Option (Block × Cursor)
  | [] => some (b, ⟨[], line, column⟩)
  | c :: s =>
    if inLine then
      if isBreak c then
        blockLines folded indent false (line + 1) 0 { b with lineBreak := [c] } s
      else blockLines folded indent true line (column + 1) { b with out := c :: b.out } s
    else if c = ' ' ∧ column < indent then
      blockLines folded indent false line (column + 1) b s
    else if c = '\t' ∧ column < indent then none
    else if isBreak c then
      blockLines folded indent false (line + 1) 0 { b with breaks := c :: b.breaks } s
    else if column = indent then
      blockLines folded indent true line (column + 1) (b.addLine folded c) s
    else some (b, ⟨c :: s, line, column⟩)

/--
A block, after the character that starts it. The lines of what holds the block start in the column
before `margin`, so its own do not start before `margin`.
-/
def block (folded : Bool) (margin : Nat) (k : Cursor) : Option (List Char × Cursor) := do
  let (header, s) ← blockHeader k.rest
  let s ← lineRest s
  let (line, s) :=
    match s with
    | [] => (k.line, [])
    | _ :: s => (k.line + 1, s)
  match header.indent with
  | some n =>
    let (b, k) ← blockLines folded (margin - 1 + n) false line 0 ⟨[], [], [], false⟩ s
    return (b.text header.chomping, k)
  | none =>
    let (widest, breaks, k) ← blockStart 0 line 0 [] s
    let indent := max (max widest margin) 1
    let (b, k) ← blockLines folded indent false k.line k.column ⟨[], [], breaks, false⟩ k.rest
    return (b.text header.chomping, k)

end ByteStore.Yaml
