import ByteStore.Yaml.Node
import ByteStore.Yaml.Resolution

/-!
# YAML documents

What a YAML document says. Its aliases are followed as it is read, which must not go on for long, so
a small text cannot stand for a huge value; nor may its collections be nested deeply.
-/

namespace ByteStore.Yaml

open Settings (Value Members)

namespace Node

/-! ### Sizes and anchors -/

mutual

/-- The number of marks in a node: each scalar and alias, and the two ends of each collection. -/
def size : Node → Nat
  | .scalar .. | .alias _ => 1
  | .sequence _ items => 2 + sizeOfItems items
  | .mapping _ members => 2 + sizeOfMembers members

/-- The number of marks in the items of a sequence. -/
def sizeOfItems : List Node → Nat
  | [] => 0
  | n :: ns => n.size + sizeOfItems ns

/-- The number of marks in the members of a mapping. -/
def sizeOfMembers : List (Node × Node) → Nat
  | [] => 0
  | (k, v) :: ms => k.size + v.size + sizeOfMembers ms

end

/-- The number of the anchor of a node. -/
def anchor? : Node → Option Nat
  | .scalar p .. | .sequence p _ | .mapping p _ => p.anchor
  | .alias _ => none

mutual

/-- The nodes with an anchor, in their order, each one before what is within it. -/
def anchored : Node → List (Nat × Node)
  | .scalar p text isPlain => (p.anchor.map (·, .scalar p text isPlain)).toList
  | .alias _ => []
  | .sequence p items => (p.anchor.map (·, .sequence p items)).toList ++ anchoredItems items
  | .mapping p members => (p.anchor.map (·, .mapping p members)).toList ++ anchoredMembers members

/-- The nodes with an anchor within the items of a sequence. -/
def anchoredItems : List Node → List (Nat × Node)
  | [] => []
  | n :: ns => n.anchored ++ anchoredItems ns

/-- The nodes with an anchor within the members of a mapping. -/
def anchoredMembers : List (Node × Node) → List (Nat × Node)
  | [] => []
  | (k, v) :: ms => k.anchored ++ v.anchored ++ anchoredMembers ms

end

/-! ### Values -/

/-- Reads values. The state is the number of aliases that may still be followed. -/
abbrev Resolver := StateT Nat Option

/-- The node that a node stands for. Of nodes with the same number the last one counts. -/
def follow (targets : List (Nat × Node)) : Node → Resolver Node
  | .alias number => do
    let left ← get
    guard (0 < left)
    set (left - 1)
    liftM (targets.lookup number)
  | n => return n

/-- The text of a key, which has to be a scalar. -/
def key (targets : List (Nat × Node)) (n : Node) : Resolver String := do
  match ← n.follow targets with
  | .scalar _ text _ => return text
  | _ => failure

/-- The value of a node in which collections are nested at most so deep. -/
def value (targets : List (Nat × Node)) : Nat → Node → Resolver Value
  | depth, n => do
    match ← n.follow targets, depth with
    | .scalar p text isPlain, _ => liftM (scalarValue p.tag text isPlain)
    | .sequence p items, depth + 1 =>
      guard !isLocalTag p.tag
      return .list (← items.mapM (value targets depth))
    | .mapping p members, depth + 1 =>
      guard !isLocalTag p.tag
      let ms ← members.mapM fun m => do return (← m.1.key targets, ← value targets depth m.2)
      return .table (Members.ofList ms)
    | _, _ => failure

/-- The greatest depth to which collections may be nested. -/
def depthLimit : Nat := 128

/-- How many aliases may be followed, for each mark of a document. -/
def aliasLimit : Nat := 100

/-- The members of a document, which has to be a mapping. An empty one has none. -/
def members? (root : Node) : Option Members := do
  let targets := root.anchored.reverse
  match root with
  | .scalar _ "" true => return []
  | .mapping _ members =>
    let read : Resolver (List (String × Value)) := members.mapM fun m => do
      return (← m.1.key targets, ← m.2.value targets (depthLimit - 1))
    let (ms, _) ← read (aliasLimit * root.size)
    return Members.ofList ms
  | _ => none

end Node

/-- The members of a document. The mark of the byte order may stand in front of it. -/
def members? (text : List Char) : Option Members := do
  let text :=
    match text with
    | '\ufeff' :: s => s
    | s => s
  guard (text.all isAllowed)
  (← Node.document? (joinBreaks text)).members?

end ByteStore.Yaml
