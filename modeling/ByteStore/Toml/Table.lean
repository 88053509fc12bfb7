import ByteStore.Settings.Value

/-!
# TOML tables

The lines of a TOML document build up a tree of tables. A table is made by its own header, on the
way to another header, or on the way to a key; it gets its own header only once, and a key only
once.
-/

namespace ByteStore.Toml

open Settings (Value)

/-- How a table came to be. -/
inductive Origin
  /-- By a header of its own. -/
  | header
  /-- On the way to a header. -/
  | passed
  /-- On the way to a key. -/
  | dotted
  deriving DecidableEq, Repr

/-- What stands under a key. -/
inductive Item
  | value (value : Value)
  | table (origin : Origin) (members : List (String × Item))
  /-- A list of tables, with the last one apart. -/
  | tables (front : List (List (String × Item))) (last : List (String × Item))

/-- What stands under the keys of a table. -/
abbrev Items := List (String × Item)

namespace Items

/-- The items with another one at `key`. -/
def set (key : String) (item : Item) : Items → Items
  | [] => [(key, item)]
  | m :: ms => if m.1 = key then (key, item) :: ms else m :: Items.set key item ms

/--
Changes the table that a path leads to from a table. A table that is missing on the way is made. The
way to a key does not lead through a table with a header of its own.
-/
def change (toKey : Bool) (f : Origin → Items → Option Items) :
    List String → Origin → Items → Option Items
  | [], origin, ms => f origin ms
  | k :: path, _, ms =>
    match ms.lookup k with
    | none => do
      let origin := if toKey then .dotted else .passed
      return ms.set k (.table origin (← change toKey f path origin []))
    | some (.value _) => none
    | some (.table origin inner) =>
      if toKey ∧ origin = .header then none
      else do return ms.set k (.table origin (← change toKey f path origin inner))
    | some (.tables front last) => do
      return ms.set k (.tables front (← change toKey f path .header last))

/--
Puts a value at a key that a path leads to. Where the path takes a step, it has to end in a table
that is only there on the way to keys.
-/
def put (path : List String) (key : String) (value : Value) (origin : Origin) (ms : Items) :
    Option Items :=
  change true (fun origin ms =>
    if path ≠ [] ∧ origin ≠ .dotted then none
    else if (ms.lookup key).isSome then none
    else some (ms.set key (.value value))) path origin ms

/-- Gives a table a header. -/
def openTable (path : List String) (key : String) (ms : Items) : Option Items :=
  change false (fun _ ms =>
    match ms.lookup key with
    | none => some (ms.set key (.table .header []))
    | some (.table .passed inner) => some (ms.set key (.table .header inner))
    | some _ => none) path .header ms

/-- Adds a table to a list of tables. -/
def addTable (path : List String) (key : String) (ms : Items) : Option Items :=
  change false (fun _ ms =>
    match ms.lookup key with
    | none => some (ms.set key (.tables [] []))
    | some (.tables front last) => some (ms.set key (.tables (front ++ [last]) []))
    | some _ => none) path .header ms

end Items

mutual

/-- An item as a value. -/
def Item.toValue : Item → Value
  | .value v => v
  | .table _ ms => .table (membersOf ms)
  | .tables front last => .list (tablesOf front ++ [.table (membersOf last)])

/-- The items of a table as its members. -/
def membersOf : List (String × Item) → List (String × Value)
  | [] => []
  | (k, i) :: ms => (k, i.toValue) :: membersOf ms

/-- Tables as values. -/
def tablesOf : List (List (String × Item)) → List Value
  | [] => []
  | ms :: mss => .table (membersOf ms) :: tablesOf mss

end

end ByteStore.Toml
