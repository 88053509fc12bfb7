import ByteStore.Settings.Duration
import ByteStore.Settings.Value

/-!
# Shapes of settings

A shape says which values a setting can have. A record may be given as a table, in which members
that it does not know mean nothing, or as a list of its members in their order. A choice may be
given as a table, too, of which only the member with the least key counts: its key is the choice.
-/

namespace ByteStore.Settings

/-- What a setting can be. -/
inductive Shape
  | duration
  /-- A number that fits into so many bits. -/
  | count (bits : Nat)
  | flag
  | text
  | choice (names : List String)
  /-- Null, or what has the shape. -/
  | optional (shape : Shape)
  | record (fields : List (String × Shape))

namespace Shape

/-- Whether a member with a shape may be left out. -/
def isOptional : Shape → Bool
  | .optional _ => true
  | _ => false

/-- The member with the least key. -/
def leastMember? (ms : Members) : Option (String × Value) :=
  ms.foldl (fun least m =>
    match least with
    | some l => if m.1 < l.1 then some m else some l
    | none => some m) none

/-- Whether a table names a choice. There is nothing more to say about it. -/
def isChoice (names : List String) (ms : Members) : Bool :=
  match leastMember? ms with
  | some (k, .null) => names.contains k
  | _ => false

mutual

/-- Whether a value has a shape. -/
def accepts : Shape → Value → Bool
  | .duration, .text s => (Duration.parse? s.toList).isSome
  | .count bits, .integer n => decide (0 ≤ n) && decide (n < Nat.pow 2 bits)
  | .flag, .flag _ => true
  | .text, .text _ => true
  | .choice names, .text s => names.contains s
  | .choice names, .table ms => isChoice names ms
  | .optional _, .null => true
  | .optional s, v => s.accepts v
  | .record fields, .table ms => acceptsMembers fields ms
  | .record fields, .list vs => acceptsItems fields vs
  | _, _ => false

/-- Whether each field of a record finds its member in a table. -/
def acceptsMembers : List (String × Shape) → List (String × Value) → Bool
  | [], _ => true
  | (k, s) :: fields, ms =>
    (match ms.lookup k with
      | some v => s.accepts v
      | none => s.isOptional) && acceptsMembers fields ms

/-- Whether each field of a record finds its member in a list. -/
def acceptsItems : List (String × Shape) → List Value → Bool
  | [], _ => true
  | _ :: _, [] => false
  | (_, s) :: fields, v :: vs => s.accepts v && acceptsItems fields vs

end

end Shape

end ByteStore.Settings
