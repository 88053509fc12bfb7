import ByteStore.Json.Value

/-!
# What settings files say

Whatever its format, a settings file says a value. A table has each key once; one table may be laid
over another, key by key.
-/

namespace ByteStore.Settings

/-- A value of a settings file. -/
inductive Value
  | null
  | flag (value : Bool)
  | integer (value : Int)
  /-- A number that is written with a fraction or an exponent, or one that is none. -/
  | real
  | text (value : String)
  | list (items : List Value)
  | table (members : List (String × Value))

/-- The members of a table. -/
abbrev Members := List (String × Value)

/-- The members with `value` at `key`, in the place of what was there. -/
def Members.set (key : String) (value : Value) : Members → Members
  | [] => [(key, value)]
  | m :: ms => if m.1 = key then (key, value) :: ms else m :: Members.set key value ms

theorem Members.lookup_cons (l : String) (v : Value) (ms : Members) (k : String) :
    ((l, v) :: ms).lookup k = if k = l then some v else ms.lookup k := by
  rw [List.lookup_cons]
  by_cases h : k = l
  · simp [h]
  · simp [h, beq_eq_false_iff_ne.2 h]

theorem Members.lookup_set (key : String) (value : Value) (ms : Members) (k : String) :
    (Members.set key value ms).lookup k = if k = key then some value else ms.lookup k := by
  induction ms with
  | nil => simp [set, Members.lookup_cons]
  | cons m ms ih =>
    obtain ⟨l, v⟩ := m
    unfold set
    by_cases hl : l = key
    · subst hl
      by_cases h : k = l <;> simp [Members.lookup_cons, h]
    · by_cases hk : k = l
      · subst hk
        simp [hl]
      · simp [hl, Members.lookup_cons, hk, ih]

/-- Members of which a later one takes the place of an earlier one with the same key. -/
def Members.ofList (ms : List (String × Value)) : Members :=
  ms.foldl (fun found m => Members.set m.1 m.2 found) []

namespace Value

/-! ### Laying over -/

mutual

/-- A value laid over another. Only tables let through what is below them. -/
def overlay : Value → Value → Value
  | .table below, .table above => .table (overlayMembers below above)
  | _, above => above

/-- The members of a table under those of another. -/
def overlayMembers (below : Members) : List (String × Value) → Members
  | [] => below
  | (k, v) :: ms =>
    let v' :=
      match below.lookup k with
      | some w => overlay w v
      | none => v
    overlayMembers (Members.set k v' below) ms

end

/-! ### JSON -/

mutual

/-- A value of a JSON document. -/
def ofJson : Json.Value → Value
  | .null => .null
  | .bool b => .flag b
  | .number (.integer n) => .integer n
  | .number (.real _) => .real
  | .string s => .text s
  | .array vs => .list (itemsOfJson vs)
  | .object ms => .table (Members.ofList (membersOfJson ms))

/-- The items of a JSON array. -/
def itemsOfJson : List Json.Value → List Value
  | [] => []
  | v :: vs => ofJson v :: itemsOfJson vs

/-- The members of a JSON object. -/
def membersOfJson : List (String × Json.Value) → List (String × Value)
  | [] => []
  | (k, v) :: ms => (k, ofJson v) :: membersOfJson ms

end

end Value

end ByteStore.Settings
