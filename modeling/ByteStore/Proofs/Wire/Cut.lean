import ByteStore.Wire.Field
import Mathlib.Tactic.Common

/-!
# Where records are cut

A record has parts: its length words and the byte strings that these announce. `EndsIn` says that
bytes end inside a part, and exactly the bytes that can be completed to all parts end so. The first
bytes of a row of records are those of its first records, up to one that is cut.
-/

namespace ByteStore.Wire

/-! ### Parts -/

/-- What the bytes of some parts come to. -/
def Part.join (ps : List (Part × Bytes)) : Bytes := ps.flatMap Prod.snd

@[simp] lemma Part.join_nil : join [] = [] := rfl

@[simp] lemma Part.join_cons (p : Part × Bytes) (ps : List (Part × Bytes)) :
    join (p :: ps) = p.2 ++ join ps := rfl

@[simp] lemma Part.join_append (ps qs : List (Part × Bytes)) :
    join (ps ++ qs) = join ps ++ join qs := List.flatMap_append

/--
Whether bytes end inside a part: the parts before it are there as a whole, but of the `need` bytes
of the part itself only the first `left`.
-/
def EndsIn (ps : List (Part × Bytes)) (data : Bytes) (part : Part) (need left : Nat) : Prop :=
  ∃ front bytes back, ps = front ++ (part, bytes) :: back ∧ bytes.length = need ∧ left < need ∧
    data = Part.join front ++ bytes.take left

variable {ps : List (Part × Bytes)} {data : Bytes} {part : Part} {need left : Nat}

lemma EndsIn.left_lt (h : EndsIn ps data part need left) : left < need := by
  obtain ⟨-, -, -, -, -, hleft, -⟩ := h
  exact hleft

lemma not_endsIn_nil : ¬EndsIn [] data part need left := by
  rintro ⟨front, bytes, back, h, -⟩
  exact List.append_ne_nil_of_right_ne_nil _ (List.cons_ne_nil _ _) h.symm

lemma endsIn_cons_iff {first : Part} {bytes : Bytes} :
    EndsIn ((first, bytes) :: ps) data part need left ↔
      (part = first ∧ need = bytes.length ∧ left < need ∧ data = bytes.take left) ∨
        ∃ rest, data = bytes ++ rest ∧ EndsIn ps rest part need left := by
  constructor
  · rintro ⟨_ | ⟨x, front⟩, bytes', back, heq, hneed, hleft, rfl⟩
    · cases heq
      exact Or.inl ⟨rfl, hneed.symm, hleft, rfl⟩
    · cases heq
      exact Or.inr ⟨_, List.append_assoc .., front, bytes', back, rfl, hneed, hleft, rfl⟩
  · rintro (⟨rfl, rfl, hleft, rfl⟩ | ⟨rest, rfl, front, bytes', back, rfl, hneed, hleft, rfl⟩)
    · exact ⟨[], bytes, ps, rfl, rfl, hleft, rfl⟩
    · exact ⟨(first, bytes) :: front, bytes', back, rfl, hneed, hleft, (List.append_assoc ..).symm⟩

/-- Exactly what can be completed ends inside a part. -/
lemma exists_endsIn_iff :
    (∃ part need left, EndsIn ps data part need left) ↔
      ∃ tail, tail ≠ [] ∧ data ++ tail = Part.join ps := by
  constructor
  · rintro ⟨part, need, left, front, bytes, back, rfl, rfl, hleft, rfl⟩
    refine ⟨bytes.drop left ++ Part.join back, fun hnil => ?_, ?_⟩
    · have hdrop : bytes.drop left = [] := (List.append_eq_nil_iff.1 hnil).1
      rw [List.drop_eq_nil_iff] at hdrop
      omega
    · rw [Part.join_append, Part.join_cons, List.append_assoc,
        ← List.append_assoc (bytes.take left), List.take_append_drop]
  · rintro ⟨tail, htail, heq⟩
    induction ps generalizing data with
    | nil => exact absurd (List.append_eq_nil_iff.1 heq).2 htail
    | cons p ps ih =>
      obtain ⟨first, bytes⟩ := p
      rw [Part.join_cons, List.append_eq_append_iff] at heq
      rcases heq with ⟨missing, hbytes, rfl⟩ | ⟨rest, rfl, heq⟩
      · obtain rfl : bytes = data ++ missing := hbytes
        cases missing with
        | nil =>
          obtain ⟨part, need, left, h⟩ := ih (List.nil_append _)
          exact ⟨part, need, left, endsIn_cons_iff.2 (Or.inr ⟨[], by simp, h⟩)⟩
        | cons b missing =>
          exact ⟨first, _, data.length, endsIn_cons_iff.2 (Or.inl ⟨rfl, rfl, by simp, by simp⟩)⟩
      · obtain ⟨part, need, left, h⟩ := ih heq.symm
        exact ⟨part, need, left, endsIn_cons_iff.2 (Or.inr ⟨rest, rfl, h⟩)⟩

/-! ### Rows -/

namespace Row

variable {α : Type} {record : α → Bytes}

/-- The number of bytes that the first `k` records of a row take. -/
def boundary (record : α → Bytes) (xs : List α) (k : Nat) : Nat :=
  ((xs.take k).flatMap record).length

lemma boundary_cons_succ (x : α) (xs : List α) (k : Nat) :
    boundary record (x :: xs) (k + 1) = (record x).length + boundary record xs k := by
  rw [boundary, List.take_succ_cons, List.flatMap_cons, List.length_append, boundary]

/-- A cut falls between two records, or else inside one. -/
theorem exists_boundary_or_inside {xs : List α} {p : Nat} (hp : p ≤ (xs.flatMap record).length) :
    (∃ k ≤ xs.length, p = boundary record xs k) ∨
      ∃ done x rest front back, xs = done ++ x :: rest ∧ front ≠ [] ∧ back ≠ [] ∧
        front ++ back = record x ∧ (xs.flatMap record).take p = done.flatMap record ++ front := by
  induction xs generalizing p with
  | nil => exact Or.inl ⟨0, Nat.le_refl 0, Nat.le_zero.1 hp⟩
  | cons x xs ih =>
    rw [List.flatMap_cons, List.length_append] at hp
    by_cases hzero : p = 0
    · exact Or.inl ⟨0, Nat.zero_le _, hzero⟩
    · by_cases hlt : p < (record x).length
      · refine Or.inr ⟨[], x, xs, (record x).take p, (record x).drop p, rfl, ?_, ?_,
          List.take_append_drop .., ?_⟩
        · simp only [ne_eq, List.take_eq_nil_iff]
          rintro (h | h)
          · exact hzero h
          · rw [h] at hlt
            exact Nat.not_lt_zero _ hlt
        · rw [ne_eq, List.drop_eq_nil_iff]
          omega
        · rw [List.flatMap_cons, List.take_append_of_le_length (Nat.le_of_lt hlt)]
          rfl
      · have hle : p - (record x).length ≤ (xs.flatMap record).length := by omega
        have hadd : p = (record x).length + (p - (record x).length) := by omega
        rcases ih hle with ⟨k, hk, heq⟩ | ⟨done, x', rest, front, back, rfl, hf, hb, hrec, htake⟩
        · refine Or.inl ⟨k + 1, Nat.succ_le_succ hk, ?_⟩
          rw [boundary_cons_succ, ← heq, ← hadd]
        · refine Or.inr ⟨x :: done, x', rest, front, back, rfl, hf, hb, hrec, ?_⟩
          rw [hadd, List.flatMap_cons, List.take_length_add_append, htake, List.flatMap_cons,
            List.append_assoc]

lemma take_boundary (record : α → Bytes) (xs : List α) (k : Nat) :
    (xs.flatMap record).take (boundary record xs k) = (xs.take k).flatMap record := by
  have hsplit : xs.flatMap record
      = (xs.take k).flatMap record ++ (xs.drop k).flatMap record := by
    rw [← List.flatMap_append, List.take_append_drop]
  rw [hsplit, boundary, List.take_left]

end Row

end ByteStore.Wire
