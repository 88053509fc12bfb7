import ByteStore.Bytes.Range
import Mathlib.Tactic.Common

/-!
# Beginnings of byte strings

The byte strings that begin with `p` are those from `p` on and below `p.successor`, so that
`Range.ofBeginning p` holds them and no others.
-/

namespace ByteStore

namespace Bytes

/-- The successor is found from the end: the first byte grows only if no later one can. -/
lemma successor_cons (b : UInt8) (p : Bytes) :
    successor (b :: p) = match successor p with
      | some e => some (b :: e)
      | none => if b = 255 then none else some [b + 1] := by
  rw [successor, successor, List.reverse_cons, List.dropWhile_append]
  cases p.reverse.dropWhile (· == 255) with
  | nil => by_cases h : b = 255 <;> simp [h]
  | cons c r => simp

/-- The bytes from `b` on and below the next one are `b` itself, if `b` can grow. -/
lemma le_and_lt_succ_iff {b c : UInt8} (h : b ≠ 255) : b ≤ c ∧ c < b + 1 ↔ b = c := by
  have hb : b.toNat ≠ 255 := fun he => h (UInt8.toNat_inj.1 he)
  have hb' := b.toNat_lt
  rw [UInt8.le_iff_toNat_le, UInt8.lt_iff_toNat_lt, UInt8.toNat_add, ← UInt8.toNat_inj,
    UInt8.toNat_one]
  omega

lemma le_255_iff {c : UInt8} : 255 ≤ c ↔ 255 = c := by
  have hc := c.toNat_lt
  rw [UInt8.le_iff_toNat_le, ← UInt8.toNat_inj]
  show 255 ≤ c.toNat ↔ 255 = c.toNat
  omega

lemma cons_before_cons_eq_true {b c : UInt8} {p k : Bytes} :
    before (c :: k) (b :: p) = true ↔ c < b ∨ c = b ∧ k.before p = true := by
  simp

lemma cons_before_cons_eq_false {b c : UInt8} {p k : Bytes} :
    before (c :: k) (b :: p) = false ↔ b ≤ c ∧ (c = b → k.before p = false) := by
  simp

/-- What begins with `p` is neither before `p` nor after all that begins with `p`. -/
theorem prefix_iff_before {p k : Bytes} :
    p <+: k ↔ k.before p = false ∧ ∀ e, p.successor = some e → k.before e = true := by
  induction p generalizing k with
  | nil => simp
  | cons b p ih =>
    cases k with
    | nil => simp
    | cons c k =>
      rw [List.cons_prefix_cons, ih, successor_cons, cons_before_cons_eq_false]
      cases hs : successor p with
      | some e =>
        simp only [Option.some.injEq, forall_eq', cons_before_cons_eq_true]
        constructor
        · rintro ⟨rfl, hp, he⟩
          exact ⟨⟨UInt8.le_refl b, fun _ => hp⟩, Or.inr ⟨rfl, he⟩⟩
        · rintro ⟨⟨hle, hp⟩, hlt | ⟨rfl, he⟩⟩
          · exact absurd hlt (UInt8.not_lt.2 hle)
          · exact ⟨rfl, hp rfl, he⟩
      | none =>
        by_cases hb : b = 255
        · subst hb
          simp only [if_true, reduceCtorEq, false_implies, implies_true, and_true]
          constructor
          · rintro ⟨rfl, hp⟩
            exact ⟨UInt8.le_refl 255, fun _ => hp⟩
          · rintro ⟨hle, hp⟩
            obtain rfl := le_255_iff.1 hle
            exact ⟨rfl, hp rfl⟩
        · simp only [if_neg hb, Option.some.injEq, forall_eq', cons_before_cons_eq_true,
            before_nil, Bool.false_eq_true, and_false, or_false, reduceCtorEq, false_implies,
            implies_true, and_true]
          constructor
          · rintro ⟨rfl, hp⟩
            obtain ⟨hle, hlt⟩ := (le_and_lt_succ_iff hb).2 rfl
            exact ⟨⟨hle, fun _ => hp⟩, hlt⟩
          · rintro ⟨⟨hle, hp⟩, hlt⟩
            obtain rfl := (le_and_lt_succ_iff hb).1 ⟨hle, hlt⟩
            exact ⟨rfl, hp rfl⟩

end Bytes

/-- The range of what begins with `p` holds exactly what begins with `p`. -/
theorem Range.contains_ofBeginning {p k : Bytes} : (ofBeginning p).contains k = true ↔ p <+: k := by
  rw [Bytes.prefix_iff_before, ofBeginning]
  cases p with
  | nil => simp
  | cons b p =>
    rw [if_neg (by simp)]
    cases Bytes.successor (b :: p) with
    | some e => simp [contains, Bound.admitsAbove, Bound.admitsBelow]
    | none => simp [contains, Bound.admitsAbove, Bound.admitsBelow]

end ByteStore
