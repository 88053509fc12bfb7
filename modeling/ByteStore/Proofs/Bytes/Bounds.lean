import ByteStore.Proofs.Bytes.Beginning
import Mathlib.Order.Bounds.Defs

/-!
# Bounds of byte strings

What comes after all byte strings with a given beginning is what comes from its successor on
(`Bytes.endsBefore_iff`), so the successor is the least bound of the beginning, and a beginning
without a successor has no bound. A range admits what its two bounds admit
(`Range.contains_iff`), so it has no gaps, and it is empty if its bounds cross.
-/

namespace ByteStore

namespace Bytes

/-! ### The end of a beginning -/

/-- Whether all byte strings that begin with `p` come before `t`. -/
def EndsBefore (p t : Bytes) : Prop := ∀ k, p <+: k → k < t

variable {p s t : Bytes}

/-- A beginning ends before its successor, and before nothing that comes earlier. -/
lemma endsBefore_iff : p.EndsBefore t ↔ ∃ s, p.successor = some s ∧ s ≤ t := by
  constructor
  · intro hp
    -- What is neither before `p` nor after its end begins with `p`, so it would come before itself.
    have hself : p < t := hp p (List.prefix_refl p)
    have hbefore : t.before p = false := before_eq_false_iff.2 (Std.le_of_lt hself)
    have hprefix : ¬p <+: t := fun h => List.lt_irrefl t (hp t h)
    rw [prefix_iff_before, not_and] at hprefix
    have hend := hprefix hbefore
    push Not at hend
    obtain ⟨s, hs, hts⟩ := hend
    exact ⟨s, hs, before_eq_false_iff.1 (Bool.eq_false_iff.2 hts)⟩
  · rintro ⟨s, hs, hst⟩ k hk
    have hks : k < s := before_iff_lt.1 ((prefix_iff_before.1 hk).2 s hs)
    exact Std.lt_of_lt_of_le hks hst

lemma successor_eq_none_iff : p.successor = none ↔ ∀ b ∈ p, b = 255 := by
  induction p with
  | nil => simp
  | cons b p ih =>
    rw [successor_cons, List.forall_mem_cons, ← ih]
    cases successor p with
    | some e => simp
    | none => by_cases hb : b = 255 <;> simp [hb]

lemma toNat_add_one {b : UInt8} (hb : b ≠ 255) : (b + 1).toNat = b.toNat + 1 := by
  have hne : b.toNat ≠ 255 := fun he => hb (UInt8.toNat_inj.1 he)
  have hlt := b.toNat_lt
  rw [UInt8.toNat_add, UInt8.toNat_one]
  omega

/-- The byte that grows is the last one that can, and it does not overflow. -/
lemma exists_of_successor (hs : p.successor = some s) :
    ∃ q b c r, p = q ++ b :: r ∧ s = q ++ [c] ∧ (∀ x ∈ r, x = 255) ∧ c.toNat = b.toNat + 1 := by
  induction p generalizing s with
  | nil => cases hs
  | cons b p ih =>
    rw [successor_cons] at hs
    cases hp : successor p with
    | some e =>
      rw [hp] at hs
      cases hs
      obtain ⟨q, b', c, r, rfl, rfl, hr, hc⟩ := ih hp
      exact ⟨b :: q, b', c, r, rfl, rfl, hr, hc⟩
    | none =>
      rw [hp] at hs
      dsimp only at hs
      split_ifs at hs with hb
      cases hs
      exact ⟨[], b, b + 1, p, rfl, rfl, successor_eq_none_iff.1 hp, toNat_add_one hb⟩

/--
The successor of a beginning is the least byte string before which it ends, and it has none exactly
if it ends before no byte string. The successor comes about by letting the last byte grow that is
not the greatest one, and that byte does not overflow.
-/
theorem successor_isLeast (p : Bytes) :
    (∀ s, p.successor = some s →
      IsLeast {t | p.EndsBefore t} s ∧
      ∃ q b c r, p = q ++ b :: r ∧ s = q ++ [c] ∧ (∀ x ∈ r, x = 255) ∧ c.toNat = b.toNat + 1) ∧
    (p.successor = none ↔ ¬∃ t, p.EndsBefore t) := by
  constructor
  · intro s hs
    refine ⟨⟨endsBefore_iff.2 ⟨s, hs, List.le_refl s⟩, ?_⟩, exists_of_successor hs⟩
    intro t ht
    obtain ⟨s', hs', hle⟩ := endsBefore_iff.1 ht
    rw [hs] at hs'
    cases hs'
    exact hle
  · simp only [endsBefore_iff]
    cases p.successor with
    | none => simp
    | some s => simpa using ⟨s, List.le_refl s⟩

/-- A beginning that ends with greatest bytes has a shorter successor. -/
theorem successor_isLeast_shorter :
    successor [97, 254, 255, 255] = some [97, 255] ∧
      [97, 254, 255, 255, 0] < ([97, 255] : Bytes) ∧
      EndsBefore [97, 254, 255, 255] [97, 255] ∧
      (∀ t, EndsBefore [97, 254, 255, 255] t → [97, 255] ≤ t) ∧
      successor [255, 255] = none ∧ ¬∃ t, EndsBefore [255, 255] t := by
  have hs : successor [97, 254, 255, 255] = some [97, 255] := by decide
  have hnone : successor [255, 255] = none := by decide
  obtain ⟨hbound, hleast⟩ := ((successor_isLeast [97, 254, 255, 255]).1 _ hs).1
  refine ⟨hs, hbound _ ⟨[0], rfl⟩, hbound, fun t ht => hleast ht, hnone, ?_⟩
  exact (successor_isLeast [255, 255]).2.1 hnone

end Bytes

/-! ### Ranges -/

/-- The byte string at which a bound lies. -/
def Bound.key? : Bound → Option Bytes
  | .unbounded => none
  | .included key | .excluded key => some key

lemma Bound.key?_eq_some_iff {b : Bound} {s : Bytes} :
    b.key? = some s ↔ b = .included s ∨ b = .excluded s := by
  cases b <;> simp [key?]

namespace Range

/--
Whether the bounds of a range cross: the lower one lies above the upper one, or both lie at one byte
string that is not included in both.
-/
def Crossed (r : Range) : Prop :=
  ∃ s e, r.lower.key? = some s ∧ r.upper.key? = some e ∧
    (e < s ∨ e = s ∧ (r.lower = .excluded s ∨ r.upper = .excluded e))

variable {r : Range} {k x y z : Bytes}

/-- A range holds what its bounds admit. -/
lemma contains_iff : r.contains k = true ↔
    (∀ s, r.lower = .included s → s ≤ k) ∧ (∀ s, r.lower = .excluded s → s < k) ∧
      (∀ e, r.upper = .included e → k ≤ e) ∧ ∀ e, r.upper = .excluded e → k < e := by
  obtain ⟨lower, upper⟩ := r
  cases lower <;> cases upper <;>
    simp [contains, Bound.admitsAbove, Bound.admitsBelow, Bytes.before_iff_lt,
      Bytes.before_eq_false_iff]

/-- What lies between two byte strings of a range is in the range. -/
lemma contains_of_between (hx : r.contains x = true) (hz : r.contains z = true) (hxy : x ≤ y)
    (hyz : y ≤ z) : r.contains y = true := by
  rw [contains_iff] at hx hz ⊢
  obtain ⟨hincluded, hexcluded, -, -⟩ := hx
  obtain ⟨-, -, hincluded', hexcluded'⟩ := hz
  refine ⟨?_, ?_, ?_, ?_⟩
  · intro s hs
    exact List.le_trans (hincluded s hs) hxy
  · intro s hs
    exact Std.lt_of_lt_of_le (hexcluded s hs) hxy
  · intro e he
    exact List.le_trans hyz (hincluded' e he)
  · intro e he
    exact List.lt_of_le_of_lt hyz (hexcluded' e he)

lemma contains_of_crossed (hr : r.Crossed) (k : Bytes) : r.contains k = false := by
  obtain ⟨s, e, hs, he, hcrossed⟩ := hr
  rw [Bool.eq_false_iff, ne_eq, contains_iff]
  rintro ⟨hincluded, hexcluded, hincluded', hexcluded'⟩
  have hsk : s ≤ k :=
    (Bound.key?_eq_some_iff.1 hs).elim (hincluded s) fun h => Std.le_of_lt (hexcluded s h)
  have hke : k ≤ e :=
    (Bound.key?_eq_some_iff.1 he).elim (hincluded' e) fun h => Std.le_of_lt (hexcluded' e h)
  rcases hcrossed with hlt | ⟨rfl, hlower | hupper⟩
  · exact List.not_le.2 hlt (List.le_trans hsk hke)
  · exact List.not_le.2 (hexcluded _ hlower) hke
  · exact List.not_le.2 (hexcluded' _ hupper) hsk

/--
The range of a beginning holds exactly what begins so. The byte strings that a range holds form an
interval of their order, which is empty if the bounds of the range cross.
-/
theorem contains_interval :
    (∀ p k, (ofBeginning p).contains k = true ↔ p <+: k) ∧
    ∀ r : Range,
      (∀ x y z, r.contains x = true → r.contains z = true → x ≤ y → y ≤ z →
        r.contains y = true) ∧
      (r.Crossed → ∀ k, r.contains k = false) := by
  constructor
  · intro p k
    exact contains_ofBeginning
  · intro r
    refine ⟨?_, contains_of_crossed⟩
    intro x y z hx hz hxy hyz
    exact contains_of_between hx hz hxy hyz

/-- A beginning of greatest bytes, a range with two bounds, and one whose bounds cross. -/
theorem contains_interval_bounds :
    let r : Range := ⟨.excluded [1], .included [2, 0]⟩
    let crossed : Range := ⟨.included [2, 0], .excluded [1]⟩
    (ofBeginning [255, 255]).contains [255, 255, 0] = true ∧
      (ofBeginning [255, 255]).contains [255] = false ∧
      r.contains [1, 0] = true ∧ r.contains [2, 0] = true ∧ r.contains [1, 255] = true ∧
      crossed.Crossed ∧ crossed.contains [1, 255] = false := by
  intro r crossed
  obtain ⟨hbeginning, hinterval⟩ := contains_interval
  have hcrossed : crossed.Crossed := ⟨[2, 0], [1], rfl, rfl, .inl (by decide)⟩
  have hx : r.contains [1, 0] = true := by decide
  have hz : r.contains [2, 0] = true := by decide
  refine ⟨(hbeginning _ _).2 ⟨[0], rfl⟩, ?_, hx, hz, ?_, hcrossed, (hinterval crossed).2 hcrossed _⟩
  · exact Bool.eq_false_iff.2 fun h => absurd ((hbeginning _ _).1 h) (by decide)
  · exact (hinterval r).1 _ _ _ hx hz (by decide) (by decide)

end Range

end ByteStore
