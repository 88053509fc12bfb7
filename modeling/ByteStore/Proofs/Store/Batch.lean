import ByteStore.Proofs.Store.Operations
import Mathlib.Tactic.Common

/-!
# Batches and single operations

An open store refuses a batch for a key that cannot be stored, or else for being fenced off. What
it does with a batch that it accepts is what it does with the operations one after the other.
-/

namespace ByteStore

/-- The answer to a request that writes, given why it is refused. -/
def Answer.ofRefusal : Option Error → Answer
  | some e => .failed e
  | none => .done

namespace Store

variable {s : Store} {op : Operation} {ops : List Operation}

/-! ### Refusals -/

/-- Why an open store refuses a batch. One without operations asks nothing of the log. -/
def refusal? (s : Store) (ops : List Operation) : Option Error :=
  (Operation.error? ops).or (if ops ≠ [] ∧ s.log = .fenced then some fencedError else none)

/-- The store after it has performed a batch. -/
def perform (s : Store) (ops : List Operation) : Store :=
  if ops = [] then s else s.write (s.table.writeAll ops)

@[simp] lemma perform_closed (s : Store) (ops : List Operation) :
    (s.perform ops).closed = s.closed := by
  rw [perform]
  split_ifs <;> rfl

/-- A single operation is refused for its key, or else for the fence. -/
lemma refusal?_singleton (s : Store) (op : Operation) :
    s.refusal? [op]
      = (Key.error? op.key).or (if s.log = .fenced then some fencedError else none) := by
  rw [refusal?, Operation.error?_cons, Operation.error?_nil, Option.or_none]
  simp only [ne_eq, List.cons_ne_nil, not_false_eq_true, true_and]

lemma refusal?_of_not_fenced (h : s.log ≠ .fenced) (ops : List Operation) :
    s.refusal? ops = Operation.error? ops := by
  rw [refusal?, if_neg fun hfenced => h hfenced.2, Option.or_none]

lemma refusal?_of_fenced (h : s.log = .fenced) (hops : ops ≠ []) :
    s.refusal? ops = some ((Operation.error? ops).getD fencedError) := by
  rw [refusal?, if_pos ⟨hops, h⟩]
  cases Operation.error? ops <;> rfl

@[simp] lemma refusal?_nil (s : Store) : s.refusal? [] = none := by
  rw [refusal?, Operation.error?_nil, Option.none_or, if_neg fun h => h.1 rfl]

lemma refusal?_eq_none_iff :
    s.refusal? ops = none ↔ (∀ op ∈ ops, Key.Valid op.key) ∧ (ops = [] ∨ s.log ≠ .fenced) := by
  rw [refusal?, Option.or_eq_none_iff, Operation.error?_eq_none_iff]
  refine and_congr_right fun _ => ?_
  split_ifs with h
  · simp [h.1, h.2]
  · simpa [or_iff_not_imp_left] using h

/-- A batch is accepted exactly if each of its operations is. -/
theorem refusal?_eq_none_iff_forall :
    s.refusal? ops = none ↔ ∀ op ∈ ops, s.refusal? [op] = none := by
  simp only [refusal?_eq_none_iff, List.mem_singleton, forall_eq, List.cons_ne_nil, false_or]
  constructor
  · rintro ⟨hkeys, hlog⟩ op hop
    exact ⟨hkeys op hop, hlog.resolve_left (List.ne_nil_of_mem hop)⟩
  · intro h
    refine ⟨fun op hop => (h op hop).1, ?_⟩
    cases ops with
    | nil => exact Or.inl rfl
    | cons op ops => exact Or.inr (h op List.mem_cons_self).2

lemma refusal?_write (s : Store) (t : Table) (ops : List Operation) :
    (s.write t).refusal? ops = s.refusal? ops := by
  simp only [refusal?, write_log, Log.write_eq_fenced_iff]

/-- An open store refuses a batch as a whole, or performs it as a whole. -/
theorem serve_apply_of_open (h : s.closed = false) (ops : List Operation) :
    s.serve (.apply ops)
      = (if s.refusal? ops = none then s.perform ops else s, .ofRefusal (s.refusal? ops)) := by
  rw [serve, apply_of_open h, refusal?, perform]
  cases Operation.error? ops with
  | some e => rfl
  | none =>
    by_cases hnil : ops = []
    · simp [hnil, settle, Answer.ofRefusal]
    · by_cases hlog : s.log = .fenced <;> simp [hnil, hlog, settle, Answer.ofRefusal]

lemma serve_request_of_open (h : s.closed = false) (op : Operation) :
    s.serve op.request
      = (if s.refusal? [op] = none then s.perform [op] else s, .ofRefusal (s.refusal? [op])) := by
  rw [← serve_apply_of_open h, serve_of_batch op.batch?_request]
  rfl

/-! ### One operation after the other -/

lemma perform_cons (s : Store) (op : Operation) (ops : List Operation) :
    (s.perform [op]).perform ops = s.perform (op :: ops) := by
  cases ops with
  | nil => rfl
  | cons next ops =>
    simp only [perform, if_neg (List.cons_ne_nil _ _)]
    simp only [write, Log.write_write]
    rfl

lemma refusal?_perform_singleton (s : Store) (op : Operation) (ops : List Operation) :
    (s.perform [op]).refusal? ops = s.refusal? ops := by
  rw [perform, if_neg (List.cons_ne_nil _ _), refusal?_write]

/-- A store that performs operations one after the other answers each as it would at first. -/
theorem answers_serveAll_requests (h : s.closed = false) (ops : List Operation) :
    (s.serveAll (ops.map Operation.request)).2
      = ops.map fun op => .ofRefusal (s.refusal? [op]) := by
  induction ops generalizing s with
  | nil => rfl
  | cons op ops ih =>
    rw [List.map_cons, serveAll, serve_request_of_open h, List.map_cons]
    dsimp only
    -- Performing an operation moves the log without fencing it off, so no later verdict changes.
    split_ifs
    · rw [ih (s.perform_closed [op] ▸ h)]
      simp only [refusal?_perform_singleton]
    · rw [ih h]

/-- Operations that are all accepted leave the store that their batch leaves. -/
theorem serveAll_requests_eq_apply (h : s.closed = false) (hops : s.refusal? ops = none) :
    (s.serveAll (ops.map Operation.request)).1 = (s.serve (.apply ops)).1 := by
  rw [serve_apply_of_open h, if_pos hops]
  induction ops generalizing s with
  | nil => rfl
  | cons op ops ih =>
    rw [refusal?_eq_none_iff_forall, List.forall_mem_cons] at hops
    rw [List.map_cons, serveAll, serve_request_of_open h, if_pos hops.1]
    dsimp only
    have hrest : (s.perform [op]).refusal? ops = none := by
      rw [refusal?_perform_singleton, refusal?_eq_none_iff_forall]
      exact hops.2
    rw [ih (s.perform_closed [op] ▸ h) hrest, perform_cons]

end Store

end ByteStore
