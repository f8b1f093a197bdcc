import Mathlib.Algebra.Order.BigOperators.Group.List
import Mathlib.Algebra.Order.Ring.Nat

/-!
# Queues that share one list

Messages of many channels stand in one list in the order they were put
there; each channel is first-in first-out. Taking from a channel removes its
oldest message and keeps all others in place. A weight per message gives
every list of messages a total, which is followed through the operations.
-/

namespace Teleprompter.KeyedQueues

variable {K M : Type}

/-- Pending messages of all channels, oldest first. -/
abbrev Queues (K M : Type) := List (K × M)

/-- Total weight of the pending messages. -/
def totalWeight (w : K → M → ℕ) (q : Queues K M) : ℕ := (q.map fun x => w x.1 x.2).sum

@[simp] theorem totalWeight_append (w : K → M → ℕ) (q r : Queues K M) :
    totalWeight w (q ++ r) = totalWeight w q + totalWeight w r := by
  simp [totalWeight]

@[simp] theorem totalWeight_singleton (w : K → M → ℕ) (k : K) (m : M) :
    totalWeight w [(k, m)] = w k m := by
  simp [totalWeight]

/-- Nothing pending has no weight. -/
@[simp] theorem totalWeight_nil (w : K → M → ℕ) : totalWeight w ([] : Queues K M) = 0 := rfl

/-- Weights that agree on the pending messages have the same total. -/
theorem totalWeight_congr {w w' : K → M → ℕ} {q : Queues K M}
    (h : ∀ x ∈ q, w x.1 x.2 = w' x.1 x.2) : totalWeight w q = totalWeight w' q := by
  unfold totalWeight
  rw [List.map_congr_left h]

/-- A pointwise smaller weight has a smaller total. -/
theorem totalWeight_mono {w w' : K → M → ℕ} {q : Queues K M}
    (h : ∀ x ∈ q, w x.1 x.2 ≤ w' x.1 x.2) : totalWeight w q ≤ totalWeight w' q :=
  List.sum_le_sum h

/-- The total is zero exactly when every pending message weighs nothing. -/
theorem totalWeight_eq_zero {w : K → M → ℕ} {q : Queues K M} :
    totalWeight w q = 0 ↔ ∀ x ∈ q, w x.1 x.2 = 0 := by
  unfold totalWeight
  rw [List.sum_eq_zero_iff, List.forall_mem_map]

variable [DecidableEq K]

/-- Take the oldest message of a channel. -/
def pop (k : K) : Queues K M → Option (M × Queues K M)
  | [] => none
  | (key, m) :: rest =>
    if key = k then some (m, rest) else (pop k rest).map fun found => (found.1, (key, m) :: found.2)

/-- A channel breaks: its pending messages are gone. -/
def lose (k : K) (q : Queues K M) : Queues K M := q.filter fun x => x.1 ≠ k

/-- Taking removes one message of the channel and keeps the others in place. -/
theorem pop_eq_some {k : K} {q rest : Queues K M} {m : M} (h : pop k q = some (m, rest)) :
    ∃ before after, q = before ++ (k, m) :: after ∧ rest = before ++ after ∧
      ∀ x ∈ before, x.1 ≠ k := by
  induction q generalizing rest with
  | nil => cases h
  | cons x q ih =>
    obtain ⟨key, m'⟩ := x
    rw [pop] at h
    split at h
    · next hk =>
      cases h
      exact ⟨[], q, by rw [hk]; rfl, rfl, nofun⟩
    · next hk =>
      obtain ⟨⟨m'', rest'⟩, hf, heq⟩ := Option.map_eq_some_iff.mp h
      cases heq
      obtain ⟨before, after, hq, hr, hb⟩ := ih hf
      refine ⟨(key, m') :: before, after, by rw [hq]; rfl, by rw [hr]; rfl, ?_⟩
      exact List.forall_mem_cons.mpr ⟨hk, hb⟩

/-- The taken message was pending. -/
theorem mem_of_pop {k : K} {q rest : Queues K M} {m : M} (h : pop k q = some (m, rest)) :
    (k, m) ∈ q := by
  obtain ⟨before, after, rfl, -, -⟩ := pop_eq_some h
  simp

/-- What stays pending was pending. -/
theorem subset_of_pop {k : K} {q rest : Queues K M} {m : M} (h : pop k q = some (m, rest)) :
    rest ⊆ q := by
  obtain ⟨before, after, rfl, rfl, -⟩ := pop_eq_some h
  intro x hx
  simp only [List.mem_append, List.mem_cons] at hx ⊢
  tauto

/-- Taking a message takes its weight. -/
theorem totalWeight_pop (w : K → M → ℕ) {k : K} {q rest : Queues K M} {m : M}
    (h : pop k q = some (m, rest)) : totalWeight w q = totalWeight w rest + w k m := by
  obtain ⟨before, after, rfl, rfl, -⟩ := pop_eq_some h
  simp only [totalWeight, List.map_append, List.map_cons, List.sum_append, List.sum_cons]
  omega

/-- A lost channel adds no weight. -/
theorem totalWeight_lose_le (w : K → M → ℕ) (k : K) (q : Queues K M) :
    totalWeight w (lose k q) ≤ totalWeight w q :=
  ((List.filter_sublist (l := q)).map _).sum_le_sum fun _ _ => Nat.zero_le _

/-- A lost channel takes the weight of its messages. -/
theorem totalWeight_lose_lt (w : K → M → ℕ) {k : K} {m : M} {q : Queues K M} (h : (k, m) ∈ q)
    (hpos : 0 < w k m) : totalWeight w (lose k q) < totalWeight w q := by
  obtain ⟨before, after, rfl⟩ := List.append_of_mem h
  have hbefore := totalWeight_lose_le w k before
  have hafter := totalWeight_lose_le w k after
  have hsplit : lose k (before ++ (k, m) :: after) = lose k before ++ lose k after := by
    simp [lose]
  rw [hsplit, totalWeight_append, totalWeight_append, ← List.singleton_append,
    totalWeight_append, totalWeight_singleton]
  omega

/-- A lost channel leaves messages of the others. -/
theorem lose_subset (k : K) (q : Queues K M) : lose k q ⊆ q := List.filter_subset_self q

end Teleprompter.KeyedQueues
