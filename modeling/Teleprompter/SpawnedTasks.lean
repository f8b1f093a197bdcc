import Mathlib.Data.List.Basic

/-!
# Outputs of concurrent tasks

Tasks run side by side, each one step at a time, and append outputs to one
log. What a task may still output only shrinks as it runs. A log stays sorted
as long as every new output comes before all that other tasks may still
output; the invariant says that nothing still to come is out of place.
-/

namespace Teleprompter.SpawnedTasks

variable {T O : Type}

/-- The log is sorted, and whatever a task may still output fits at its end. -/
structure SortedSoFar (may : T → O → Prop) (rel : O → O → Prop) (tasks : List T)
    (log : List O) : Prop where
  /-- Earlier outputs are related to later ones. -/
  sorted : log.Pairwise rel
  /-- Outputs so far are related to those still possible. -/
  pending : ∀ o ∈ log, ∀ t ∈ tasks, ∀ o', may t o' → rel o o'

variable {may : T → O → Prop} {rel : O → O → Prop} {tasks : List T} {log : List O}

/-- Without outputs there is nothing to sort. -/
theorem sortedSoFar_nil : SortedSoFar may rel tasks [] :=
  ⟨List.Pairwise.nil, fun _ ho => absurd ho List.not_mem_nil⟩

/-- A new task may only output what fits at the end. -/
theorem SortedSoFar.spawn (h : SortedSoFar may rel tasks log) {t : T}
    (ht : ∀ o ∈ log, ∀ o', may t o' → rel o o') : SortedSoFar may rel (tasks ++ [t]) log := by
  refine ⟨h.sorted, fun o ho u hu o' ho' => ?_⟩
  rcases List.mem_append.mp hu with hold | hnew
  · exact h.pending o ho u hold o' ho'
  · obtain rfl := List.mem_singleton.mp hnew
    exact ht o ho o' ho'

/-- A task that runs without output may only lose possible outputs. -/
theorem SortedSoFar.advance (h : SortedSoFar may rel tasks log) {i : ℕ} {t t' : T}
    (ht : tasks[i]? = some t) (hless : ∀ o, may t' o → may t o) :
    SortedSoFar may rel (tasks.set i t') log := by
  refine ⟨h.sorted, fun o ho u hu o' ho' => ?_⟩
  rcases List.mem_or_eq_of_mem_set hu with hold | rfl
  · exact h.pending o ho u hold o' ho'
  · exact h.pending o ho t (List.mem_of_getElem? ht) o' (hless o' ho')

/-- An output keeps the log sorted if it comes before all that is still
possible, of its own task and of the others. -/
theorem SortedSoFar.emit (h : SortedSoFar may rel tasks log) {i : ℕ} {t t' : T} {o : O}
    (ht : tasks[i]? = some t) (ho : may t o) (hself : ∀ o', may t' o' → may t o' ∧ rel o o')
    (hothers : ∀ j u, j ≠ i → tasks[j]? = some u → ∀ o', may u o' → rel o o') :
    SortedSoFar may rel (tasks.set i t') (log ++ [o]) := by
  have hlast : ∀ o₁ ∈ log, rel o₁ o :=
    fun o₁ ho₁ => h.pending o₁ ho₁ t (List.mem_of_getElem? ht) o ho
  have hkept := h.advance ht fun o' ho' => (hself o' ho').1
  refine ⟨?_, fun o₁ ho₁ u hu o' ho' => ?_⟩
  · refine List.pairwise_append.mpr ⟨h.sorted, List.pairwise_singleton rel o, ?_⟩
    intro o₁ ho₁ o₂ ho₂
    rw [List.mem_singleton.mp ho₂]
    exact hlast o₁ ho₁
  · rcases List.mem_append.mp ho₁ with hold | hnew
    · exact hkept.pending o₁ hold u hu o' ho'
    · rw [List.mem_singleton.mp hnew]
      obtain ⟨j, hj⟩ := List.mem_iff_getElem?.mp hu
      by_cases hji : j = i
      · rw [hji, List.getElem?_set_self (List.getElem?_eq_some_iff.mp ht).1] at hj
        obtain rfl := Option.some.inj hj
        exact (hself o' ho').2
      · rw [List.getElem?_set_ne (Ne.symm hji)] at hj
        exact hothers j u hji hj o' ho'

section Spawning

variable {A : Type} {f : T → A} {i j : ℕ} {t u : T}

/-- A step of one task leaves what never changes of any task. -/
theorem map_set_same {t' : T} (ht : tasks[i]? = some t) (hf : f t' = f t) :
    (tasks.set i t').map f = tasks.map f := by
  refine List.ext_getElem? fun k => ?_
  rw [List.getElem?_map, List.getElem?_map, List.getElem?_set]
  by_cases hik : i = k
  · have hlt := (List.getElem?_eq_some_iff.mp ht).1
    rw [if_pos hik, ← hik, if_pos hlt, ht, Option.map_some, Option.map_some, hf]
  · rw [if_neg hik]

/-- A task spawned before another is among those before it. -/
theorem mem_take_of_lt (hj : tasks[j]? = some u) (hji : j < i) : u ∈ tasks.take i := by
  refine List.mem_of_getElem? (i := j) ?_
  rw [List.getElem?_take_of_lt hji]
  exact hj

/-- Two tasks compare as their places do. -/
theorem rel_of_lt {r : A → A → Prop} (h : (tasks.map f).Pairwise r) (hi : tasks[i]? = some t)
    (hj : tasks[j]? = some u) (hij : i < j) : r (f t) (f u) := by
  obtain ⟨hilt, hie⟩ := List.getElem?_eq_some_iff.mp hi
  obtain ⟨hjlt, hje⟩ := List.getElem?_eq_some_iff.mp hj
  have hr := List.pairwise_iff_getElem.mp (List.pairwise_map.mp h) i j hilt hjlt hij
  rwa [hie, hje] at hr

end Spawning

/-- A task after one of them was replaced is the new one or an old one in
another place. -/
theorem getElem?_set_eq_some {i j : ℕ} {t t' : T} (h : (tasks.set i t')[j]? = some t) :
    (j = i ∧ t = t') ∨ (j ≠ i ∧ tasks[j]? = some t) := by
  by_cases hij : i = j
  · subst hij
    obtain ⟨hlt, hget⟩ := List.getElem?_eq_some_iff.mp h
    rw [List.getElem_set_self] at hget
    exact Or.inl ⟨rfl, hget.symm⟩
  · rw [List.getElem?_set_ne hij] at h
    exact Or.inr ⟨Ne.symm hij, h⟩

end Teleprompter.SpawnedTasks
