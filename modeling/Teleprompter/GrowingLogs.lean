import Mathlib.Data.List.TakeWhile

/-!
# Logs that grow at their end

Entries are appended to a log. What is read off a log by a partial function grows with
it. The entries behind a given one form its block until one comes that stops it; a
block that was not stopped grows with the log, and a stopped one stays as it is.
-/

namespace Teleprompter.GrowingLogs

variable {α β : Type} {stop : α → Bool} {log before after : List α} {e entry : α}

/-- A new entry adds what is read off it. -/
theorem filterMap_concat (f : α → Option β) (log : List α) (e : α) :
    (log ++ [e]).filterMap f = log.filterMap f ++ (f e).toList := by
  rw [List.filterMap_append]
  cases h : f e with
  | none => rw [List.filterMap_cons_none h, List.filterMap_nil, Option.toList_none]
  | some b => rw [List.filterMap_cons_some h, List.filterMap_nil, Option.toList_some]

/-- An entry of a log that grew is the new one or stood there before. -/
theorem split_concat (h : log ++ [e] = before ++ entry :: after) :
    (before = log ∧ entry = e ∧ after = []) ∨
      ∃ after', after = after' ++ [e] ∧ log = before ++ entry :: after' := by
  rcases List.eq_nil_or_concat after with rfl | ⟨after', last, rfl⟩
  · obtain ⟨hlog, hentry⟩ := List.append_inj' h rfl
    exact .inl ⟨hlog.symm, (List.singleton_inj.mp hentry).symm, rfl⟩
  · rw [List.concat_eq_append, ← List.cons_append, ← List.append_assoc] at h
    obtain ⟨hlog, hlast⟩ := List.append_inj' h rfl
    refine .inr ⟨after', ?_, hlog⟩
    rw [List.concat_eq_append, List.singleton_inj.mp hlast]

/-- No entry stops the block. -/
def Open (stop : α → Bool) (after : List α) : Prop := ∀ entry ∈ after, stop entry = false

/-- The entries until one stops the block. -/
def block (stop : α → Bool) (after : List α) : List α := after.takeWhile fun entry => !stop entry

theorem open_nil : Open stop [] := fun _ hmem => absurd hmem List.not_mem_nil

theorem open_concat : Open stop (after ++ [e]) ↔ Open stop after ∧ stop e = false := by
  constructor
  · intro h
    refine ⟨fun entry hmem => h entry (List.mem_append_left [e] hmem), h e ?_⟩
    exact List.mem_append_right after (List.mem_singleton_self e)
  · rintro ⟨hafter, he⟩ entry hmem
    rcases List.mem_append.mp hmem with hold | hnew
    · exact hafter entry hold
    · rw [List.mem_singleton.mp hnew]
      exact he

/-- An open block has all entries. -/
theorem Open.block_eq (h : Open stop after) : block stop after = after := by
  refine List.takeWhile_eq_self_iff.mpr fun entry hmem => ?_
  rw [h entry hmem]
  rfl

/-- A block that was stopped stays as it is. -/
theorem block_concat_of_not_open (h : ¬Open stop after) :
    block stop (after ++ [e]) = block stop after := by
  rw [block, List.takeWhile_append, if_neg]
  · rfl
  · intro hlength
    have hself := (List.takeWhile_prefix fun entry => !stop entry).eq_of_length hlength
    refine h fun entry hmem => ?_
    have hgo := List.takeWhile_eq_self_iff.mp hself entry hmem
    rwa [Bool.not_eq_true'] at hgo

/-- The entry that stops a block is not in it. -/
theorem block_concat_of_stop (he : stop e = true) : block stop (after ++ [e]) = block stop after := by
  by_cases h : Open stop after
  · rw [block, List.takeWhile_append_of_pos, List.takeWhile_cons_of_neg, List.append_nil, h.block_eq]
    · rw [he]
      decide
    · intro entry hmem
      rw [h entry hmem]
      rfl
  · exact block_concat_of_not_open h

/-- An open block grows with the log. -/
theorem Open.block_concat (h : Open stop after) (he : stop e = false) :
    block stop (after ++ [e]) = after ++ [e] :=
  (open_concat.mpr ⟨h, he⟩).block_eq

/-- What was in a block stays in it. -/
theorem mem_block_concat (h : entry ∈ block stop after) : entry ∈ block stop (after ++ [e]) := by
  by_cases hopen : Open stop after
  · cases he : stop e with
    | true => rwa [block_concat_of_stop he]
    | false =>
      rw [hopen.block_concat he]
      rw [hopen.block_eq] at h
      exact List.mem_append_left [e] h
  · rwa [block_concat_of_not_open hopen]

end Teleprompter.GrowingLogs
