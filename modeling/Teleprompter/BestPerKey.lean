import Mathlib.Data.List.Induction
import Mathlib.Order.Lattice
import Teleprompter.FiniteDictionary

/-!
# The best entry for each key

A list is read once, and for each key the entry that is best so far is kept; the
entries that lose are collected. A new entry replaces the kept one when it beats
it. Where beating means a higher score, the kept entry has the highest score of
its key, and it is the first of those in the list. Only where the highest score is
reached once does the outcome not depend on the order of the list.
-/

namespace Teleprompter.BestPerKey

open FiniteDictionary

variable {α K β : Type} [DecidableEq K] [LinearOrder β]

/-- Kept entries by key, and the entries that lost. -/
structure Ranking (α K : Type) [DecidableEq K] where
  best : Dict K α
  losers : List α

/-- Compare one entry with the one kept for its key. -/
def rankStep (key : α → K) (beats : α → α → Bool) (ranking : Ranking α K) (a : α) : Ranking α K :=
  match ranking.best.lookup (key a) with
  | none => ⟨ranking.best.insert (key a) a, ranking.losers⟩
  | some old =>
    if beats a old then ⟨ranking.best.insert (key a) a, ranking.losers ++ [old]⟩
    else ⟨ranking.best, ranking.losers ++ [a]⟩

/-- Compare all entries of a list. -/
def rank (key : α → K) (beats : α → α → Bool) (entries : List α) : Ranking α K :=
  entries.foldl (rankStep key beats) ⟨∅, []⟩

/-- The better of a kept entry and a new one. -/
def better (beats : α → α → Bool) : Option α → α → Option α
  | none, a => some a
  | some old, a => if beats a old then some a else some old

/-- The entry that is kept of a list. -/
def bestOf (beats : α → α → Bool) (entries : List α) : Option α :=
  entries.foldl (better beats) none

variable {key : α → K} {beats : α → α → Bool} {score : α → β}

/-- One more entry. -/
theorem rank_concat (entries : List α) (a : α) :
    rank key beats (entries ++ [a]) = rankStep key beats (rank key beats entries) a := by
  rw [rank, List.foldl_append]
  rfl

/-- One more entry changes what is kept for its key only. -/
theorem lookup_rankStep (ranking : Ranking α K) (a : α) (k : K) :
    (rankStep key beats ranking a).best.lookup k =
      if k = key a then better beats (ranking.best.lookup k) a else ranking.best.lookup k := by
  by_cases hk : k = key a
  · rw [if_pos hk, hk, rankStep]
    cases hold : ranking.best.lookup (key a) with
    | none =>
      dsimp only
      rw [lookup_insert_eq, if_pos rfl]
      rfl
    | some old =>
      rw [better]
      dsimp only
      split
      · dsimp only
        rw [lookup_insert_eq, if_pos rfl]
      · exact hold
  · rw [if_neg hk, rankStep]
    cases hold : ranking.best.lookup (key a) with
    | none => exact (lookup_insert_eq _ _ _ _).trans (if_neg hk)
    | some old =>
      dsimp only
      split
      · exact (lookup_insert_eq _ _ _ _).trans (if_neg hk)
      · rfl

/-- What is kept for a key is what is kept of the entries with that key. -/
theorem lookup_rank (entries : List α) (k : K) :
    (rank key beats entries).best.lookup k =
      bestOf beats (entries.filter fun a => key a = k) := by
  induction entries using List.reverseRecOn with
  | nil => rfl
  | append_singleton entries a ih =>
    rw [rank_concat, lookup_rankStep, ih, List.filter_append]
    by_cases hk : k = key a
    · rw [if_pos hk, List.filter_singleton, hk]
      simp [bestOf]
    · have hne : ¬key a = k := fun h => hk h.symm
      rw [if_neg hk, List.filter_singleton]
      simp [hne]

/-- Something is kept of a list unless it is empty. -/
theorem bestOf_eq_none_iff {entries : List α} : bestOf beats entries = none ↔ entries = [] := by
  induction entries using List.reverseRecOn with
  | nil => exact ⟨fun _ => rfl, fun _ => rfl⟩
  | append_singleton entries a ih =>
    rw [bestOf, List.foldl_append]
    simp only [List.foldl_cons, List.foldl_nil, List.append_eq_nil_iff, List.cons_ne_nil,
      and_false, iff_false]
    cases entries.foldl (better beats) none with
    | none => simp [better]
    | some old =>
      rw [better]
      split
      · simp
      · simp

/-- What is kept is an entry of the list. -/
theorem mem_of_bestOf {entries : List α} {best : α} (h : bestOf beats entries = some best) :
    best ∈ entries := by
  induction entries using List.reverseRecOn generalizing best with
  | nil => cases h
  | append_singleton entries a ih =>
    rw [bestOf, List.foldl_append, List.foldl_cons, List.foldl_nil] at h
    cases hold : entries.foldl (better beats) none with
    | none =>
      rw [hold] at h
      rw [← Option.some.inj h]
      exact List.mem_append_right _ (List.mem_singleton_self a)
    | some old =>
      rw [hold, better] at h
      split at h
      · rw [← Option.some.inj h]
        exact List.mem_append_right _ (List.mem_singleton_self a)
      · rw [← Option.some.inj h]
        exact List.mem_append_left _ (ih hold)

/-- What is kept has the highest score. -/
theorem score_le_bestOf (hbeats : ∀ a b, beats a b = true ↔ score b < score a) {entries : List α}
    {best : α} (h : bestOf beats entries = some best) : ∀ a ∈ entries, score a ≤ score best := by
  induction entries using List.reverseRecOn generalizing best with
  | nil => cases h
  | append_singleton entries a ih =>
    rw [bestOf, List.foldl_append, List.foldl_cons, List.foldl_nil] at h
    intro b hb
    have hb' := List.mem_append.mp hb
    cases hold : entries.foldl (better beats) none with
    | none =>
      have hnil : entries = [] := bestOf_eq_none_iff.mp hold
      rw [hold] at h
      rw [hnil] at hb'
      rw [← Option.some.inj h]
      rcases hb' with hb' | hb'
      · cases hb'
      · rw [List.mem_singleton.mp hb']
    | some old =>
      have hbest := ih hold
      rw [hold, better] at h
      split at h
      · rename_i hwin
        have hlt := (hbeats a old).mp hwin
        rw [← Option.some.inj h]
        rcases hb' with hb' | hb'
        · exact (hbest b hb').trans hlt.le
        · rw [List.mem_singleton.mp hb']
      · rename_i hlose
        have hle : score a ≤ score old := not_lt.mp fun hlt => hlose ((hbeats a old).mpr hlt)
        rw [← Option.some.inj h]
        rcases hb' with hb' | hb'
        · exact hbest b hb'
        · rw [List.mem_singleton.mp hb']
          exact hle

/-- An entry with the highest score at the head of the list is kept. -/
theorem bestOf_cons (hbeats : ∀ a b, beats a b = true ↔ score b < score a) {entries : List α}
    {a : α} (h : ∀ b ∈ entries, score b ≤ score a) : bestOf beats (a :: entries) = some a := by
  induction entries using List.reverseRecOn with
  | nil => rfl
  | append_singleton entries b ih =>
    have hfront := ih fun c hc => h c (List.mem_append_left _ hc)
    have hlast : ¬beats b a = true := by
      rw [hbeats]
      exact not_lt.mpr (h b (by simp))
    rw [bestOf, ← List.cons_append, List.foldl_append]
    change better beats (bestOf beats (a :: entries)) b = some a
    rw [hfront, better, if_neg hlast]

/-- An entry that alone has the highest score is kept. -/
theorem bestOf_of_unique (hbeats : ∀ a b, beats a b = true ↔ score b < score a)
    {entries : List α} {a : α} (hmem : a ∈ entries) (h : ∀ b ∈ entries, b ≠ a → score b < score a) :
    bestOf beats entries = some a := by
  cases hbest : bestOf beats entries with
  | none =>
    rw [bestOf_eq_none_iff.mp hbest] at hmem
    cases hmem
  | some best =>
    by_cases heq : best = a
    · rw [heq]
    · have hle := score_le_bestOf hbeats hbest a hmem
      exact absurd (h best (mem_of_bestOf hbest) heq) (not_lt.mpr hle)

/-- What is kept for a key is an entry with that key. -/
theorem mem_of_lookup_rank {entries : List α} {k : K} {best : α}
    (h : (rank key beats entries).best.lookup k = some best) : best ∈ entries ∧ key best = k := by
  rw [lookup_rank] at h
  have hmem := List.mem_filter.mp (mem_of_bestOf h)
  exact ⟨hmem.1, of_decide_eq_true hmem.2⟩

/-- Nothing is kept for a key without entries. -/
theorem notMem_of_lookup_rank {entries : List α} {a : α}
    (h : (rank key beats entries).best.lookup (key a) = none) : a ∉ entries := by
  rw [lookup_rank, bestOf_eq_none_iff] at h
  intro hmem
  have hfilter : a ∈ entries.filter fun b => key b = key a :=
    List.mem_filter.mpr ⟨hmem, decide_eq_true rfl⟩
  rw [h] at hfilter
  cases hfilter

/-- The losers of a list without repetition are the entries that are not kept. -/
theorem mem_losers_iff {entries : List α} (hnodup : entries.Nodup) {a : α} :
    a ∈ (rank key beats entries).losers ↔
      a ∈ entries ∧ (rank key beats entries).best.lookup (key a) ≠ some a := by
  induction entries using List.reverseRecOn with
  | nil => simp [rank]
  | append_singleton entries b ih =>
    have hih := ih (List.nodup_append.mp hnodup).1
    have hb : b ∉ entries := fun hmem =>
      (List.nodup_append.mp hnodup).2.2 b hmem b (List.mem_singleton_self b) rfl
    have hmem : a ∈ entries ++ [b] ↔ a ∈ entries ∨ a = b := by simp
    rw [rank_concat, lookup_rankStep, hmem]
    cases hold : (rank key beats entries).best.lookup (key b) with
    | none =>
      have hlosers : (rankStep key beats (rank key beats entries) b).losers =
          (rank key beats entries).losers := by
        rw [rankStep, hold]
      rw [hlosers, hih]
      by_cases hk : key a = key b
      · have ha : a ∉ entries := notMem_of_lookup_rank (hk ▸ hold)
        rw [if_pos hk, hk, hold]
        simp [ha, better, eq_comm]
      · have hab : a ≠ b := fun h => hk (congrArg key h)
        rw [if_neg hk]
        simp [hab]
    | some old =>
      obtain ⟨holdMem, holdKey⟩ := mem_of_lookup_rank hold
      by_cases hwin : beats b old = true
      · have hlosers : (rankStep key beats (rank key beats entries) b).losers =
            (rank key beats entries).losers ++ [old] := by
          rw [rankStep, hold]
          dsimp only
          rw [if_pos hwin]
        rw [hlosers, List.mem_append, hih, List.mem_singleton]
        by_cases hk : key a = key b
        · have hne : b ≠ old := fun h => hb (h ▸ holdMem)
          rw [if_pos hk, hk, hold, better, if_pos hwin]
          by_cases haold : a = old
          · simp [haold, holdMem, hne]
          · by_cases hab : a = b
            · simp [hab, hb, hne]
            · simp [haold, hab, Ne.symm haold, Ne.symm hab]
        · have hab : a ≠ b := fun h => hk (congrArg key h)
          have haold : a ≠ old := fun h => hk (h ▸ holdKey)
          rw [if_neg hk]
          simp [hab, haold]
      · have hlosers : (rankStep key beats (rank key beats entries) b).losers =
            (rank key beats entries).losers ++ [b] := by
          rw [rankStep, hold]
          dsimp only
          rw [if_neg hwin]
        rw [hlosers, List.mem_append, hih, List.mem_singleton]
        by_cases hk : key a = key b
        · rw [if_pos hk, hk, hold, better, if_neg hwin]
          by_cases hab : a = b
          · have hne : old ≠ b := fun h => hb (h ▸ holdMem)
            simp [hab, hne]
          · simp [hab]
        · have hab : a ≠ b := fun h => hk (congrArg key h)
          rw [if_neg hk]
          simp [hab]

/-- Where keys do not repeat, every entry is kept. -/
theorem lookup_rank_of_distinct {entries : List α}
    (h : ∀ a ∈ entries, ∀ b ∈ entries, key a = key b → a = b) {a : α} {k : K} :
    (rank key beats entries).best.lookup k = some a ↔ a ∈ entries ∧ key a = k := by
  constructor
  · exact mem_of_lookup_rank
  · rintro ⟨hmem, rfl⟩
    cases hbest : (rank key beats entries).best.lookup (key a) with
    | none => exact absurd hmem (notMem_of_lookup_rank hbest)
    | some b =>
      obtain ⟨hb, hkey⟩ := mem_of_lookup_rank hbest
      rw [h b hb a hmem hkey]

/-- Where keys do not repeat, no entry loses. -/
theorem losers_of_distinct {entries : List α} (hnodup : entries.Nodup)
    (h : ∀ a ∈ entries, ∀ b ∈ entries, key a = key b → a = b) :
    (rank key beats entries).losers = [] := by
  refine List.eq_nil_iff_forall_not_mem.mpr fun a hloser => ?_
  obtain ⟨hmem, hnot⟩ := (mem_losers_iff hnodup).mp hloser
  exact hnot ((lookup_rank_of_distinct h).mpr ⟨hmem, rfl⟩)

end Teleprompter.BestPerKey
