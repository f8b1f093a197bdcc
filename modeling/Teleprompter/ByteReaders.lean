import Mathlib.Data.List.Basic

/-!
# Readers with short reads

A reader hands out the units of a finite stream, at each call as many as it
likes up to the number asked for, and none only when the stream has ended or
none were asked for. Reading an exact number repeats such calls. What it
returns depends on the stream alone and not on the lengths of the single
reads.
-/

namespace Teleprompter.ByteReaders

variable {σ β : Type}

/-- A reader over states, with the units it has still to hand out. -/
structure Reader (σ β : Type) where
  /-- One call that asks for a number of units. -/
  read : σ → ℕ → List β × σ
  /-- The units that were not handed out yet. -/
  remaining : σ → List β
  /-- A call hands out the front of them. -/
  read_append : ∀ s n, (read s n).1 ++ remaining (read s n).2 = remaining s
  /-- A call hands out no more than it was asked for. -/
  read_length_le : ∀ s n, (read s n).1.length ≤ n
  /-- Before the end, a call that asks for units gets some. -/
  read_ne_nil : ∀ s n, 0 < n → remaining s ≠ [] → (read s n).1 ≠ []

namespace Reader

variable (R : Reader σ β)

/-- Read until the asked number is there; none when the stream ends before. -/
def readExact (s : σ) (n : ℕ) : Option (List β) × σ :=
  if n = 0 then (some [], s)
  else if (R.read s n).1 = [] then (none, (R.read s n).2)
  else
    let more := readExact (R.read s n).2 (n - (R.read s n).1.length)
    (more.1.map ((R.read s n).1 ++ ·), more.2)
termination_by n
decreasing_by
  rename_i hzero hend
  have hpos := List.length_pos_iff.mpr hend
  omega

/-- The exact number is read when the stream holds it. -/
theorem readExact_of_le {s : σ} {n : ℕ} (h : n ≤ (R.remaining s).length) :
    (R.readExact s n).1 = some ((R.remaining s).take n) ∧
      R.remaining (R.readExact s n).2 = (R.remaining s).drop n := by
  induction n using Nat.strongRecOn generalizing s with
  | ind n ih =>
    rw [readExact]
    by_cases hzero : n = 0
    · rw [if_pos hzero, hzero, List.take_zero, List.drop_zero]
      exact ⟨rfl, rfl⟩
    · have hthere : R.remaining s ≠ [] := by
        intro hempty
        rw [hempty, List.length_nil] at h
        exact hzero (Nat.le_zero.mp h)
      have hgot := R.read_ne_nil s n (Nat.pos_of_ne_zero hzero) hthere
      have hpos := List.length_pos_iff.mpr hgot
      have hle := R.read_length_le s n
      have happend := R.read_append s n
      have hlength := congrArg List.length happend
      rw [List.length_append] at hlength
      obtain ⟨hmore, hrest⟩ := ih (n - (R.read s n).1.length) (by omega)
        (s := (R.read s n).2) (by omega)
      rw [if_neg hzero, if_neg hgot]
      dsimp only
      rw [hmore, hrest, ← happend, Option.map_some, List.take_append, List.drop_append,
        List.take_of_length_le hle, List.drop_of_length_le hle, List.nil_append]
      exact ⟨rfl, rfl⟩

/-- A stream that ends before gives nothing. -/
theorem readExact_of_lt {s : σ} {n : ℕ} (h : (R.remaining s).length < n) :
    (R.readExact s n).1 = none := by
  induction n using Nat.strongRecOn generalizing s with
  | ind n ih =>
    rw [readExact, if_neg (by omega)]
    by_cases hend : (R.read s n).1 = []
    · rw [if_pos hend]
    · have hpos := List.length_pos_iff.mpr hend
      have hle := R.read_length_le s n
      have hlength := congrArg List.length (R.read_append s n)
      rw [List.length_append] at hlength
      rw [if_neg hend]
      dsimp only
      rw [ih (n - (R.read s n).1.length) (by omega) (by omega), Option.map_none]

theorem exists_readExact_eq_some {s : σ} {n : ℕ} (h : n ≤ (R.remaining s).length) :
    ∃ s', R.readExact s n = (some ((R.remaining s).take n), s') ∧
      R.remaining s' = (R.remaining s).drop n :=
  ⟨(R.readExact s n).2, Prod.ext (R.readExact_of_le h).1 rfl, (R.readExact_of_le h).2⟩

theorem exists_readExact_eq_none {s : σ} {n : ℕ} (h : (R.remaining s).length < n) :
    ∃ s', R.readExact s n = (none, s') :=
  ⟨(R.readExact s n).2, Prod.ext (R.readExact_of_lt h) rfl⟩

/-- What every call keeps, an exact read keeps. -/
theorem readExact_preserves {P : σ → Prop} (hread : ∀ s n, P s → P (R.read s n).2) {s : σ}
    (n : ℕ) (h : P s) : P (R.readExact s n).2 := by
  induction n using Nat.strongRecOn generalizing s with
  | ind n ih =>
    rw [readExact]
    split
    · exact h
    · split
      · exact hread s n h
      · rename_i hzero hgot
        have hpos := List.length_pos_iff.mpr hgot
        exact ih (n - (R.read s n).1.length) (by omega) (hread s n h)

end Reader

section Chain

/-- Units to be read first, whether they were read to their end, and the
reader behind them. -/
structure Chained (σ β : Type) where
  /-- Units of the first reader not handed out yet. -/
  first : List β
  /-- The first reader has answered with nothing. -/
  doneFirst : Bool
  /-- The state of the second reader. -/
  second : σ

/-- One call: the first reader until it has nothing, then the second. -/
def chainRead (R : Reader σ β) (s : Chained σ β) (n : ℕ) : List β × Chained σ β :=
  if s.doneFirst then ((R.read s.second n).1, { s with second := (R.read s.second n).2 })
  else if s.first.take n = [] ∧ 0 < n then
    ((R.read s.second n).1, ⟨s.first, true, (R.read s.second n).2⟩)
  else (s.first.take n, { s with first := s.first.drop n })

/-- The units of a chain. -/
def chainRemaining (R : Reader σ β) (s : Chained σ β) : List β :=
  (if s.doneFirst then [] else s.first) ++ R.remaining s.second

/-- The first part of a chain is used up when a call that asks for units of it
gets none. -/
theorem first_eq_nil {s : Chained σ β} {n : ℕ} (h : s.first.take n = [] ∧ 0 < n) :
    s.first = [] := by
  rcases List.take_eq_nil_iff.mp h.1 with hzero | hnil
  · omega
  · exact hnil

/-- Units put back in front of a reader. -/
def chain (R : Reader σ β) : Reader (Chained σ β) β where
  read := chainRead R
  remaining := chainRemaining R
  read_append := by
    intro s n
    rw [chainRead]
    split
    · rename_i hdone
      simp only [chainRemaining, hdone, if_true, List.nil_append]
      exact R.read_append s.second n
    · rename_i hdone
      split
      · rename_i hempty
        have hfirst := first_eq_nil hempty
        simp only [chainRemaining, if_neg hdone, hfirst, if_true, List.nil_append]
        exact R.read_append s.second n
      · simp only [chainRemaining, if_neg hdone]
        rw [← List.append_assoc, List.take_append_drop]
  read_length_le := by
    intro s n
    rw [chainRead]
    split
    · exact R.read_length_le s.second n
    · split
      · exact R.read_length_le s.second n
      · exact List.length_take_le n s.first
  read_ne_nil := by
    intro s n hpos hthere
    rw [chainRemaining] at hthere
    rw [chainRead]
    split
    · rename_i hdone
      rw [if_pos hdone, List.nil_append] at hthere
      exact R.read_ne_nil s.second n hpos hthere
    · rename_i hdone
      split
      · rename_i hempty
        have hfirst := first_eq_nil hempty
        rw [if_neg hdone, hfirst, List.nil_append] at hthere
        exact R.read_ne_nil s.second n hpos hthere
      · rename_i hgot
        exact fun hnil => hgot ⟨hnil, hpos⟩

/-- The second reader is not called while the first has units. -/
def Untouched (start : σ) (s : Chained σ β) : Prop :=
  s.doneFirst = false → s.first ≠ [] → s.second = start

theorem untouched_chainRead (R : Reader σ β) {start : σ} (s : Chained σ β) (n : ℕ)
    (h : Untouched start s) : Untouched start (chainRead R s n).2 := by
  rw [chainRead]
  split
  · rename_i hdone
    intro hfalse
    dsimp only at hfalse
    rw [hdone] at hfalse
    cases hfalse
  · split
    · intro hfalse
      cases hfalse
    · intro hdone hleft
      refine h hdone fun hnil => hleft ?_
      dsimp only
      rw [hnil, List.drop_nil]

/-- When no more is left than the second reader had, the first is used up. -/
theorem Untouched.remaining_second {R : Reader σ β} {start : σ} {s : Chained σ β}
    (h : Untouched start s)
    (hle : (chainRemaining R s).length ≤ (R.remaining start).length) :
    R.remaining s.second = chainRemaining R s := by
  rw [chainRemaining] at hle ⊢
  split
  · rw [List.nil_append]
  · rename_i hdone
    rw [if_neg hdone, List.length_append] at hle
    by_cases hfirst : s.first = []
    · rw [hfirst, List.nil_append]
    · have hpos := List.length_pos_iff.mpr hfirst
      rw [h (Bool.eq_false_iff.mpr hdone) hfirst] at hle
      omega

end Chain

section ShortReads

/-- A stream and the number of calls made on it. -/
structure ShortReads (β : Type) where
  /-- Units not handed out yet. -/
  rest : List β
  /-- Calls so far. -/
  calls : ℕ

/-- A reader whose calls hand out at most a number of units that is fixed
beforehand for each call. -/
def shortReader (limit : ℕ → ℕ) : Reader (ShortReads β) β where
  read s n :=
    let count := min n (max 1 (limit s.calls))
    (s.rest.take count, ⟨s.rest.drop count, s.calls + 1⟩)
  remaining s := s.rest
  read_append s n := List.take_append_drop _ s.rest
  read_length_le s n := Nat.le_trans (List.length_take_le _ s.rest) (Nat.min_le_left _ _)
  read_ne_nil := by
    intro s n hpos hthere hnil
    rcases List.take_eq_nil_iff.mp hnil with hzero | hempty
    · omega
    · exact hthere hempty

end ShortReads

end Teleprompter.ByteReaders
