import Mathlib.Data.List.Basic
import Mathlib.Data.List.Count
import Mathlib.Data.List.Flatten
import Mathlib.Order.Nat

/-!
# Events counted in fixed windows

Events are counted in windows of one length. A window opens at some time after
the one before it is over, and takes no event once it is over itself. However
the windows lie, an interval of their length meets at most two of them.
-/

namespace Teleprompter.FixedWindows

/-- A window with the times of its events. -/
structure Window where
  /-- When the window opened. -/
  start : ℕ
  /-- When its events happened. -/
  times : List ℕ

/-- Windows of a length, the last one first, each with at most so many events. -/
structure Separated (length limit : ℕ) (windows : List Window) : Prop where
  /-- An event happens in its window. -/
  inside : ∀ w ∈ windows, ∀ t ∈ w.times, w.start ≤ t ∧ (t = w.start ∨ t < w.start + length)
  /-- No window has more events than the limit. -/
  bounded : ∀ w ∈ windows, w.times.length ≤ limit
  /-- A window opens when the earlier ones are over. -/
  apart : windows.Pairwise fun later earlier => earlier.start + length ≤ later.start

/-- The events of all windows. -/
def events (windows : List Window) : List ℕ := windows.flatMap Window.times

variable {length limit : ℕ} {windows : List Window}

theorem Separated.tail {w : Window} (h : Separated length limit (w :: windows)) :
    Separated length limit windows where
  inside v hv := h.inside v (List.mem_cons_of_mem w hv)
  bounded v hv := h.bounded v (List.mem_cons_of_mem w hv)
  apart := (List.pairwise_cons.mp h.apart).2

/-- Windows that are over before an interval have no events in it. -/
theorem count_eq_zero (h : Separated length limit windows) (hlength : 0 < length) {start : ℕ}
    (hover : ∀ w ∈ windows, w.start + length ≤ start) :
    ((events windows).countP fun t => start ≤ t ∧ t ≤ start + length) = 0 := by
  rw [List.countP_eq_zero]
  intro t ht hin
  obtain ⟨w, hw, htw⟩ := List.mem_flatMap.mp ht
  have hinside := h.inside w hw t htw
  have hend := hover w hw
  have hstart := (of_decide_eq_true hin).1
  omega

/-- An interval of the length of a window has at most twice as many events as a window:
behind a window that begins before the interval ends only one more reaches into it. -/
theorem count_le_twice (h : Separated length limit windows) (hlength : 0 < length) (start : ℕ) :
    ((events windows).countP fun t => start ≤ t ∧ t ≤ start + length) ≤ 2 * limit := by
  induction windows with
  | nil => exact Nat.zero_le _
  | cons w earlier ih =>
    rw [events, List.flatMap_cons, List.countP_append]
    by_cases hmeets : ∃ t ∈ w.times, t ≤ start + length
    · obtain ⟨t, ht, hle⟩ := hmeets
      have hbegins := (h.inside w List.mem_cons_self t ht).1
      have hfirst := (List.countP_le_length (p := fun t => decide (start ≤ t ∧ t ≤ start + length))
        (l := w.times)).trans (h.bounded w List.mem_cons_self)
      cases earlier with
      | nil =>
        rw [List.flatMap_nil, List.countP_nil]
        omega
      | cons v rest =>
        have hapart := List.pairwise_cons.mp h.apart
        have hv := hapart.1 v List.mem_cons_self
        have hover : ∀ u ∈ rest, u.start + length ≤ start := by
          intro u hu
          have hu' := (List.pairwise_cons.mp hapart.2).1 u hu
          omega
        have hrest := count_eq_zero h.tail.tail hlength hover
        have hsecond := (List.countP_le_length
          (p := fun t => decide (start ≤ t ∧ t ≤ start + length)) (l := v.times)).trans
          (h.bounded v (List.mem_cons_of_mem w List.mem_cons_self))
        rw [events] at hrest
        rw [List.flatMap_cons, List.countP_append, hrest]
        omega
    · have hnone : w.times.countP (fun t => decide (start ≤ t ∧ t ≤ start + length)) = 0 := by
        rw [List.countP_eq_zero]
        exact fun t ht hin => hmeets ⟨t, ht, (of_decide_eq_true hin).2⟩
      rw [hnone, Nat.zero_add]
      exact ih h.tail

/-- A window that is over opens anew, without events. -/
def restart (length now : ℕ) (current : ℕ × ℕ) : ℕ × ℕ :=
  if length ≤ now - current.1 then (now, 0) else current

/-- What is known of the events up to some time: the start and the count of the
window that is open, if there is one. -/
def Accounts (length limit clock : ℕ) (current : Option (ℕ × ℕ)) (times : List ℕ) : Prop :=
  ∃ windows, Separated length limit windows ∧ times.Perm (events windows) ∧
    match current with
    | some (start, count) => start ≤ clock ∧
      ∃ open' past, windows = ⟨start, open'⟩ :: past ∧ open'.length = count
    | none => ∀ w ∈ windows, w.start + length ≤ clock

section Rules

variable {clock now : ℕ} {current : Option (ℕ × ℕ)} {times : List ℕ}

theorem accounts_nil (length limit clock : ℕ) : Accounts length limit clock none [] := by
  refine ⟨[], ⟨?_, ?_, List.Pairwise.nil⟩, List.Perm.nil, ?_⟩
  · intro w hw
    cases hw
  · intro w hw
    cases hw
  · intro w hw
    cases hw

theorem Accounts.later (h : Accounts length limit clock current times) (hle : clock ≤ now) :
    Accounts length limit now current times := by
  obtain ⟨windows, hsep, hperm, hcurrent⟩ := h
  refine ⟨windows, hsep, hperm, ?_⟩
  cases current with
  | none => exact fun w hw => (hcurrent w hw).trans hle
  | some c => exact ⟨hcurrent.1.trans hle, hcurrent.2⟩

/-- A window that is over may be forgotten. -/
theorem Accounts.forget {start count : ℕ}
    (h : Accounts length limit clock (some (start, count)) times) (hover : start + length ≤ clock) :
    Accounts length limit clock none times := by
  obtain ⟨windows, hsep, hperm, hstart, open', past, rfl, hcount⟩ := h
  refine ⟨_, hsep, hperm, ?_⟩
  rintro w (_ | ⟨_, hw⟩)
  · exact hover
  · have hw' := (List.pairwise_cons.mp hsep.apart).1 w hw
    dsimp only at hw'
    omega

/-- A window may be opened when none is. -/
theorem Accounts.openAt (h : Accounts length limit clock none times) :
    Accounts length limit clock (some (clock, 0)) times := by
  obtain ⟨windows, hsep, hperm, hover⟩ := h
  refine ⟨⟨clock, []⟩ :: windows, ⟨?_, ?_, List.pairwise_cons.mpr ⟨hover, hsep.apart⟩⟩, hperm,
    le_rfl, [], windows, rfl, rfl⟩
  · rintro w (_ | ⟨_, hw⟩)
    · intro t ht
      cases ht
    · exact hsep.inside w hw
  · rintro w (_ | ⟨_, hw⟩)
    · exact Nat.zero_le _
    · exact hsep.bounded w hw

theorem Accounts.restart (h : Accounts length limit clock current times) :
    Accounts length limit clock (current.map (restart length clock)) times := by
  cases current with
  | none => exact h
  | some c =>
    rw [Option.map_some, FixedWindows.restart]
    split
    · rename_i hover
      have hstart : c.1 ≤ clock := by
        obtain ⟨_, _, _, hstart, _⟩ := h
        exact hstart
      exact (h.forget (by omega)).openAt
    · exact h

/-- One more event in the open window. -/
theorem Accounts.event {start count : ℕ}
    (h : Accounts length limit clock (some (start, count)) times)
    (hopen : clock = start ∨ clock < start + length) (hroom : count < limit) :
    Accounts length limit clock (some (start, count + 1)) (times ++ [clock]) := by
  obtain ⟨windows, hsep, hperm, hstart, open', past, rfl, hcount⟩ := h
  refine ⟨⟨start, clock :: open'⟩ :: past, ⟨?_, ?_, ?_⟩, ?_, hstart, clock :: open', past, rfl, ?_⟩
  · rintro w (_ | ⟨_, hw⟩)
    · rintro t (_ | ⟨_, ht⟩)
      · exact ⟨hstart, hopen⟩
      · exact hsep.inside _ List.mem_cons_self t ht
    · exact hsep.inside w (List.mem_cons_of_mem _ hw)
  · rintro w (_ | ⟨_, hw⟩)
    · rw [List.length_cons, hcount]
      exact hroom
    · exact hsep.bounded w (List.mem_cons_of_mem _ hw)
  · have hpast := List.pairwise_cons.mp hsep.apart
    exact List.pairwise_cons.mpr ⟨hpast.1, hpast.2⟩
  · exact (List.perm_append_singleton clock times).trans (hperm.cons clock)
  · rw [List.length_cons, hcount]

/-- An interval has at most twice as many of the events as a window. -/
theorem Accounts.count_le_twice (h : Accounts length limit clock current times)
    (hlength : 0 < length) (start : ℕ) :
    (times.countP fun t => start ≤ t ∧ t ≤ start + length) ≤ 2 * limit := by
  obtain ⟨windows, hsep, hperm, -⟩ := h
  rw [hperm.countP_eq]
  exact FixedWindows.count_le_twice hsep hlength start

end Rules

end Teleprompter.FixedWindows
