import Mathlib.Data.List.Infix
import Mathlib.Data.List.TakeWhile

/-!
# Lines of texts

A text is lines that end with a newline and a line in progress. The lines are
those of a file's content: behind the last newline there is one only when
something is there.
-/

namespace Teleprompter.TextLines

variable {α : Type}

/-- Nothing is behind the last newline. -/
def Closed (newline : α) (s : List α) : Prop := s = [] ∨ [newline] <:+ s

/-- A text may stand in front of lines that end. -/
theorem Closed.append {newline : α} {s t : List α} (h : Closed newline t) (ht : t ≠ []) :
    Closed newline (s ++ t) :=
  .inr ((h.resolve_left ht).trans (List.suffix_append s t))

variable [DecidableEq α]

/-- The lines that end in a text, and what is behind the last of them. -/
def splitLines (newline : α) : List α → List (List α) × List α
  | [] => ([], [])
  | c :: s =>
    if c = newline then ([] :: (splitLines newline s).1, (splitLines newline s).2)
    else
      match (splitLines newline s).1 with
      | [] => ([], c :: (splitLines newline s).2)
      | line :: more => ((c :: line) :: more, (splitLines newline s).2)

/-- The lines of a text. Behind the last newline there is one only when something is there. -/
def lines (newline : α) (s : List α) : List (List α) :=
  (splitLines newline s).1 ++
    if (splitLines newline s).2 = [] then [] else [(splitLines newline s).2]

/-- The lines that end in front of a block, without an empty line directly in front of it. -/
def linesBefore (newline : α) (s : List α) : List (List α) :=
  if (splitLines newline s).2 = [] ∧ (splitLines newline s).1.getLast? = some [] then
    (splitLines newline s).1.dropLast
  else (splitLines newline s).1

/-- What is behind the line in progress. -/
def behindLine (newline : α) (s : List α) : List α := (s.dropWhile (· ≠ newline)).tail

/-- A text without one newline at its front. -/
def dropFirst (newline : α) : List α → List α
  | [] => []
  | c :: s => if c = newline then s else c :: s

/-- A text without one newline at its end. -/
def dropLast (newline : α) (s : List α) : List α :=
  if s.getLast? = some newline then s.dropLast else s

variable {newline : α}

/-- A newline ends a line. -/
theorem splitLines_ne_nil_of_mem {s : List α} (h : newline ∈ s) :
    (splitLines newline s).1 ≠ [] := by
  induction s with
  | nil => cases h
  | cons c s ih =>
    rw [splitLines]
    by_cases hc : c = newline
    · rw [if_pos hc]
      exact List.cons_ne_nil _ _
    · have hs := ih ((List.mem_cons.mp h).resolve_left (Ne.symm hc))
      obtain ⟨line, more, hlines⟩ := List.exists_cons_of_ne_nil hs
      rw [if_neg hc, hlines]
      exact List.cons_ne_nil _ _

/-- Behind a newline the lines go on. -/
theorem splitLines_append_newline (s t : List α) : splitLines newline (s ++ newline :: t) =
    ((splitLines newline (s ++ [newline])).1 ++ (splitLines newline t).1,
      (splitLines newline t).2) := by
  induction s with
  | nil => simp [splitLines]
  | cons c s ih =>
    rw [List.cons_append, List.cons_append, splitLines, splitLines, ih]
    by_cases hc : c = newline
    · simp [hc]
    · have hne : (splitLines newline (s ++ [newline])).1 ≠ [] :=
        splitLines_ne_nil_of_mem (List.mem_append_right s List.mem_cons_self)
      obtain ⟨line, more, hlines⟩ := List.exists_cons_of_ne_nil hne
      rw [if_neg hc, if_neg hc, hlines]
      rfl

/-- Where nothing is behind the last newline, the lines go on. -/
theorem Closed.splitLines_append {s : List α} (h : Closed newline s) (t : List α) :
    splitLines newline (s ++ t) =
      ((splitLines newline s).1 ++ (splitLines newline t).1, (splitLines newline t).2) := by
  obtain rfl | ⟨front, rfl⟩ := h
  · rfl
  · rw [List.append_assoc, List.singleton_append, splitLines_append_newline]

/-- No line is in progress. -/
theorem Closed.open_eq_nil {s : List α} (h : Closed newline s) : (splitLines newline s).2 = [] := by
  obtain rfl | ⟨front, rfl⟩ := h
  · rfl
  · rw [splitLines_append_newline]
    rfl

/-- A text without a newline is a line in progress. -/
theorem splitLines_of_notMem {s : List α} (h : newline ∉ s) : splitLines newline s = ([], s) := by
  induction s with
  | nil => rfl
  | cons c s ih =>
    obtain ⟨hc, hs⟩ := not_or.mp (List.mem_cons.not.mp h)
    rw [splitLines, if_neg (Ne.symm hc), ih hs]

/-- A text is lines that end and something without a newline. -/
theorem exists_closed_append (newline : α) (s : List α) :
    ∃ front last, s = front ++ last ∧ Closed newline front ∧ newline ∉ last := by
  induction s with
  | nil => exact ⟨[], [], rfl, .inl rfl, List.not_mem_nil⟩
  | cons c s ih =>
    obtain ⟨front, last, rfl, hfront, hlast⟩ := ih
    by_cases hempty : front = []
    · subst hempty
      by_cases hc : c = newline
      · exact ⟨[c], last, rfl, .inr (hc ▸ List.suffix_rfl), hlast⟩
      · exact ⟨[], c :: last, rfl, .inl rfl,
          List.mem_cons.not.mpr (not_or.mpr ⟨Ne.symm hc, hlast⟩)⟩
    · exact ⟨c :: front, last, rfl, hfront.append (s := [c]) hempty, hlast⟩

/-- One line that ends. -/
theorem splitLines_line {line : List α} (h : newline ∉ line) :
    splitLines newline (line ++ [newline]) = ([line], []) := by
  induction line with
  | nil => simp [splitLines]
  | cons c line ih =>
    obtain ⟨hc, hline⟩ := not_or.mp (List.mem_cons.not.mp h)
    rw [List.cons_append, splitLines, if_neg (Ne.symm hc), ih hline]

/-- The lines of more text follow lines that end. -/
theorem Closed.lines_append {s : List α} (h : Closed newline s) (t : List α) :
    lines newline (s ++ t) = (splitLines newline s).1 ++ lines newline t := by
  rw [lines, h.splitLines_append, List.append_assoc]
  rfl

/-- All lines end. -/
theorem Closed.lines_eq {s : List α} (h : Closed newline s) :
    lines newline s = (splitLines newline s).1 := by
  rw [lines, if_pos h.open_eq_nil, List.append_nil]

/-- An empty line in front of the block is found behind what ends a line. -/
theorem Closed.linesBefore_append {s t : List α} (h : Closed newline s) (ht : t ≠ []) :
    linesBefore newline (s ++ t) = (splitLines newline s).1 ++ linesBefore newline t := by
  rw [linesBefore, h.splitLines_append, linesBefore]
  dsimp only
  by_cases hempty : (splitLines newline t).1 = []
  · have hopen : (splitLines newline t).2 ≠ [] := by
      obtain ⟨front, last, rfl, hfront, hlast⟩ := exists_closed_append newline t
      rw [hfront.splitLines_append, splitLines_of_notMem hlast] at hempty ⊢
      rintro rfl
      rw [List.append_nil] at hempty ht
      exact splitLines_ne_nil_of_mem ((hfront.resolve_left ht).subset List.mem_cons_self) hempty
    rw [if_neg fun h => hopen h.1, if_neg fun h => hopen h.1]
  · rw [List.getLast?_append_of_ne_nil _ hempty]
    split
    · exact List.dropLast_append_of_ne_nil hempty
    · rfl

/-- A newline behind lines that end is an empty line in front of the block. -/
theorem Closed.linesBefore_newline {s : List α} (h : Closed newline s) :
    linesBefore newline (s ++ [newline]) = (splitLines newline s).1 := by
  have hone : linesBefore newline [newline] = [] := by simp [linesBefore, splitLines]
  rw [h.linesBefore_append (List.cons_ne_nil _ _), hone, List.append_nil]

/-- A newline behind a line in progress ends it. -/
theorem lines_append_newline {s : List α} (hlast : s.getLast? ≠ some newline) (hne : s ≠ []) :
    lines newline (s ++ [newline]) = lines newline s := by
  obtain ⟨front, last, rfl, hfront, hmem⟩ := exists_closed_append newline s
  have hopen : last ≠ [] := by
    rintro rfl
    rw [List.append_nil] at hlast hne
    obtain ⟨more, rfl⟩ := hfront.resolve_left hne
    exact hlast (by simp)
  rw [List.append_assoc, hfront.lines_append, hfront.lines_append, lines, lines,
    splitLines_line hmem, splitLines_of_notMem hmem, if_neg hopen]
  rfl

/-- At most one line is left out in front of a block. -/
theorem linesBefore_sublist (s : List α) :
    (linesBefore newline s).Sublist (splitLines newline s).1 := by
  rw [linesBefore]
  split
  · exact List.dropLast_sublist _
  · exact List.Sublist.refl _

/-- The lines that end are among the lines. -/
theorem splitLines_sublist_lines (s : List α) :
    (splitLines newline s).1.Sublist (lines newline s) :=
  List.sublist_append_left _ _

/-- An empty line ends at once. -/
theorem behindLine_newline (s : List α) : behindLine newline (newline :: s) = s := by
  simp [behindLine]

/-- Nothing is behind a line that does not end. -/
theorem behindLine_of_notMem {s : List α} (h : newline ∉ s) : behindLine newline s = [] := by
  have hall : s.dropWhile (· ≠ newline) = [] :=
    List.dropWhile_eq_nil_iff.mpr fun c hc => decide_eq_true fun heq => h (heq ▸ hc)
  rw [behindLine, hall]
  rfl

/-- What is in front of the line in progress does not matter when no newline is there. -/
theorem behindLine_append {s : List α} (h : newline ∉ s) (t : List α) :
    behindLine newline (s ++ t) = behindLine newline t := by
  have hpass : ∀ c ∈ s, decide (c ≠ newline) = true :=
    fun c hc => decide_eq_true fun heq => h (heq ▸ hc)
  rw [behindLine, List.dropWhile_append_of_pos hpass]
  rfl

/-- Either the line in progress does not end, or it ends in front of the rest. -/
theorem behindLine_cases (s : List α) : behindLine newline s = [] ∨
    ∃ front, Closed newline front ∧ s = front ++ behindLine newline s := by
  by_cases h : newline ∈ s
  · obtain ⟨front, rest, rfl, hfront⟩ := List.eq_append_cons_of_mem h
    rw [behindLine_append hfront, behindLine_newline]
    exact .inr ⟨front ++ [newline], .inr (List.suffix_append _ _), by simp⟩
  · exact .inl (behindLine_of_notMem h)

/-- The lines behind the line in progress are among the lines. -/
theorem lines_behindLine (s : List α) :
    (lines newline (behindLine newline s)).Sublist (lines newline s) := by
  obtain hnil | ⟨front, hfront, hs⟩ := @behindLine_cases _ _ newline s
  · rw [hnil]
    exact List.nil_sublist _
  · conv_rhs => rw [hs, hfront.lines_append]
    exact List.sublist_append_right _ _

/-- They are so with more text in front. -/
theorem lines_behindLine_append (s t : List α) :
    (lines newline (behindLine newline t)).Sublist (lines newline (s ++ t)) := by
  obtain ⟨front, last, rfl, hfront, hlast⟩ := exists_closed_append newline s
  rw [List.append_assoc, hfront.lines_append, ← behindLine_append hlast]
  exact (lines_behindLine _).trans (List.sublist_append_right _ _)

/-- A line that ends does so whatever follows. -/
theorem behindLine_append_of_mem {s : List α} (h : newline ∈ s) (t : List α) :
    behindLine newline (s ++ t) = behindLine newline s ++ t := by
  obtain ⟨front, rest, rfl, hfront⟩ := List.eq_append_cons_of_mem h
  rw [List.append_assoc, List.cons_append, behindLine_append hfront, behindLine_append hfront,
    behindLine_newline, behindLine_newline]

/-- With more text in front, no fewer lines are behind the line in progress. -/
theorem behindLine_lines_append (s t : List α) : (lines newline (behindLine newline t)).Sublist
    (lines newline (behindLine newline (s ++ t))) := by
  by_cases h : newline ∈ s
  · rw [behindLine_append_of_mem h]
    exact lines_behindLine_append _ _
  · rw [behindLine_append h]

/-- The lines in front of a block and behind the line in progress are in front of the block.
-/
theorem linesBefore_behindLine (s : List α) :
    (linesBefore newline (behindLine newline s)).Sublist (linesBefore newline s) := by
  obtain hnil | ⟨front, hfront, hs⟩ := @behindLine_cases _ _ newline s
  · rw [hnil]
    exact List.nil_sublist _
  · by_cases hempty : behindLine newline s = []
    · rw [hempty]
      exact List.nil_sublist _
    · conv_rhs => rw [hs, hfront.linesBefore_append hempty]
      exact List.sublist_append_right _ _

/-- What is behind the line in progress is no more than what is behind a newline. -/
theorem sublist_dropFirst {f : List α → List (List α)}
    (h : ∀ s, (f (behindLine newline s)).Sublist (f s)) (s : List α) :
    (f (behindLine newline s)).Sublist (f (dropFirst newline s)) := by
  cases s with
  | nil => exact List.Sublist.refl _
  | cons c s =>
    rw [dropFirst]
    split
    · next hc =>
      rw [hc, behindLine_newline]
    · exact h (c :: s)

/-- The line that a newline ends stays without it. -/
theorem linesBefore_sublist_dropLast (s : List α) :
    (linesBefore newline s).Sublist (lines newline (dropLast newline s)) := by
  rw [dropLast]
  split
  · next hlast =>
    obtain ⟨front, last, hs, hfront, hmem⟩ := exists_closed_append newline s.dropLast
    have hwhole : s = front ++ (last ++ [newline]) := by
      rw [← List.append_assoc, ← hs, List.dropLast_append_getLast? _ hlast]
    rw [hs, hfront.lines_append]
    conv_lhs => rw [hwhole, hfront.linesBefore_append (by simp)]
    refine List.Sublist.append_left ?_ _
    cases last with
    | nil => simp [linesBefore, splitLines]
    | cons c last =>
      have hline : (splitLines newline (c :: last ++ [newline])).1 = [c :: last] := by
        rw [splitLines_line hmem]
      have hopen : lines newline (c :: last) = [c :: last] := by
        rw [lines, splitLines_of_notMem hmem]
        rfl
      rw [hopen, ← hline]
      exact linesBefore_sublist _
  · exact (linesBefore_sublist s).trans (splitLines_sublist_lines s)

end Teleprompter.TextLines
