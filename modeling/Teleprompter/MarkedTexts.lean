import Mathlib.Data.List.Induction
import Teleprompter.TextLines

/-!
# Texts with marked blocks

A block of a text begins with a start marker and ends with a stop marker, and no
marker is between the two. The markers begin with an element that is nowhere else
in them, so they do not overlap. The lines that the blocks of a text leave are
read off the pieces between them.
-/

namespace Teleprompter.MarkedTexts

open TextLines

variable {α : Type}

section Needles

variable {head : α} {tail : List α}

/-- A needle whose first element is nowhere else in it overlaps no place of itself. -/
theorem not_begins_of_not_found (h : head ∉ tail) {c : α} {front rest : List α}
    (hfront : ¬ head :: tail <:+: c :: front) :
    ¬ head :: tail <+: c :: front ++ (head :: tail ++ rest) := by
  rintro ⟨behind, heq⟩
  obtain ⟨w, hw, -⟩ | ⟨w, hw, hbehind⟩ := List.append_eq_append_iff.mp heq
  · exact hfront ⟨[], w, hw.symm⟩
  · cases w with
    | nil => exact hfront ⟨[], [], by rw [List.nil_append, List.append_nil, hw, List.append_nil]⟩
    | cons d w =>
      obtain ⟨rfl, -⟩ := List.cons.inj hbehind
      rw [List.cons_append] at hw
      have hmem : head ∈ front ++ head :: w := List.mem_append_right _ List.mem_cons_self
      exact h ((List.cons.inj hw).2 ▸ hmem)

/-- Behind any place is no more than behind the first one. -/
theorem suffix_of_first (h : head ∉ tail) {front rest before behind : List α}
    (hfront : ¬ head :: tail <:+: front)
    (heq : front ++ (head :: tail ++ rest) = before ++ (head :: tail ++ behind)) :
    behind <:+ rest := by
  obtain ⟨w, -, hw⟩ | ⟨w, hw, hrest⟩ := List.append_eq_append_iff.mp heq
  · have hlen := congrArg List.length hw
    simp only [List.length_append] at hlen
    have hbehind : behind <:+ head :: tail ++ rest := by
      rw [hw]
      exact (List.suffix_append _ _).trans (List.suffix_append _ _)
    exact List.suffix_of_suffix_length_le hbehind (List.suffix_append _ _) (by omega)
  · cases w with
    | nil => rw [List.append_cancel_left hrest]
    | cons c w =>
      have hnot : ¬ head :: tail <:+: c :: w := fun hin =>
        hfront (hin.trans (hw ▸ (List.suffix_append before (c :: w)).isInfix))
      exact absurd ⟨behind, hrest⟩ (not_begins_of_not_found h hnot)

/-- Another needle with the same first element is not found across this one. -/
theorem infix_append_other {other front rest : List α} (h : head ∉ tail) (hother : head ∉ other)
    (hnot : ¬ other <+: tail) (hnot' : ¬ tail <+: other) :
    head :: other <:+: front ++ (head :: tail ++ rest) →
      head :: other <:+: front ∨ head :: other <:+: rest := by
  intro hin
  obtain hin | hin | ⟨w, v, hw, hv, heq, -, hbegins⟩ := List.infix_append_iff_ne_nil.mp hin
  · exact .inl hin
  · obtain hin | hin | ⟨w, v, hw, -, heq, hsuffix, -⟩ := List.infix_append_iff_ne_nil.mp hin
    · obtain hp | hi := List.infix_cons_iff.mp hin
      · exact absurd (List.cons_prefix_cons.mp hp).2 hnot
      · exact absurd (hi.subset List.mem_cons_self) h
    · exact .inr hin
    · obtain ⟨d, w, rfl⟩ := List.exists_cons_of_ne_nil hw
      obtain ⟨rfl, rfl⟩ := List.cons.inj heq
      obtain hsame | hlater := List.suffix_cons_iff.mp hsuffix
      · obtain rfl := (List.cons.inj hsame).2
        exact absurd (List.prefix_append w v) hnot'
      · exact absurd (hlater.subset List.mem_cons_self) h
  · obtain ⟨d, v, rfl⟩ := List.exists_cons_of_ne_nil hv
    obtain ⟨e, w, rfl⟩ := List.exists_cons_of_ne_nil hw
    obtain ⟨rfl, rfl⟩ := List.cons.inj heq
    obtain ⟨rfl, -⟩ := List.cons_prefix_cons.mp hbegins
    exact absurd (List.mem_append_right w List.mem_cons_self) hother

variable [DecidableEq α]

/-- What is before and behind the first place of a text that has the needle. -/
def findFirst (needle : List α) : List α → Option (List α × List α)
  | [] => none
  | c :: s =>
    if needle <+: c :: s then some ([], (c :: s).drop needle.length)
    else (findFirst needle s).map fun parts => (c :: parts.1, parts.2)

/-- What is before the last place of a text that has the needle. -/
def beforeLast (needle : List α) : List α → Option (List α)
  | [] => none
  | c :: s =>
    match beforeLast needle s with
    | some front => some (c :: front)
    | none => if needle <+: c :: s then some [] else none

theorem findFirst_of_append (h : head ∉ tail) {front : List α} (rest : List α)
    (hfront : ¬ head :: tail <:+: front) :
    findFirst (head :: tail) (front ++ (head :: tail ++ rest)) = some (front, rest) := by
  induction front with
  | nil =>
    rw [List.nil_append, List.cons_append, findFirst, if_pos ⟨rest, rfl⟩, List.length_cons,
      List.drop_succ_cons, List.drop_left]
  | cons c front ih =>
    have hnot : ¬ head :: tail <+: c :: (front ++ (head :: tail ++ rest)) :=
      not_begins_of_not_found h hfront
    rw [List.cons_append, findFirst, if_neg hnot, ih fun hinside => hfront (List.infix_cons hinside)]
    rfl

/-- The first place is found, with no other place in front of it. -/
theorem findFirst_eq_some {needle s front rest : List α}
    (h : findFirst needle s = some (front, rest)) :
    s = front ++ (needle ++ rest) ∧ (needle ≠ [] → ¬ needle <:+: front) := by
  induction s generalizing front with
  | nil => cases h
  | cons c s ih =>
    rw [findFirst] at h
    split at h
    · next hbegins =>
      obtain ⟨behind, heq⟩ := hbegins
      obtain ⟨rfl, rfl⟩ := Prod.mk.inj (Option.some.inj h)
      rw [← heq, List.drop_left]
      exact ⟨rfl, fun hne hinside => hne (List.infix_nil.mp hinside)⟩
    · next hbegins =>
      obtain ⟨parts, hparts, heq⟩ := Option.map_eq_some_iff.mp h
      obtain ⟨rfl, rfl⟩ := Prod.mk.inj heq
      obtain ⟨rfl, hnone⟩ := ih hparts
      refine ⟨rfl, fun hne hinside => ?_⟩
      obtain hp | hi := List.infix_cons_iff.mp hinside
      · exact hbegins (hp.trans (List.prefix_append _ _))
      · exact hnone hne hi

theorem findFirst_eq_none {needle s : List α} (hne : needle ≠ []) :
    findFirst needle s = none ↔ ¬ needle <:+: s := by
  induction s with
  | nil => simp [findFirst, hne]
  | cons c s ih =>
    rw [findFirst, List.infix_cons_iff, not_or, ← ih]
    split
    · next hbegins => simp [hbegins]
    · next hbegins => simp [hbegins]

theorem beforeLast_eq_none {needle s : List α} (h : ¬ needle <:+: s) :
    beforeLast needle s = none := by
  induction s with
  | nil => rfl
  | cons c s ih =>
    obtain ⟨hbegins, hinside⟩ := not_or.mp (List.infix_cons_iff.not.mp h)
    rw [beforeLast, ih hinside, if_neg hbegins]

theorem beforeLast_of_append (h : head ∉ tail) (front : List α) {rest : List α}
    (hrest : ¬ head :: tail <:+: rest) :
    beforeLast (head :: tail) (front ++ (head :: tail ++ rest)) = some front := by
  induction front with
  | nil =>
    have hnone : ¬ head :: tail <:+: tail ++ rest := by
      rw [List.infix_append_iff_ne_nil]
      rintro (hin | hin | ⟨w, v, hw, -, heq, hsuffix, -⟩)
      · exact h (hin.subset List.mem_cons_self)
      · exact hrest hin
      · obtain ⟨d, w, rfl⟩ := List.exists_cons_of_ne_nil hw
        obtain ⟨rfl, -⟩ := List.cons.inj heq
        exact h (hsuffix.subset List.mem_cons_self)
    rw [List.nil_append, List.cons_append, beforeLast, beforeLast_eq_none hnone,
      if_pos ⟨rest, rfl⟩]
  | cons c front ih => rw [List.cons_append, beforeLast, ih]

theorem exists_last {needle s : List α} (hne : needle ≠ []) (h : needle <:+: s) :
    ∃ front rest, s = front ++ (needle ++ rest) ∧ ¬ needle <:+: rest := by
  induction s with
  | nil => exact absurd (List.infix_nil.mp h) hne
  | cons c s ih =>
    by_cases hs : needle <:+: s
    · obtain ⟨front, rest, rfl, hrest⟩ := ih hs
      exact ⟨c :: front, rest, rfl, hrest⟩
    · obtain ⟨rest, heq⟩ := (List.infix_cons_iff.mp h).resolve_right hs
      cases needle with
      | nil => exact absurd rfl hne
      | cons d needle =>
        obtain ⟨rfl, rfl⟩ := List.cons.inj heq
        exact ⟨[], rest, rfl, fun hin => hs (hin.trans (List.suffix_append _ _).isInfix)⟩

end Needles

section Blocks

/-- The two markers of blocks in texts with lines. -/
structure Markers (α : Type) where
  newline : α
  head : α
  startTail : List α
  stopTail : List α
  head_notMem_startTail : head ∉ startTail
  head_notMem_stopTail : head ∉ stopTail
  newline_notMem_start : newline ∉ head :: startTail
  newline_notMem_stop : newline ∉ head :: stopTail
  startTail_not_begins : ¬ startTail <+: stopTail
  stopTail_not_begins : ¬ stopTail <+: startTail

namespace Markers

def start (k : Markers α) : List α := k.head :: k.startTail

def stop (k : Markers α) : List α := k.head :: k.stopTail

/-- A stop marker is behind some start marker. -/
def HasBlock (k : Markers α) (s : List α) : Prop :=
  ∃ front rest, s = front ++ (k.start ++ rest) ∧ k.stop <:+: rest

variable {k : Markers α}

theorem start_ne_nil : k.start ≠ [] := List.cons_ne_nil _ _

theorem stop_ne_nil : k.stop ≠ [] := List.cons_ne_nil _ _

theorem not_hasBlock_of_start {s : List α} (h : ¬ k.start <:+: s) : ¬ k.HasBlock s := by
  rintro ⟨front, rest, rfl, -⟩
  exact h ⟨front, rest, by rw [List.append_assoc]⟩

theorem HasBlock.append_left {s : List α} (h : k.HasBlock s) (front : List α) :
    k.HasBlock (front ++ s) := by
  obtain ⟨before, rest, rfl, hstop⟩ := h
  exact ⟨front ++ before, rest, by rw [List.append_assoc], hstop⟩

/-- A stop marker is not found across a start marker. -/
theorem stop_not_infix_append {front rest : List α} (hfront : ¬ k.stop <:+: front)
    (hrest : ¬ k.stop <:+: rest) : ¬ k.stop <:+: front ++ (k.start ++ rest) := fun h =>
  (infix_append_other k.head_notMem_startTail k.head_notMem_stopTail k.stopTail_not_begins
    k.startTail_not_begins h).elim hfront hrest

variable [DecidableEq α]

/-- What is before and behind the first block: the first stop marker behind a start
marker ends it, and the last start marker before that begins it. -/
def nextBlock (k : Markers α) (s : List α) : Option (List α × List α) :=
  (findFirst k.start s).bind fun first =>
    (findFirst k.stop first.2).bind fun parts =>
      (beforeLast k.start (first.1 ++ (k.start ++ parts.1))).map fun front => (front, parts.2)

/-- The pieces between the blocks, with a bound on their number. -/
def piecesFrom (k : Markers α) : ℕ → List α → List (List α)
  | 0, s => [s]
  | n + 1, s =>
    match k.nextBlock s with
    | some (front, rest) => front :: piecesFrom k n rest
    | none => [s]

/-- The text before, between and behind the blocks. -/
def pieces (k : Markers α) (s : List α) : List (List α) := k.piecesFrom s.length s

/-- How many blocks a text has. -/
def blockCount (k : Markers α) (s : List α) : ℕ := (k.pieces s).length - 1

theorem nextBlock_of_not_hasBlock {s : List α} (h : ¬ k.HasBlock s) : k.nextBlock s = none := by
  rw [nextBlock]
  cases hstart : findFirst k.start s with
  | none => rfl
  | some first =>
    obtain ⟨front, rest⟩ := first
    have hstop : findFirst k.stop rest = none := (findFirst_eq_none stop_ne_nil).mpr
      fun hstop => h ⟨front, rest, (findFirst_eq_some hstart).1, hstop⟩
    rw [Option.bind_some, hstop]
    rfl

/-- The block behind a text without one is the first one. -/
theorem nextBlock_of_append {front middle : List α} (hfront : ¬ k.HasBlock front)
    (hstart : ¬ k.start <:+: middle) (hstop : ¬ k.stop <:+: middle) (rest : List α) :
    k.nextBlock (front ++ (k.start ++ (middle ++ (k.stop ++ rest)))) = some (front, rest) := by
  have hlast : beforeLast k.start (front ++ (k.start ++ middle)) = some front :=
    beforeLast_of_append k.head_notMem_startTail front hstart
  rw [nextBlock]
  by_cases hin : k.start <:+: front
  · obtain ⟨parts, hparts⟩ : ∃ parts, findFirst k.start front = some parts :=
      Option.ne_none_iff_exists'.mp fun hnone => (findFirst_eq_none start_ne_nil).mp hnone hin
    obtain ⟨before, behind⟩ := parts
    obtain ⟨rfl, hbefore⟩ := findFirst_eq_some hparts
    have hbehind : ¬ k.stop <:+: behind := fun h => hfront ⟨before, behind, rfl, h⟩
    have hfirst : findFirst k.start ((before ++ (k.start ++ behind)) ++
        (k.start ++ (middle ++ (k.stop ++ rest)))) =
          some (before, (behind ++ (k.start ++ middle)) ++ (k.stop ++ rest)) := by
      rw [List.append_assoc, List.append_assoc, List.append_assoc, List.append_assoc]
      exact findFirst_of_append k.head_notMem_startTail _ (hbefore start_ne_nil)
    have hsecond : findFirst k.stop ((behind ++ (k.start ++ middle)) ++ (k.stop ++ rest)) =
        some (behind ++ (k.start ++ middle), rest) :=
      findFirst_of_append k.head_notMem_stopTail _ (stop_not_infix_append hbehind hstop)
    rw [hfirst, Option.bind_some, hsecond, Option.bind_some]
    dsimp only
    rw [List.append_assoc, List.append_assoc] at hlast
    rw [hlast]
    rfl
  · have hfirst : findFirst k.start (front ++ (k.start ++ (middle ++ (k.stop ++ rest)))) =
        some (front, middle ++ (k.stop ++ rest)) :=
      findFirst_of_append k.head_notMem_startTail _ hin
    have hsecond : findFirst k.stop (middle ++ (k.stop ++ rest)) = some (middle, rest) :=
      findFirst_of_append k.head_notMem_stopTail _ hstop
    rw [hfirst, Option.bind_some, hsecond, Option.bind_some, hlast]
    rfl

/-- Where a start marker has a stop marker behind it, so has the first start marker. -/
theorem exists_firstPair {s : List α} (h : k.HasBlock s) : ∃ front middle rest,
    s = front ++ (k.start ++ (middle ++ (k.stop ++ rest))) ∧ ¬ k.start <:+: front ∧
      ¬ k.stop <:+: middle := by
  obtain ⟨before, behind, hs, hstop⟩ := h
  have hin : k.start <:+: s := ⟨before, behind, by rw [hs, List.append_assoc]⟩
  obtain ⟨⟨front, rest⟩, hfirst⟩ : ∃ first, findFirst k.start s = some first :=
    Option.ne_none_iff_exists'.mp fun hnone => (findFirst_eq_none start_ne_nil).mp hnone hin
  obtain ⟨hsfirst, hfront⟩ := findFirst_eq_some hfirst
  have hrest : k.stop <:+: rest := hstop.trans (suffix_of_first k.head_notMem_startTail
    (hfront start_ne_nil) (hsfirst.symm.trans hs)).isInfix
  obtain ⟨⟨middle, rest⟩, hparts⟩ : ∃ parts, findFirst k.stop rest = some parts :=
    Option.ne_none_iff_exists'.mp fun hnone => (findFirst_eq_none stop_ne_nil).mp hnone hrest
  obtain ⟨rfl, hmiddle⟩ := findFirst_eq_some hparts
  exact ⟨front, middle, rest, hsfirst, hfront start_ne_nil, hmiddle stop_ne_nil⟩

/-- Where a start marker has a stop marker behind it there is a first block, which the
last start marker before the stop marker begins. -/
theorem exists_nextBlock {s : List α} (h : k.HasBlock s) : ∃ front middle rest,
    s = front ++ (k.start ++ (middle ++ (k.stop ++ rest))) ∧ ¬ k.start <:+: middle ∧
      ¬ k.stop <:+: middle ∧ k.nextBlock s = some (front, rest) := by
  obtain ⟨front, middle, rest, rfl, hfront, hmiddle⟩ := exists_firstPair h
  by_cases hstart : k.start <:+: middle
  · obtain ⟨outer, inner, rfl, hinner⟩ := exists_last start_ne_nil hstart
    have hshape : (front ++ (k.start ++ outer)) ++ (k.start ++ (inner ++ (k.stop ++ rest))) =
        front ++ (k.start ++ ((outer ++ (k.start ++ inner)) ++ (k.stop ++ rest))) := by
      simp only [List.append_assoc]
    have hfirst : findFirst k.start (front ++ (k.start ++
        ((outer ++ (k.start ++ inner)) ++ (k.stop ++ rest)))) =
          some (front, (outer ++ (k.start ++ inner)) ++ (k.stop ++ rest)) :=
      findFirst_of_append k.head_notMem_startTail _ hfront
    have hparts : findFirst k.stop ((outer ++ (k.start ++ inner)) ++ (k.stop ++ rest)) =
        some (outer ++ (k.start ++ inner), rest) :=
      findFirst_of_append k.head_notMem_stopTail _ hmiddle
    have hblock : ¬ k.stop <:+: inner := fun hin => hmiddle (hin.trans
      ((List.suffix_append _ _).trans (List.suffix_append _ _)).isInfix)
    have hlast : beforeLast k.start (front ++ (k.start ++ (outer ++ (k.start ++ inner)))) =
        some (front ++ (k.start ++ outer)) := by
      have h := beforeLast_of_append k.head_notMem_startTail (front ++ (k.start ++ outer)) hinner
      rw [List.append_assoc, List.append_assoc] at h
      exact h
    refine ⟨front ++ (k.start ++ outer), inner, rest, hshape.symm, hinner, hblock, ?_⟩
    rw [nextBlock, hfirst, Option.bind_some, hparts, Option.bind_some, hlast]
    rfl
  · exact ⟨front, middle, rest, rfl, hstart, hmiddle,
      nextBlock_of_append (not_hasBlock_of_start hfront) hstart hmiddle rest⟩

theorem length_of_nextBlock {s front rest : List α} (h : k.nextBlock s = some (front, rest)) :
    rest.length < s.length := by
  by_cases hblock : k.HasBlock s
  · obtain ⟨front', middle, rest', rfl, -, -, hnext⟩ := exists_nextBlock hblock
    obtain ⟨rfl, rfl⟩ := Prod.mk.inj (Option.some.inj (h.symm.trans hnext))
    simp only [List.length_append, start, List.length_cons]
    omega
  · rw [nextBlock_of_not_hasBlock hblock] at h
    cases h

theorem piecesFrom_fuel {n m : ℕ} {s : List α} (hn : s.length ≤ n) (hm : s.length ≤ m) :
    k.piecesFrom n s = k.piecesFrom m s := by
  have hempty (n : ℕ) : k.piecesFrom n [] = [[]] := by cases n <;> rfl
  induction n generalizing m s with
  | zero => rw [List.length_eq_zero_iff.mp (Nat.le_zero.mp hn), hempty, hempty]
  | succ n ih =>
    cases m with
    | zero => rw [List.length_eq_zero_iff.mp (Nat.le_zero.mp hm), hempty, hempty]
    | succ m =>
      rw [piecesFrom, piecesFrom]
      cases hnext : k.nextBlock s with
      | none => rfl
      | some parts =>
        obtain ⟨front, rest⟩ := parts
        have hlen := length_of_nextBlock hnext
        exact congrArg (front :: ·) (ih (by omega) (by omega))

theorem pieces_of_nextBlock {s front rest : List α} (h : k.nextBlock s = some (front, rest)) :
    k.pieces s = front :: k.pieces rest := by
  have hlen := length_of_nextBlock h
  rw [pieces, piecesFrom_fuel (le_refl _) (Nat.le_succ s.length), piecesFrom, h]
  exact congrArg (front :: ·) (piecesFrom_fuel (by omega) (le_refl _))

theorem pieces_of_not_hasBlock {s : List α} (h : ¬ k.HasBlock s) : k.pieces s = [s] := by
  rw [pieces, piecesFrom_fuel (le_refl _) (Nat.le_succ s.length), piecesFrom,
    nextBlock_of_not_hasBlock h]

/-- The pieces of a text with a block in front. -/
theorem pieces_of_append {front middle : List α} (hfront : ¬ k.HasBlock front)
    (hstart : ¬ k.start <:+: middle) (hstop : ¬ k.stop <:+: middle) (rest : List α) :
    k.pieces (front ++ (k.start ++ (middle ++ (k.stop ++ rest)))) = front :: k.pieces rest :=
  pieces_of_nextBlock (nextBlock_of_append hfront hstart hstop rest)

theorem pieces_cases (k : Markers α) (s : List α) : (¬ k.HasBlock s ∧ k.pieces s = [s]) ∨
    ∃ front middle rest, s = front ++ (k.start ++ (middle ++ (k.stop ++ rest))) ∧
      ¬ k.start <:+: middle ∧ ¬ k.stop <:+: middle ∧ k.pieces s = front :: k.pieces rest := by
  by_cases h : k.HasBlock s
  · obtain ⟨front, middle, rest, hs, hstart, hstop, hnext⟩ := exists_nextBlock h
    exact .inr ⟨front, middle, rest, hs, hstart, hstop, pieces_of_nextBlock hnext⟩
  · exact .inl ⟨h, pieces_of_not_hasBlock h⟩

theorem exists_pieces (k : Markers α) (s : List α) : ∃ piece more, k.pieces s = piece :: more := by
  obtain ⟨-, hpieces⟩ | ⟨front, -, rest, -, -, -, hpieces⟩ := pieces_cases k s
  · exact ⟨s, [], hpieces⟩
  · exact ⟨front, k.pieces rest, hpieces⟩

/-- A piece without the line in progress at its front, if there is one. -/
def view (newline : α) (fresh : Bool) (piece : List α) : List α :=
  if fresh = true then piece else behindLine newline piece

/-- The lines of pieces that no block takes part in. The empty line directly in front of a
block is taken for a part of it. -/
def outsideFrom (newline : α) : Bool → List (List α) → List (List α)
  | _, [] => []
  | fresh, [piece] => lines newline (view newline fresh piece)
  | fresh, piece :: next :: more =>
    linesBefore newline (view newline fresh piece) ++ outsideFrom newline false (next :: more)

/-- The lines of a text outside of its blocks. -/
def outside (k : Markers α) (s : List α) : List (List α) :=
  outsideFrom k.newline true (k.pieces s)

theorem outside_of_not_hasBlock {s : List α} (h : ¬ k.HasBlock s) :
    k.outside s = lines k.newline s := by
  rw [outside, pieces_of_not_hasBlock h]
  rfl

/-- The lines of a piece and those behind a block are lines of the text. -/
theorem linesBefore_append_sublist (fresh : Bool) (front middle rest : List α) :
    (linesBefore k.newline (view k.newline fresh front) ++
      lines k.newline (behindLine k.newline rest)).Sublist
        (lines k.newline (view k.newline fresh (front ++ (middle ++ rest)))) := by
  have hbegun (front : List α) : (linesBefore k.newline front ++
      lines k.newline (behindLine k.newline rest)).Sublist
        (lines k.newline (front ++ (middle ++ rest))) := by
    obtain ⟨closed, last, rfl, hclosed, hlast⟩ := exists_closed_append k.newline front
    have hfront := @linesBefore_sublist _ _ k.newline (closed ++ last)
    rw [hclosed.splitLines_append, splitLines_of_notMem hlast, List.append_nil] at hfront
    rw [List.append_assoc, hclosed.lines_append]
    refine hfront.append ?_
    rw [← List.append_assoc]
    exact lines_behindLine_append _ _
  cases fresh with
  | true => exact hbegun front
  | false =>
    by_cases hmem : k.newline ∈ front
    · have hview : view k.newline false (front ++ (middle ++ rest)) =
          behindLine k.newline front ++ (middle ++ rest) := behindLine_append_of_mem hmem _
      rw [hview]
      exact hbegun _
    · have hview : view k.newline false (front ++ (middle ++ rest)) =
          behindLine k.newline (middle ++ rest) := behindLine_append hmem _
      have hnone : linesBefore k.newline (view k.newline false front) = [] := by
        rw [view, if_neg (by decide), behindLine_of_notMem hmem]
        rfl
      rw [hview, hnone]
      exact behindLine_lines_append _ _

theorem outsideFrom_pieces_sublist (fresh : Bool) (s : List α) :
    (outsideFrom k.newline fresh (k.pieces s)).Sublist
      (lines k.newline (view k.newline fresh s)) := by
  induction hn : s.length using Nat.strong_induction_on generalizing fresh s with
  | _ n ih =>
    subst hn
    obtain ⟨-, hpieces⟩ | ⟨front, middle, rest, rfl, -, -, hpieces⟩ := pieces_cases k s
    · rw [hpieces]
      exact List.Sublist.refl _
    · obtain ⟨next, more, hnext⟩ := exists_pieces k rest
      have hlen : rest.length < (front ++ (k.start ++ (middle ++ (k.stop ++ rest)))).length := by
        simp only [List.length_append, start, List.length_cons]
        omega
      have hrest := ih rest.length hlen false rest rfl
      have hshape : k.start ++ (middle ++ (k.stop ++ rest)) =
          (k.start ++ (middle ++ k.stop)) ++ rest := by simp only [List.append_assoc]
      rw [hpieces, hnext, outsideFrom, ← hnext, hshape]
      exact (hrest.append_left _).trans (linesBefore_append_sublist fresh front _ rest)

theorem outside_sublist_lines (s : List α) : (k.outside s).Sublist (lines k.newline s) :=
  outsideFrom_pieces_sublist true s

end Markers

end Blocks

section Joints

namespace Markers

/-- A block begins the text or stands behind an empty line. -/
def SetOff (k : Markers α) (fresh : Bool) (before : List α) : Prop :=
  (fresh = true ∧ (before = [] ∨ before = [k.newline])) ∨ [k.newline, k.newline] <:+ before

/-- Nothing but a newline is behind the last block, and more than a newline is between it
and the one before. -/
def AtEnd (k : Markers α) (fresh : Bool) (before behind : List α) (final : Bool) : Prop :=
  final = true ∧ (behind = [] ∨ behind = [k.newline]) ∧
    (fresh = true ∨ before ≠ [] ∧ before ≠ [k.newline])

/-- The line of the start marker begins before it, that of the stop marker goes on behind it,
and what is there does not go on with a start marker that is begun before the block. -/
def WithinLine (k : Markers α) (before behind : List α) : Prop :=
  before ≠ [] ∧ ¬ [k.newline] <:+ before ∧ behind ≠ [] ∧ ¬ [k.newline] <+: behind ∧
    ∀ begun c rest, k.start = begun ++ c :: rest → begun ≠ [] → begun <:+ before →
      ¬ [c] <+: behind

/-- A block that can be taken out without its neighbours: no start marker is between it and
the block before. -/
def Joint (k : Markers α) (fresh : Bool) (before behind : List α) (final : Bool) : Prop :=
  ¬ k.start <:+: before ∧
    (k.SetOff fresh before ∨ k.AtEnd fresh before behind final ∨ k.WithinLine before behind)

def Joints (k : Markers α) : Bool → List (List α) → Prop
  | fresh, before :: behind :: more =>
    k.Joint fresh before behind more.isEmpty ∧ Joints k false (behind :: more)
  | _, _ => True

variable {k : Markers α}

theorem not_hasBlock_nil : ¬ k.HasBlock [] := by
  rintro ⟨front, rest, h, -⟩
  simp [start] at h

theorem suffix_append_cases {s front rest : List α} (h : s <:+ front ++ rest) :
    s <:+ rest ∨ ∃ early, s = early ++ rest ∧ early <:+ front := by
  obtain ⟨cut, heq⟩ := h
  obtain ⟨w, hfront, hs⟩ | ⟨w, -, hrest⟩ := List.append_eq_append_iff.mp heq
  · exact .inr ⟨w, hs, ⟨cut, hfront.symm⟩⟩
  · exact .inl ⟨w, hrest.symm⟩

/-- No suffix of a text that ends its line is the beginning of a start marker. -/
theorem not_begun_of_closed {before begun rest : List α} (h : Closed k.newline before)
    (hmarker : k.start = begun ++ rest) (hbegun : begun ≠ []) : ¬ begun <:+ before := by
  intro hsuffix
  have hne : before ≠ [] := fun hnil => hbegun (List.suffix_nil.mp (hnil ▸ hsuffix))
  have hlast := h.resolve_left hne
  have hmem : [k.newline] <:+ begun := List.suffix_of_suffix_length_le hlast hsuffix
    (List.length_pos_iff.mpr hbegun)
  refine k.newline_notMem_start ?_
  change k.newline ∈ k.start
  rw [hmarker]
  exact List.mem_append_left rest (hmem.subset List.mem_cons_self)

variable [DecidableEq α]

/-- What stays of the text before a block that is set off ends its line. -/
theorem SetOff.closed {fresh : Bool} {before : List α} (h : k.SetOff fresh before) :
    Closed k.newline (dropLast k.newline before) := by
  obtain ⟨-, rfl | rfl⟩ | ⟨front, rfl⟩ := h
  · exact .inl rfl
  · exact .inl (by simp [dropLast])
  · have hdrop : dropLast k.newline (front ++ [k.newline, k.newline]) = front ++ [k.newline] := by
      simp [dropLast]
    rw [hdrop]
    exact .inr (List.suffix_append _ _)

/-- Its lines are those before the block. -/
theorem SetOff.linesBefore_eq {fresh : Bool} {before : List α} (h : k.SetOff fresh before) :
    linesBefore k.newline before = (splitLines k.newline (dropLast k.newline before)).1 := by
  have hclosed := h.closed
  by_cases hlast : before.getLast? = some k.newline
  · have hbefore : dropLast k.newline before ++ [k.newline] = before := by
      rw [dropLast, if_pos hlast, List.dropLast_append_getLast? _ hlast]
    conv_lhs => rw [← hbefore]
    exact hclosed.linesBefore_newline
  · obtain ⟨-, rfl | rfl⟩ | ⟨front, rfl⟩ := h
    · rfl
    · exact absurd rfl hlast
    · exact absurd (by simp) hlast

theorem dropFirst_suffix (newline : α) (s : List α) : dropFirst newline s <:+ s := by
  cases s with
  | nil => exact List.suffix_rfl
  | cons c s =>
    rw [dropFirst]
    split
    · exact List.suffix_cons c s
    · exact List.suffix_rfl

theorem dropLast_begins (newline : α) (s : List α) : dropLast newline s <+: s := by
  rw [dropLast]
  split
  · exact List.dropLast_prefix s
  · exact List.prefix_rfl

theorem AtEnd.dropFirst_eq {fresh final : Bool} {before behind : List α}
    (h : k.AtEnd fresh before behind final) : dropFirst k.newline behind = [] := by
  obtain ⟨-, rfl | rfl, -⟩ := h
  · rfl
  · rw [dropFirst, if_pos rfl]

theorem WithinLine.dropLast_eq {before behind : List α} (h : k.WithinLine before behind) :
    dropLast k.newline before = before := by
  refine if_neg fun hlast => h.2.1 ?_
  exact ⟨before.dropLast, List.dropLast_append_getLast? _ hlast⟩

theorem WithinLine.dropFirst_eq {before behind : List α} (h : k.WithinLine before behind) :
    dropFirst k.newline behind = behind := by
  cases behind with
  | nil => rfl
  | cons c rest =>
    refine if_neg fun hc => h.2.2.2.1 ?_
    rw [hc]
    exact List.prefix_append [k.newline] rest

/-- A start marker that is begun before a block does not go on behind it. -/
theorem no_start_across {fresh final : Bool} {before behind begun goesOn : List α} {c : α}
    (h : k.SetOff fresh before ∨ k.AtEnd fresh before behind final ∨ k.WithinLine before behind)
    (hmarker : k.start = begun ++ c :: goesOn) (hbegun : begun ≠ [])
    (hsuffix : begun <:+ dropLast k.newline before) :
    ¬ [c] <+: dropFirst k.newline behind := by
  intro hbegins
  obtain h | h | h := h
  · exact not_begun_of_closed h.closed hmarker hbegun hsuffix
  · rw [h.dropFirst_eq] at hbegins
    exact absurd (List.prefix_nil.mp hbegins) (List.cons_ne_nil _ _)
  · rw [h.dropLast_eq] at hsuffix
    rw [h.dropFirst_eq] at hbegins
    exact h.2.2.2.2 begun c goesOn hmarker hbegun hsuffix hbegins

/-- Where a block is taken out, a start marker is found behind it only. -/
theorem Joint.front_of_start {fresh final : Bool} {before behind front rest : List α}
    (h : k.Joint fresh before behind final) (heq : dropLast k.newline before ++
      dropFirst k.newline behind = front ++ (k.start ++ rest)) :
    ∃ more, dropFirst k.newline behind = more ++ (k.start ++ rest) := by
  obtain ⟨hstart, hplace⟩ := h
  have hkept : ¬ k.start <:+: dropLast k.newline before := fun hin =>
    hstart (hin.trans (dropLast_begins _ _).isInfix)
  obtain ⟨more, -, hmore⟩ | ⟨begun, hbefore, hrest⟩ := List.append_eq_append_iff.mp heq
  · exact ⟨more, hmore⟩
  obtain ⟨more, hbegun, -⟩ | ⟨goesOn, hmarker, hbehind⟩ := List.append_eq_append_iff.mp hrest
  · exact absurd ⟨front, more, by rw [hbefore, hbegun, List.append_assoc]⟩ hkept
  by_cases hnothing : begun = []
  · subst hnothing
    rw [List.nil_append] at hmarker
    exact ⟨[], by rw [hbehind, hmarker, List.nil_append]⟩
  have hsuffix : begun <:+ dropLast k.newline before := ⟨front, hbefore.symm⟩
  cases goesOn with
  | nil =>
    rw [List.append_nil] at hmarker
    exact absurd (hmarker ▸ hsuffix.isInfix) hkept
  | cons c goesOn => 
    refine absurd ?_ (no_start_across hplace hmarker hnothing hsuffix)
    rw [hbehind]
    exact List.prefix_append [c] (goesOn ++ rest)

theorem Joint.not_found {fresh final : Bool} {before behind : List α}
    (h : k.Joint fresh before behind final) (hbehind : ¬ k.start <:+: behind) :
    ¬ k.start <:+: dropLast k.newline before ++ dropFirst k.newline behind := by
  rintro ⟨front, rest, heq⟩
  rw [List.append_assoc] at heq
  obtain ⟨more, hmore⟩ := h.front_of_start heq.symm
  have hin : k.start <:+: dropFirst k.newline behind :=
    ⟨more, rest, by rw [hmore, List.append_assoc]⟩
  exact hbehind (hin.trans (dropFirst_suffix _ _).isInfix)

theorem Joint.not_hasBlock {fresh final : Bool} {before behind : List α}
    (h : k.Joint fresh before behind final) (hbehind : ¬ k.HasBlock behind) :
    ¬ k.HasBlock (dropLast k.newline before ++ dropFirst k.newline behind) := by
  rintro ⟨front, rest, heq, hstop⟩
  obtain ⟨more, hmore⟩ := h.front_of_start heq
  have hblock : k.HasBlock (dropFirst k.newline behind) := ⟨more, rest, hmore, hstop⟩
  obtain ⟨cut, hcut⟩ := dropFirst_suffix k.newline behind
  exact hbehind (hcut ▸ hblock.append_left cut)

/-- Between two blocks there is more than a newline. -/
theorem Joint.dropFirst_ne_nil {final : Bool} {before behind : List α}
    (h : k.Joint false before behind final) : dropFirst k.newline before ≠ [] := by
  have hne : before ≠ [] ∧ before ≠ [k.newline] := by
    obtain hoff | hend | hline := h.2
    · obtain ⟨hfalse, -⟩ | ⟨front, rfl⟩ := hoff
      · cases hfalse
      · constructor
        · simp
        · intro heq
          have hlen := congrArg List.length heq
          simp at hlen
    · exact hend.2.2.resolve_left (by decide)
    · exact ⟨hline.1, fun heq => hline.2.1 (heq ▸ List.suffix_rfl)⟩
  cases before with
  | nil => exact absurd rfl hne.1
  | cons c before =>
    rw [dropFirst]
    split
    · next hc => exact fun hnil => hne.2 (by rw [hc, hnil])
    · exact List.cons_ne_nil _ _

/-- The next block stands as it did when this one is taken out. -/
theorem Joint.join {fresh final : Bool} {before behind next : List α}
    (h : k.Joint fresh before behind false) (hnext : k.Joint false behind next final) :
    k.Joint true (dropLast k.newline before ++ dropFirst k.newline behind) next final := by
  refine ⟨h.not_found hnext.1, ?_⟩
  have hne := hnext.dropFirst_ne_nil
  obtain hoff | hend | hwithin := hnext.2
  · refine .inl ?_
    obtain ⟨hfalse, -⟩ | ⟨front, rfl⟩ := hoff
    · cases hfalse
    cases front with
    | nil =>
      have hdrop : dropFirst k.newline [k.newline, k.newline] = [k.newline] := if_pos rfl
      rw [List.nil_append, hdrop]
      obtain hoff | hend | hline := h.2
      · obtain hnil | hlast := hoff.closed
        · rw [hnil]
          exact .inl ⟨rfl, .inr rfl⟩
        · obtain ⟨front, hfront⟩ := hlast
          rw [← hfront, List.append_assoc]
          exact .inr (List.suffix_append _ _)
      · cases hend.1
      · exact absurd (List.prefix_append [k.newline] [k.newline]) hline.2.2.2.1
    | cons c front =>
      refine .inr (List.IsSuffix.trans ?_ (List.suffix_append _ _))
      rw [List.cons_append, dropFirst]
      split
      · exact List.suffix_append _ _
      · exact (List.suffix_append front _).trans (List.suffix_cons c _)
  · exact .inr (.inl ⟨hend.1, hend.2.1, .inl rfl⟩)
  · obtain ⟨hbehind, hopen, hnextne, hnextopen, hmarker⟩ := hwithin
    refine .inr (.inr ⟨List.append_ne_nil_of_right_ne_nil _ hne, fun hlast => hopen ?_, hnextne,
      hnextopen, fun begun c rest hstart hbegun hsuffix => ?_⟩)
    · have hdrop : [k.newline] <:+ dropFirst k.newline behind :=
        List.suffix_of_suffix_length_le hlast (List.suffix_append _ _)
          (List.length_pos_iff.mpr hne)
      exact hdrop.trans (dropFirst_suffix _ _)
    · obtain hshort | ⟨early, hearly, hbefore⟩ := suffix_append_cases hsuffix
      · exact hmarker begun c rest hstart hbegun (hshort.trans (dropFirst_suffix _ _))
      · by_cases hnone : early = []
        · rw [hnone, List.nil_append] at hearly
          exact hmarker begun c rest hstart hbegun (hearly ▸ dropFirst_suffix _ _)
        · obtain ⟨d, more, hmore⟩ := List.exists_cons_of_ne_nil hne
          have hsplit : k.start = early ++ d :: (more ++ c :: rest) := by
            rw [hstart, hearly, hmore]
            simp
          exact absurd (hmore ▸ List.prefix_append [d] more)
            (no_start_across h.2 hsplit hnone hbefore)

/-- Taking a block out keeps the lines outside of the blocks. -/
theorem Joints.outsideFrom_sublist {before behind : List α} {more : List (List α)}
    (h : k.Joints true (before :: behind :: more)) :
    (outsideFrom k.newline true (before :: behind :: more)).Sublist
      (outsideFrom k.newline true
        ((dropLast k.newline before ++ dropFirst k.newline behind) :: more)) := by
  have hview : view k.newline false behind = behindLine k.newline behind := if_neg (by decide)
  have hfresh (s : List α) : view k.newline true s = s := if_pos rfl
  obtain ⟨hjoint, hmore⟩ := h
  cases more with
  | nil =>
    rw [outsideFrom, outsideFrom, outsideFrom, hview, hfresh, hfresh]
    obtain hoff | hend | hline := hjoint.2
    · rw [hoff.linesBefore_eq, hoff.closed.lines_append]
      exact (sublist_dropFirst lines_behindLine behind).append_left _
    · have hnone : behindLine k.newline behind = [] := by
        obtain rfl | rfl := hend.2.1
        · rfl
        · exact behindLine_newline []
      rw [hend.dropFirst_eq, hnone, List.append_nil]
      exact (List.append_nil _).symm ▸ linesBefore_sublist_dropLast before
    · rw [hline.dropLast_eq, hline.dropFirst_eq]
      exact (linesBefore_append_sublist true before [] behind)
  | cons next more =>
    have hne := hmore.1.dropFirst_ne_nil
    rw [outsideFrom, outsideFrom, outsideFrom, hview, hfresh, hfresh, ← List.append_assoc]
    refine List.Sublist.append_right ?_ _
    obtain hoff | hend | hline := hjoint.2
    · rw [hoff.linesBefore_eq, hoff.closed.linesBefore_append hne]
      exact (sublist_dropFirst linesBefore_behindLine behind).append_left _
    · cases hend.1
    · rw [hline.dropFirst_eq] at hne
      rw [hline.dropLast_eq, hline.dropFirst_eq]
      obtain ⟨closed, last, rfl, hclosed, hlast⟩ := exists_closed_append k.newline before
      have hfront := @linesBefore_sublist _ _ k.newline (closed ++ last)
      rw [hclosed.splitLines_append, splitLines_of_notMem hlast, List.append_nil] at hfront
      rw [List.append_assoc,
        hclosed.linesBefore_append (List.append_ne_nil_of_right_ne_nil last hne)]
      refine hfront.append ?_
      rw [← behindLine_append hlast]
      exact linesBefore_behindLine _

theorem dropFirst_append_start (s rest : List α) :
    dropFirst k.newline (s ++ (k.start ++ rest)) = dropFirst k.newline s ++ (k.start ++ rest) := by
  cases s with
  | nil =>
    have hhead : k.head ≠ k.newline := fun heq =>
      k.newline_notMem_start (heq.symm ▸ List.mem_cons_self)
    exact if_neg hhead
  | cons c s =>
    rw [List.cons_append, dropFirst, dropFirst]
    split <;> rfl

/-- The first block is found by its first start marker, and taking it out keeps the lines. -/
theorem Joints.take_out {s : List α} (h : k.Joints true (k.pieces s)) (hblock : k.HasBlock s) :
    ∃ front middle rest, s = front ++ (k.start ++ (middle ++ (k.stop ++ rest))) ∧
      ¬ k.start <:+: front ∧ ¬ k.stop <:+: middle ∧
      k.Joints true (k.pieces (dropLast k.newline front ++ dropFirst k.newline rest)) ∧
      (k.outside s).Sublist
        (k.outside (dropLast k.newline front ++ dropFirst k.newline rest)) := by
  obtain ⟨front, middle, rest, hs, -, hstop, hnext⟩ := exists_nextBlock hblock
  have hpieces := pieces_of_nextBlock hnext
  refine ⟨front, middle, rest, hs, ?_⟩
  rw [outside, hpieces]
  rw [hpieces] at h
  obtain ⟨hnone, hrest⟩ | ⟨behind, middle', rest', rfl, hstart', hstop', hrest⟩ :=
    pieces_cases k rest
  · rw [hrest] at h ⊢
    have hjoined := pieces_of_not_hasBlock (h.1.not_hasBlock hnone)
    rw [outside, hjoined]
    exact ⟨h.1.1, hstop, trivial, h.outsideFrom_sublist⟩
  · rw [hrest] at h ⊢
    obtain ⟨next, more, hmore⟩ := exists_pieces k rest'
    rw [hmore] at h
    have hfront := h.1.not_found h.2.1.1
    have hjoined : k.pieces (dropLast k.newline front ++
        dropFirst k.newline (behind ++ (k.start ++ (middle' ++ (k.stop ++ rest'))))) =
          (dropLast k.newline front ++ dropFirst k.newline behind) :: k.pieces rest' := by
      rw [dropFirst_append_start, ← List.append_assoc]
      exact pieces_of_append (not_hasBlock_of_start hfront) hstart' hstop' rest'
    rw [outside, hjoined, hmore]
    exact ⟨h.1.1, hstop, ⟨h.1.join h.2.1, h.2.2⟩, h.outsideFrom_sublist⟩

end Markers

end Joints

section Appended

namespace Markers

variable {k : Markers α}

/-- A newline behind a text completes no marker. -/
theorem infix_append_newline {needle s : List α} (hneedle : k.newline ∉ needle)
    (h : needle <:+: s ++ [k.newline]) : needle <:+: s := by
  rw [List.infix_concat_iff] at h
  obtain hsuffix | hin := h
  · cases needle using List.reverseRecOn with
    | nil => exact List.nil_infix
    | append_singleton needle c =>
      obtain ⟨front, heq⟩ := hsuffix
      rw [← List.append_assoc] at heq
      obtain rfl := (List.cons.inj (List.append_inj_right' heq rfl)).1
      exact absurd (List.mem_append_right needle List.mem_cons_self) hneedle
  · exact hin

theorem not_hasBlock_newline {s : List α} (h : ¬ k.HasBlock s) :
    ¬ k.HasBlock (s ++ [k.newline]) := by
  rintro ⟨front, rest, heq, hstop⟩
  cases rest using List.reverseRecOn with
  | nil => exact stop_ne_nil (List.infix_nil.mp hstop)
  | append_singleton rest c =>
    rw [← List.append_assoc, ← List.append_assoc] at heq
    obtain ⟨hs, hc⟩ := List.append_inj' heq rfl
    obtain rfl := (List.cons.inj hc).1
    exact h ⟨front, rest, by rw [hs, List.append_assoc],
      infix_append_newline k.newline_notMem_stop hstop⟩

variable [DecidableEq α]

/-- A block behind an empty line at the end of a text without one. -/
theorem pieces_appended {s line : List α} (h : ¬ k.HasBlock s) (hstart : ¬ k.start <:+: line)
    (hstop : ¬ k.stop <:+: line) :
    k.pieces (s ++ [k.newline] ++ (k.start ++ (line ++ (k.stop ++ [k.newline])))) =
      [s ++ [k.newline], [k.newline]] := by
  have hrest : ¬ k.HasBlock [k.newline] :=
    not_hasBlock_newline (s := []) not_hasBlock_nil
  rw [pieces_of_append (not_hasBlock_newline h) hstart hstop, pieces_of_not_hasBlock hrest]

/-- Its lines are not outside of the blocks, and the others are. -/
theorem outside_appended {s line : List α} (h : ¬ k.HasBlock s) (hclosed : Closed k.newline s)
    (hstart : ¬ k.start <:+: line) (hstop : ¬ k.stop <:+: line) :
    k.outside (s ++ [k.newline] ++ (k.start ++ (line ++ (k.stop ++ [k.newline])))) =
      lines k.newline s := by
  have hview : view k.newline false [k.newline] = [] := behindLine_newline []
  rw [outside, pieces_appended h hstart hstop, outsideFrom, outsideFrom, hview, hclosed.lines_eq]
  exact (List.append_nil _).trans hclosed.linesBefore_newline

end Markers

end Appended

end Teleprompter.MarkedTexts
