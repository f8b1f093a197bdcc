import Mathlib.Data.List.Basic
import Mathlib.Order.Nat

/-!
# Positions in a list that grows at its end

Elements are appended to a list and rewritten in place, never removed, so a
position that was noted stays valid. Two notes are kept here: all positions of
elements with a property, in order, and the position of the last element of a
kind, as long as that one has the property.
-/

namespace Teleprompter.ListPositions

variable {α : Type} {p q : α → Prop} {items : List α} {queue : List ℕ} {i : ℕ} {x y : α}

/-- The positions of the elements with a property, in order. -/
structure Positions (p : α → Prop) (items : List α) (queue : List ℕ) : Prop where
  sorted : queue.Pairwise (· < ·)
  mem_iff : ∀ i, i ∈ queue ↔ ∃ x, items[i]? = some x ∧ p x

/-- The last element of a kind is at a position and has a property. -/
def LastAt (q p : α → Prop) (items : List α) (i : ℕ) : Prop :=
  (∃ x, items[i]? = some x ∧ p x) ∧ ∀ j x, i < j → items[j]? = some x → ¬q x

section Appending

theorem getElem?_concat_iff : (items ++ [x])[i]? = some y ↔
    items[i]? = some y ∨ i = items.length ∧ x = y := by
  rcases lt_trichotomy i items.length with hlt | heq | hgt
  · rw [List.getElem?_append_left hlt, or_iff_left fun h => absurd h.1 hlt.ne]
  · rw [heq, List.getElem?_concat_length, List.getElem?_eq_none le_rfl, Option.some.injEq]
    exact ⟨fun h => .inr ⟨rfl, h⟩, fun h => (h.resolve_left (Option.some_ne_none y).symm).2⟩
  · have hout : (items ++ [x])[i]? = none := List.getElem?_eq_none (by
      rw [List.length_append, List.length_singleton]
      omega)
    rw [hout, List.getElem?_eq_none hgt.le]
    exact iff_of_false (Option.some_ne_none y).symm fun h =>
      h.elim (Option.some_ne_none y).symm fun h => hgt.ne' h.1

theorem positions_nil (p : α → Prop) : Positions p [] [] :=
  ⟨List.Pairwise.nil, fun _ => iff_of_false List.not_mem_nil fun ⟨x, hx, _⟩ =>
    (Option.some_ne_none x) (hx.symm.trans List.getElem?_nil)⟩

theorem Positions.lt_length (h : Positions p items queue) (hi : i ∈ queue) : i < items.length := by
  obtain ⟨x, hx, -⟩ := (h.mem_iff i).mp hi
  exact (List.getElem?_eq_some_iff.mp hx).1

/-- An element with the property adds its position. -/
theorem Positions.concat (h : Positions p items queue) (hx : p x) :
    Positions p (items ++ [x]) (queue ++ [items.length]) := by
  refine ⟨List.pairwise_append.mpr ⟨h.sorted, List.pairwise_singleton _ _, ?_⟩, fun i => ?_⟩
  · intro j hj k hk
    rw [List.mem_singleton.mp hk]
    exact h.lt_length hj
  · rw [List.mem_append, List.mem_singleton, h.mem_iff]
    constructor
    · rintro (⟨z, hz, hp⟩ | rfl)
      · exact ⟨z, getElem?_concat_iff.mpr (.inl hz), hp⟩
      · exact ⟨x, List.getElem?_concat_length, hx⟩
    · rintro ⟨z, hz, hp⟩
      exact (getElem?_concat_iff.mp hz).imp (fun hold => ⟨z, hold, hp⟩) And.left

/-- An element without it adds none. -/
theorem Positions.concat_of_not (h : Positions p items queue) (hx : ¬p x) :
    Positions p (items ++ [x]) queue := by
  refine ⟨h.sorted, fun i => (h.mem_iff i).trans ⟨?_, ?_⟩⟩
  · rintro ⟨z, hz, hp⟩
    exact ⟨z, getElem?_concat_iff.mpr (.inl hz), hp⟩
  · rintro ⟨z, hz, hp⟩
    rcases getElem?_concat_iff.mp hz with hold | ⟨-, rfl⟩
    · exact ⟨z, hold, hp⟩
    · exact absurd hp hx

/-- An element of the kind with the property is the last one. -/
theorem lastAt_concat_of_pos (hp : p x) (hsub : ∀ x, p x → q x) :
    LastAt q p (items ++ [x]) i ↔ i = items.length := by
  constructor
  · rintro ⟨⟨z, hz, -⟩, hlast⟩
    rcases getElem?_concat_iff.mp hz with hold | ⟨hi, -⟩
    · exact absurd (hsub x hp) (hlast items.length x (List.getElem?_eq_some_iff.mp hold).1
        List.getElem?_concat_length)
    · exact hi
  · rintro rfl
    refine ⟨⟨x, List.getElem?_concat_length, hp⟩, fun j z hj hz => ?_⟩
    rcases getElem?_concat_iff.mp hz with hold | ⟨rfl, -⟩
    · exact absurd (List.getElem?_eq_some_iff.mp hold).1 (Nat.not_lt.mpr hj.le)
    · exact absurd hj (lt_irrefl _)

/-- After an element of the kind without the property the last one does not have it. -/
theorem not_lastAt_concat (hq : q x) (hp : ¬p x) : ¬LastAt q p (items ++ [x]) i := by
  rintro ⟨⟨z, hz, hz'⟩, hlast⟩
  rcases getElem?_concat_iff.mp hz with hold | ⟨-, rfl⟩
  · exact hlast items.length x (List.getElem?_eq_some_iff.mp hold).1 List.getElem?_concat_length hq
  · exact hp hz'

/-- An element of another kind changes nothing. -/
theorem lastAt_concat_of_not (hq : ¬q x) (hsub : ∀ x, p x → q x) :
    LastAt q p (items ++ [x]) i ↔ LastAt q p items i := by
  constructor
  · rintro ⟨⟨z, hz, hp⟩, hlast⟩
    refine ⟨⟨z, ?_, hp⟩, fun j w hj hw => hlast j w hj (getElem?_concat_iff.mpr (.inl hw))⟩
    rcases getElem?_concat_iff.mp hz with hold | ⟨-, rfl⟩
    · exact hold
    · exact absurd (hsub _ hp) hq
  · rintro ⟨⟨z, hz, hp⟩, hlast⟩
    refine ⟨⟨z, getElem?_concat_iff.mpr (.inl hz), hp⟩, fun j w hj hw => ?_⟩
    rcases getElem?_concat_iff.mp hw with hold | ⟨-, rfl⟩
    · exact hlast j w hj hold
    · exact hq

end Appending

section Rewriting

theorem getElem?_set_iff {j : ℕ} (hx : items[i]? = some x) {z : α} :
    (items.set i y)[j]? = some z ↔ j = i ∧ y = z ∨ j ≠ i ∧ items[j]? = some z := by
  by_cases hji : j = i
  · rw [hji, List.getElem?_set_self (List.getElem?_eq_some_iff.mp hx).1, Option.some.injEq]
    exact ⟨fun h => .inl ⟨rfl, h⟩, fun h => (h.resolve_right fun h' => h'.1 rfl).2⟩
  · rw [List.getElem?_set_ne (Ne.symm hji)]
    exact ⟨fun h => .inr ⟨hji, h⟩, fun h => (h.resolve_left fun h' => hji h'.1).2⟩

/-- The first position goes when its element loses the property. -/
theorem Positions.set_head (h : Positions p items (i :: queue)) (hy : ¬p y) :
    Positions p (items.set i y) queue := by
  obtain ⟨hfirst, hsorted⟩ := List.pairwise_cons.mp h.sorted
  obtain ⟨x, hx, -⟩ := (h.mem_iff i).mp List.mem_cons_self
  refine ⟨hsorted, fun j => ?_⟩
  constructor
  · intro hj
    obtain ⟨z, hz, hp⟩ := (h.mem_iff j).mp (List.mem_cons_of_mem i hj)
    exact ⟨z, (getElem?_set_iff hx).mpr (.inr ⟨(hfirst j hj).ne', hz⟩), hp⟩
  · rintro ⟨z, hz, hp⟩
    rcases (getElem?_set_iff hx).mp hz with ⟨-, rfl⟩ | ⟨hne, hold⟩
    · exact absurd hp hy
    · exact (List.mem_cons.mp ((h.mem_iff j).mpr ⟨z, hold, hp⟩)).resolve_left hne

/-- Rewriting an element that neither had the property nor gets it changes nothing. -/
theorem Positions.set_of_not (h : Positions p items queue) (hx : items[i]? = some x) (hpx : ¬p x)
    (hpy : ¬p y) : Positions p (items.set i y) queue := by
  refine ⟨h.sorted, fun j => (h.mem_iff j).trans ⟨?_, ?_⟩⟩
  · rintro ⟨z, hz, hp⟩
    refine ⟨z, (getElem?_set_iff hx).mpr (.inr ⟨?_, hz⟩), hp⟩
    rintro rfl
    exact hpx (Option.some.inj (hx.symm.trans hz) ▸ hp)
  · rintro ⟨z, hz, hp⟩
    rcases (getElem?_set_iff hx).mp hz with ⟨-, rfl⟩ | ⟨-, hold⟩
    · exact absurd hp hpy
    · exact ⟨z, hold, hp⟩

/-- Rewriting the last element of the kind, so that it loses the property, leaves none. -/
theorem not_lastAt_set (h : LastAt q p items i) (hsub : ∀ x, p x → q x) (hq : q y) (hp : ¬p y)
    (j : ℕ) : ¬LastAt q p (items.set i y) j := by
  obtain ⟨⟨x, hx, -⟩, hlast⟩ := h
  rintro ⟨⟨z, hz, hpz⟩, hlast'⟩
  rcases (getElem?_set_iff hx).mp hz with ⟨-, rfl⟩ | ⟨hne, hold⟩
  · exact hp hpz
  · rcases lt_or_gt_of_ne hne with hlt | hgt
    · exact hlast' i y hlt ((getElem?_set_iff hx).mpr (.inl ⟨rfl, rfl⟩)) hq
    · exact hlast j z hgt hold (hsub z hpz)

/-- Rewriting an element of another kind changes nothing. -/
theorem lastAt_set_of_not {j : ℕ} (hx : items[i]? = some x) (hqx : ¬q x) (hqy : ¬q y)
    (hsub : ∀ x, p x → q x) : LastAt q p (items.set i y) j ↔ LastAt q p items j := by
  constructor
  · rintro ⟨⟨z, hz, hp⟩, hlast⟩
    rcases (getElem?_set_iff hx).mp hz with ⟨-, rfl⟩ | ⟨-, hold⟩
    · exact absurd (hsub _ hp) hqy
    · refine ⟨⟨z, hold, hp⟩, fun k w hk hw => ?_⟩
      by_cases hki : k = i
      · subst hki
        exact Option.some.inj (hx.symm.trans hw) ▸ hqx
      · exact hlast k w hk ((getElem?_set_iff hx).mpr (.inr ⟨hki, hw⟩))
  · rintro ⟨⟨z, hz, hp⟩, hlast⟩
    have hji : j ≠ i := by
      rintro rfl
      exact hqx (Option.some.inj (hx.symm.trans hz) ▸ hsub z hp)
    refine ⟨⟨z, (getElem?_set_iff hx).mpr (.inr ⟨hji, hz⟩), hp⟩, fun k w hk hw => ?_⟩
    rcases (getElem?_set_iff hx).mp hw with ⟨-, rfl⟩ | ⟨-, hold⟩
    · exact hqy
    · exact hlast k w hk hold

end Rewriting

end Teleprompter.ListPositions
