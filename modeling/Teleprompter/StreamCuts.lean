import Mathlib.Data.List.Basic

/-!
# Cutting items off the front of a stream

A cutter takes the first item off the units received so far, when they hold
a whole one. Units that come later never change what was cut off before.
Applied until nothing more can be cut, it splits every list of units into
items and a remainder, and this split does not depend on where the list was
interrupted.
-/

namespace Teleprompter.StreamCuts

variable {β γ : Type}

/-- A way of taking the first item off a list of units. -/
structure Cutter (β γ : Type) where
  /-- The first item and the units behind it, when a whole item is there. -/
  cut : List β → Option (γ × List β)
  /-- An item takes at least one unit. -/
  shrinks : ∀ {units item rest}, cut units = some (item, rest) → rest.length < units.length
  /-- What is cut off is a front part. -/
  within : ∀ {units item rest}, cut units = some (item, rest) → rest <:+ units
  /-- Later units come behind what is left. -/
  stable : ∀ {units item rest}, cut units = some (item, rest) → ∀ more,
    cut (units ++ more) = some (item, rest ++ more)
  /-- An item that ends before the later units was there without them. -/
  inside : ∀ {units more item rest}, cut (units ++ more) = some (item, rest ++ more) →
    cut units = some (item, rest)

namespace Cutter

variable (c : Cutter β γ)

/-- All items that the units hold, in order. -/
def items (units : List β) : List γ :=
  match h : c.cut units with
  | none => []
  | some (item, rest) =>
    have := c.shrinks h
    item :: items rest
termination_by units.length

/-- The units behind the last whole item. -/
def remainder (units : List β) : List β :=
  match h : c.cut units with
  | none => units
  | some (_, rest) =>
    have := c.shrinks h
    remainder rest
termination_by units.length

variable {c} {units rest : List β} {item : γ}

theorem items_of_none (h : c.cut units = none) : c.items units = [] := by
  rw [items]
  split
  · rfl
  · rename_i hsome
    rw [h] at hsome
    cases hsome

theorem items_of_some (h : c.cut units = some (item, rest)) :
    c.items units = item :: c.items rest := by
  rw [items]
  split
  · rename_i hnone
    rw [h] at hnone
    cases hnone
  · rename_i hsome
    rw [h] at hsome
    cases hsome
    rfl

theorem remainder_of_none (h : c.cut units = none) : c.remainder units = units := by
  rw [remainder]
  split
  · rfl
  · rename_i hsome
    rw [h] at hsome
    cases hsome

theorem remainder_of_some (h : c.cut units = some (item, rest)) :
    c.remainder units = c.remainder rest := by
  rw [remainder]
  split
  · rename_i hnone
    rw [h] at hnone
    cases hnone
  · rename_i hsome
    rw [h] at hsome
    cases hsome
    rfl

/-- Induction over the items of a list of units. -/
theorem cut_induction {motive : List β → Prop}
    (stuck : ∀ units, c.cut units = none → motive units)
    (more : ∀ units item rest, c.cut units = some (item, rest) → motive rest → motive units)
    (units : List β) : motive units := by
  induction hlength : units.length using Nat.strongRecOn generalizing units with
  | ind n ih =>
    cases hcut : c.cut units with
    | none => exact stuck units hcut
    | some first =>
      have hshrinks := c.shrinks hcut
      exact more units first.1 first.2 hcut (ih first.2.length (hlength ▸ hshrinks) first.2 rfl)

/-- Nothing can be cut off the remainder. -/
theorem cut_remainder (units : List β) : c.cut (c.remainder units) = none := by
  induction units using cut_induction (c := c) with
  | stuck units h => rwa [remainder_of_none h]
  | more units item rest h ih => rwa [remainder_of_some h]

theorem items_remainder (units : List β) : c.items (c.remainder units) = [] :=
  items_of_none (cut_remainder units)

/-- The remainder is what the units end with. -/
theorem remainder_suffix (units : List β) : c.remainder units <:+ units := by
  induction units using cut_induction (c := c) with
  | stuck units h => exact (remainder_of_none h).symm ▸ List.suffix_refl units
  | more units item rest h ih =>
    rw [remainder_of_some h]
    exact ih.trans (c.within h)

theorem remainder_length_le (units : List β) : (c.remainder units).length ≤ units.length :=
  (remainder_suffix units).length_le

/-- The items of a longer list: those of the front, then those that the
remainder gives with the units behind it. -/
theorem items_append (units more : List β) :
    c.items (units ++ more) = c.items units ++ c.items (c.remainder units ++ more) := by
  induction units using cut_induction (c := c) with
  | stuck units h => rw [items_of_none h, remainder_of_none h, List.nil_append]
  | more units item rest h ih =>
    rw [items_of_some (c.stable h more), items_of_some h, remainder_of_some h, ih,
      List.cons_append]

/-- The remainder of a longer list is that of the remainder with the units
behind it. -/
theorem remainder_append (units more : List β) :
    c.remainder (units ++ more) = c.remainder (c.remainder units ++ more) := by
  induction units using cut_induction (c := c) with
  | stuck units h => rw [remainder_of_none h]
  | more units item rest h ih =>
    rw [remainder_of_some (c.stable h more), remainder_of_some h, ih]

/-- A remainder that stays stuck with all later units is the end of the
items. -/
theorem items_append_of_stuck {units more : List β}
    (h : c.cut (c.remainder units ++ more) = none) :
    c.items (units ++ more) = c.items units ∧
      c.remainder (units ++ more) = c.remainder units ++ more := by
  rw [items_append, remainder_append, items_of_none h, remainder_of_none h]
  exact ⟨List.append_nil _, rfl⟩

/-- Without new items, nothing can be cut off with the later units either. -/
theorem stuck_of_items_append_eq {units more : List β}
    (h : c.items (units ++ more) = c.items units) : c.cut (c.remainder units ++ more) = none := by
  rw [items_append] at h
  have hempty := List.append_right_eq_self.mp h
  cases hcut : c.cut (c.remainder units ++ more) with
  | none => rfl
  | some first =>
    rw [items_of_some hcut] at hempty
    cases hempty

/-- Units that reach behind the last item hold all of the items. -/
theorem items_append_eq_of_length_le {units more : List β}
    (h : more.length ≤ (c.remainder (units ++ more)).length) :
    c.items (units ++ more) = c.items units := by
  cases hcut : c.cut (c.remainder units ++ more) with
  | none => exact (items_append_of_stuck hcut).1
  | some first =>
    obtain ⟨item, rest⟩ := first
    have hrest : more.length ≤ rest.length := by
      rw [remainder_append, remainder_of_some hcut] at h
      exact Nat.le_trans h (remainder_length_le rest)
    obtain ⟨left, rfl⟩ : more <:+ rest :=
      List.suffix_of_suffix_length_le (List.suffix_append _ more) (c.within hcut) hrest
    have hwhole := c.inside hcut
    rw [cut_remainder] at hwhole
    cases hwhole

end Cutter

end Teleprompter.StreamCuts
