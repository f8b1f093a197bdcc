import Mathlib.Data.List.Basic
import Mathlib.Tactic.Tauto

/-!
# Walks with a flag that elements toggle

A list is walked from the front with a flag, as lines of a text are read inside
or outside of a block that a mark opens and closes. Each element gives something
that depends on the flag. What two walks collect is compared element by element.
-/

namespace Teleprompter.ToggledWalks

variable {α β : Type} (toggles : α → Bool)

/-- What the elements give, in order. The flag changes behind an element that toggles it. -/
def collect (f : Bool → α → List β) : Bool → List α → List β
  | _, [] => []
  | flag, a :: l => f flag a ++ collect f (flag != toggles a) l

/-- A property of every element and of the flag it is met with. -/
def Along (P : Bool → α → Prop) : Bool → List α → Prop
  | _, [] => True
  | flag, a :: l => P flag a ∧ Along P (flag != toggles a) l

variable {toggles} {f g : Bool → α → List β} {P Q : Bool → α → Prop}

theorem collect_cons (flag : Bool) (a : α) (l : List α) : collect toggles f flag (a :: l) =
    f flag a ++ collect toggles f (flag != toggles a) l := rfl

theorem along_cons (flag : Bool) (a : α) (l : List α) : Along toggles P flag (a :: l) =
    (P flag a ∧ Along toggles P (flag != toggles a) l) := rfl

theorem along_iff {l : List α} (h : ∀ flag, ∀ a ∈ l, P flag a ↔ Q flag a) (flag : Bool) :
    Along toggles P flag l ↔ Along toggles Q flag l := by
  induction l generalizing flag with
  | nil => exact Iff.rfl
  | cons a l ih =>
    have ha := h flag a List.mem_cons_self
    have hl := ih (fun flag b hb => h flag b (List.mem_cons_of_mem a hb)) (flag != toggles a)
    rw [along_cons, along_cons, ha, hl]

theorem along_and {l : List α} {flag : Bool} :
    Along toggles (fun flag a => P flag a ∧ Q flag a) flag l ↔
      Along toggles P flag l ∧ Along toggles Q flag l := by
  induction l generalizing flag with
  | nil => exact (and_self_iff).symm
  | cons a l ih =>
    rw [along_cons, along_cons, along_cons, ih]
    tauto

theorem Along.imp {l : List α} {flag : Bool} (h : Along toggles P flag l)
    (himp : ∀ flag, ∀ a ∈ l, P flag a → Q flag a) : Along toggles Q flag l := by
  induction l generalizing flag with
  | nil => trivial
  | cons a l ih =>
    exact ⟨himp flag a List.mem_cons_self h.1,
      ih h.2 fun flag b hb => himp flag b (List.mem_cons_of_mem a hb)⟩

/-- Where every element gives a part of what it gives in another walk, so do all together. -/
theorem Along.collect_sublist {l : List α} {flag : Bool}
    (h : Along toggles (fun flag a => (f flag a).Sublist (g flag a)) flag l) :
    (collect toggles f flag l).Sublist (collect toggles g flag l) := by
  induction l generalizing flag with
  | nil => exact List.Sublist.refl _
  | cons a l ih => exact h.1.append (ih h.2)

/-- Then nothing is missing in total only when no element misses something. -/
theorem Along.collect_length_iff {l : List α} {flag : Bool}
    (h : Along toggles (fun flag a => (f flag a).Sublist (g flag a)) flag l) :
    (collect toggles g flag l).length ≤ (collect toggles f flag l).length ↔
      Along toggles (fun flag a => f flag a = g flag a) flag l := by
  induction l generalizing flag with
  | nil => exact iff_of_true (Nat.le_refl _) trivial
  | cons a l ih =>
    have hhead := h.1.length_le
    have htail := (Along.collect_sublist h.2).length_le
    rw [collect_cons, collect_cons, along_cons, ← ih h.2, List.length_append, List.length_append]
    constructor
    · intro hle
      exact ⟨h.1.eq_of_length_le (by omega), by omega⟩
    · rintro ⟨heq, hle⟩
      rw [heq]
      omega

/-- Where every element gives as much as in another walk, the walks collect the same only when
every element gives the same. -/
theorem collect_eq_iff (h : ∀ flag a, (f flag a).length = (g flag a).length) {l : List α}
    {flag : Bool} : collect toggles f flag l = collect toggles g flag l ↔
      Along toggles (fun flag a => f flag a = g flag a) flag l := by
  induction l generalizing flag with
  | nil => exact iff_of_true rfl trivial
  | cons a l ih =>
    rw [collect_cons, collect_cons, along_cons, ← ih]
    constructor
    · intro heq
      exact List.append_inj heq (h flag a)
    · rintro ⟨hhead, htail⟩
      rw [hhead, htail]

end Teleprompter.ToggledWalks
