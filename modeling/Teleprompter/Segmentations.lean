import Mathlib.Data.List.Infix
import Mathlib.Data.List.TakeWhile

/-!
# Texts that fall into parts

A text is split into parts of one or more elements, as a text of code points is
split into the characters that a reader sees. Which elements join depends on a
rule that is not described here; all that is known is that some elements end a
part in front of each other. Parts are dropped from the front of a text, and the
question is how much of the text remains.
-/

namespace Teleprompter.Segmentations

variable {α : Type}

/-- A way to split texts into parts. -/
structure Segmentation (α : Type) where
  /-- Elements that do not join one of their kind. -/
  alone : α → Bool
  /-- Parts of a text in order. -/
  parts : List α → List (List α)
  /-- Nothing is lost between the parts. -/
  flatten_parts : ∀ s, (parts s).flatten = s
  /-- No part is empty. -/
  ne_nil : ∀ s, ∀ g ∈ parts s, g ≠ []
  /-- Between two elements that stand alone a part ends. -/
  boundary : ∀ a b s, alone a = true → alone b = true → parts (a :: b :: s) = [a] :: parts (b :: s)

variable (seg : Segmentation α)

/-- What remains behind the parts at the front that have a property. -/
def Segmentation.dropParts (p : List α → Bool) (s : List α) : List α :=
  ((seg.parts s).dropWhile p).flatten

theorem parts_nil : seg.parts [] = [] := by
  have hflat := seg.flatten_parts []
  rw [List.flatten_eq_nil_iff] at hflat
  exact List.eq_nil_iff_forall_not_mem.mpr fun g hg => seg.ne_nil [] g hg (hflat g hg)

/-- The first part begins with the first element. -/
theorem parts_cons (a : α) (s : List α) : ∃ g more, seg.parts (a :: s) = (a :: g) :: more ∧
    s = g ++ more.flatten := by
  have hflat := seg.flatten_parts (a :: s)
  cases hparts : seg.parts (a :: s) with
  | nil =>
    rw [hparts] at hflat
    cases hflat
  | cons part more =>
    have hne := seg.ne_nil (a :: s) part (hparts ▸ List.mem_cons_self)
    obtain ⟨c, g, rfl⟩ := List.exists_cons_of_ne_nil hne
    rw [hparts, List.flatten_cons, List.cons_append] at hflat
    injection hflat with hc hs
    exact ⟨g, more, by rw [hc], hs.symm⟩

/-- Elements that stand alone are parts of their own in front of another such element. -/
theorem parts_append {front : List α} (h : ∀ a ∈ front, seg.alone a = true) {b : α}
    (hb : seg.alone b = true) (s : List α) :
    seg.parts (front ++ b :: s) = (front.map fun a => [a]) ++ seg.parts (b :: s) := by
  induction front with
  | nil => rfl
  | cons a front ih =>
    obtain ⟨ha, hfront⟩ := List.forall_mem_cons.mp h
    cases front with
    | nil => exact seg.boundary a b s ha hb
    | cons c front =>
      have hc := hfront c List.mem_cons_self
      have hrest := ih hfront
      rw [List.cons_append, List.cons_append, seg.boundary a c _ ha hc, List.map_cons,
        List.cons_append, ← hrest]
      rfl

theorem dropParts_nil (p : List α → Bool) : seg.dropParts p [] = [] := by
  rw [Segmentation.dropParts, parts_nil]
  rfl

theorem dropWhile_flatten_suffix (p : List α → Bool) (parts : List (List α)) :
    (parts.dropWhile p).flatten <:+ parts.flatten :=
  (List.dropWhile_suffix p).flatten

/-- Dropping parts takes a front away. -/
theorem dropParts_suffix (p : List α → Bool) (s : List α) : seg.dropParts p s <:+ s := by
  have hsuffix := dropWhile_flatten_suffix p (seg.parts s)
  rw [seg.flatten_parts] at hsuffix
  exact hsuffix

/-- Elements that stand alone and are to be dropped do not matter. -/
theorem dropParts_append {p : List α → Bool} {front : List α}
    (h : ∀ a ∈ front, seg.alone a = true) (hp : ∀ a ∈ front, p [a] = true) {b : α}
    (hb : seg.alone b = true) (s : List α) :
    seg.dropParts p (front ++ b :: s) = seg.dropParts p (b :: s) := by
  have hpass : ∀ g ∈ front.map fun a => [a], p g = true := by
    intro g hg
    obtain ⟨a, ha, rfl⟩ := List.mem_map.mp hg
    exact hp a ha
  rw [Segmentation.dropParts, parts_append seg h hb, List.dropWhile_append_of_pos hpass]
  rfl

/-- Where no part that begins with the first element is to be dropped, nothing is dropped. -/
theorem dropParts_of_head {p : List α → Bool} {a : α} (h : ∀ g, p (a :: g) = false) (s : List α) :
    seg.dropParts p (a :: s) = a :: s := by
  obtain ⟨g, more, hparts, -⟩ := parts_cons seg a s
  rw [Segmentation.dropParts, hparts, List.dropWhile_cons, if_neg (ne_true_of_eq_false (h g)),
    ← hparts, seg.flatten_parts]

/-- Dropping parts takes exactly the first element away when it is a part of its own, is to be
dropped, and no part is dropped behind it. -/
theorem dropParts_cons_eq_iff {p : List α → Bool} {a : α} (hp : p [a] = true) (s : List α) :
    seg.dropParts p (a :: s) = s ↔ (seg.parts (a :: s)).head? = some [a] ∧
      ∀ g, (seg.parts (a :: s))[1]? = some g → p g = false := by
  obtain ⟨g, more, hparts, hs⟩ := parts_cons seg a s
  have hlength := congrArg List.length hs
  rw [List.length_append] at hlength
  rw [Segmentation.dropParts, hparts, List.dropWhile_cons]
  constructor
  · intro h
    cases hfirst : p (a :: g) with
    | false =>
      rw [hfirst, if_neg (by decide), ← hparts, seg.flatten_parts] at h
      exact absurd h (List.cons_ne_self a s)
    | true =>
      rw [hfirst, if_pos rfl] at h
      have hshort := (dropWhile_flatten_suffix p more).length_le
      have hg : g = [] := List.length_eq_zero_iff.mp (by rw [h] at hshort; omega)
      subst hg
      refine ⟨rfl, fun next hnext => ?_⟩
      cases more with
      | nil => cases hnext
      | cons k more =>
        injection hnext with hk
        subst hk
        by_contra hdrop
        have hk : k ≠ [] := seg.ne_nil (a :: s) k (by rw [hparts]; simp)
        have hpos := List.length_pos_of_ne_nil hk
        have hmore := (dropWhile_flatten_suffix p more).length_le
        rw [List.dropWhile_cons, if_pos (eq_true_of_ne_false hdrop)] at h
        rw [h] at hmore
        rw [List.flatten_cons, List.length_append] at hlength
        omega
  · rintro ⟨hhead, hnext⟩
    injection hhead with hpart
    rw [hpart, if_pos hp]
    injection hpart with _ hg
    subst hg
    cases more with
    | nil => exact hs.symm
    | cons k more =>
      rw [List.dropWhile_cons, if_neg (ne_true_of_eq_false (hnext k rfl))]
      exact hs.symm

/-- The same with another round of dropping behind it, when that one drops nothing of the rest. -/
theorem dropParts_dropParts_eq_iff {p q : List α → Bool} {a : α} {s : List α} (hp : p [a] = true)
    (hjoined : ∀ g, g ≠ [] → q (a :: g) = false)
    (hrest : ∀ b t, s = b :: t → ∀ g, q (b :: g) = false) :
    seg.dropParts q (seg.dropParts p (a :: s)) = s ↔ (seg.parts (a :: s)).head? = some [a] ∧
      ∀ g, (seg.parts (a :: s))[1]? = some g → p g = false := by
  rw [← dropParts_cons_eq_iff seg hp]
  constructor
  · intro h
    have hinner := dropParts_suffix seg p (a :: s)
    have houter := dropParts_suffix seg q (seg.dropParts p (a :: s))
    rw [h] at houter
    obtain hwhole | hsuffix := List.suffix_cons_iff.mp hinner
    · obtain ⟨g, more, hparts, hs⟩ := parts_cons seg a s
      cases hfirst : p (a :: g) with
      | true =>
        have hshort := (dropWhile_flatten_suffix p more).length_le
        have hlength := congrArg List.length hs
        rw [Segmentation.dropParts, hparts, List.dropWhile_cons, if_pos hfirst] at hwhole
        rw [hwhole, List.length_cons] at hshort
        rw [List.length_append] at hlength
        omega
      | false =>
        have hg : g ≠ [] := by
          rintro rfl
          rw [hp] at hfirst
          cases hfirst
        rw [hwhole, Segmentation.dropParts, hparts, List.dropWhile_cons,
          if_neg (ne_true_of_eq_false (hjoined g hg)), ← hparts, seg.flatten_parts] at h
        exact absurd h (List.cons_ne_self a s)
    · exact hsuffix.eq_of_length_le houter.length_le
  · intro h
    rw [h]
    cases s with
    | nil => exact dropParts_nil seg q
    | cons b t => exact dropParts_of_head seg (hrest b t rfl) t

end Teleprompter.Segmentations
