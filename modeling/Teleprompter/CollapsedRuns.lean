import Mathlib.Data.List.DropRight
import Mathlib.Data.List.Infix

/-!
# Runs written as one separator

Every maximal run of elements that fail a test is written as one separator.
Replacing such runs and then collapsing the separators is one replacement with
the sharper test, and a list without anything to replace is left as it is. At
both ends the separators are trimmed.
-/

namespace Teleprompter.CollapsedRuns

variable {α : Type} {p : α → Bool} {a : α}

/-- Writes the separator for each maximal run of elements that fail the test.
The last element of a run stands for it. -/
def replaceRuns (p : α → Bool) (a : α) : List α → List α
  | [] => []
  | c :: cs =>
    if p c = true then c :: replaceRuns p a cs
    else if cs.head?.any (fun d => !p d) = true then replaceRuns p a cs
    else a :: replaceRuns p a cs

theorem replaceRuns_of_pos {c : α} (cs : List α) (h : p c = true) :
    replaceRuns p a (c :: cs) = c :: replaceRuns p a cs := by
  rw [replaceRuns, if_pos h]

/-- One separator stands for the maximal run, which ends where the test holds again. -/
theorem replaceRuns_of_neg {c : α} (cs : List α) (h : p c = false) :
    replaceRuns p a (c :: cs) = a :: replaceRuns p a (cs.dropWhile fun d => !p d) := by
  induction cs generalizing c with
  | nil => simp [replaceRuns, h]
  | cons d ds ih =>
    cases hd : p d with
    | true => simp [replaceRuns, h, hd]
    | false =>
      have hstep : replaceRuns p a (c :: d :: ds) = replaceRuns p a (d :: ds) := by
        rw [replaceRuns, if_neg (by simp [h]), if_pos (by simp [hd])]
      rw [hstep, ih hd]
      simp [hd]

/-- The first element is kept or written as the separator. -/
theorem head?_replaceRuns (cs : List α) :
    (replaceRuns p a cs).head? = cs.head?.map fun d => if p d = true then d else a := by
  cases cs with
  | nil => rfl
  | cons c cs =>
    cases hc : p c with
    | true => simp [replaceRuns_of_pos cs hc, hc]
    | false => simp [replaceRuns_of_neg cs hc, hc]

/-- What is left is the separator or passes the test. -/
theorem mem_replaceRuns {c : α} {cs : List α} (h : c ∈ replaceRuns p a cs) :
    c = a ∨ c ∈ cs ∧ p c = true := by
  induction cs with
  | nil => cases h
  | cons d ds ih =>
    rw [replaceRuns] at h
    split at h
    · next hd =>
      obtain rfl | h := List.mem_cons.mp h
      · exact .inr ⟨List.mem_cons_self .., hd⟩
      · exact (ih h).imp id (And.imp_left (List.mem_cons_of_mem d))
    · split at h
      · exact (ih h).imp id (And.imp_left (List.mem_cons_of_mem d))
      · obtain rfl | h := List.mem_cons.mp h
        · exact .inl rfl
        · exact (ih h).imp id (And.imp_left (List.mem_cons_of_mem d))

/-- No two separators stand side by side. -/
def NoDouble (a : α) : List α → Prop
  | [] => True
  | c :: cs => (c = a → cs.head? ≠ some a) ∧ NoDouble a cs

theorem noDouble_iff {cs : List α} : NoDouble a cs ↔ ¬ [a, a] <:+: cs := by
  induction cs with
  | nil => simp [NoDouble]
  | cons c cs ih =>
    rw [NoDouble, ih, List.infix_cons_iff, not_or]
    refine and_congr_left fun _ => ?_
    cases cs with
    | nil => simp
    | cons d ds => simp [List.cons_prefix_cons, eq_comm]

theorem NoDouble.of_infix {cs ds : List α} (h : NoDouble a cs) (hinside : ds <:+: cs) :
    NoDouble a ds := by
  rw [noDouble_iff] at h ⊢
  exact fun hds => h (hds.trans hinside)

section Collapse

variable [DecidableEq α]

/-- Writes one separator for each run of separators. -/
def collapseRuns (a : α) : List α → List α := replaceRuns (fun c => c != a) a

/-- Removes the separators at both ends. -/
def trimMatches (a : α) (cs : List α) : List α :=
  (cs.dropWhile (fun c => c == a)).rdropWhile (fun c => c == a)

/-- Replacing runs and collapsing what they became is one replacement. -/
theorem collapseRuns_replaceRuns (cs : List α) :
    collapseRuns a (replaceRuns p a cs) = replaceRuns (fun c => p c && c != a) a cs := by
  rw [collapseRuns]
  induction cs with
  | nil => rfl
  | cons c cs ih =>
    have hhead : (replaceRuns p a cs).head?.any (fun d => !(d != a)) =
        cs.head?.any (fun d => !(p d && d != a)) := by
      rw [head?_replaceRuns]
      cases cs.head? with
      | none => rfl
      | some d => cases hd : p d <;> simp [hd]
    cases hc : p c with
    | true =>
      rw [replaceRuns_of_pos cs hc, replaceRuns, replaceRuns, ih, hhead, hc, Bool.true_and]
    | false =>
      have hright : replaceRuns (fun c => p c && c != a) a (c :: cs) =
          if cs.head?.any (fun d => !(p d && d != a)) = true then
            replaceRuns (fun c => p c && c != a) a cs
          else a :: replaceRuns (fun c => p c && c != a) a cs := by
        rw [replaceRuns, if_neg (by simp [hc])]
      rw [hright, replaceRuns, if_neg (by simp [hc])]
      by_cases hnext : cs.head?.any (fun d => !p d) = true
      · have hsharper : cs.head?.any (fun d => !(p d && d != a)) = true := by
          cases hd : cs.head? with
          | none => rw [hd] at hnext; cases hnext
          | some d =>
            rw [hd] at hnext
            simp only [Option.any_some, Bool.not_eq_true'] at hnext
            simp [hnext]
        rw [if_pos hnext, if_pos hsharper, ih]
      · rw [if_neg hnext, replaceRuns, if_neg (by simp), ih, hhead]

/-- Collapsed separators stand alone. -/
theorem noDouble_replaceRuns (cs : List α) :
    NoDouble a (replaceRuns (fun c => p c && c != a) a cs) := by
  induction cs with
  | nil => trivial
  | cons c cs ih =>
    rw [replaceRuns]
    split
    · next hc =>
      simp only [Bool.and_eq_true, bne_iff_ne] at hc
      exact ⟨fun hca => absurd hca hc.2, ih⟩
    · split
      · exact ih
      · next hnext =>
        refine ⟨fun _ => ?_, ih⟩
        rw [head?_replaceRuns]
        cases hd : cs.head? with
        | none => simp
        | some d =>
          rw [hd] at hnext
          simp only [Option.any_some, Bool.not_eq_true', Bool.not_eq_false] at hnext
          simp only [Bool.and_eq_true, bne_iff_ne] at hnext
          simp [hnext]

/-- A list whose separators stand alone and whose other elements pass the test is kept. -/
theorem replaceRuns_eq_self {cs : List α} (hmem : ∀ c ∈ cs, c = a ∨ p c = true)
    (h : NoDouble a cs) : replaceRuns (fun c => p c && c != a) a cs = cs := by
  induction cs with
  | nil => rfl
  | cons c cs ih =>
    have ih := ih (fun d hd => hmem d (List.mem_cons_of_mem c hd)) h.2
    rw [replaceRuns, ih]
    by_cases hca : c = a
    · subst hca
      have hnext : ¬ cs.head?.any (fun d => !(p d && d != c)) = true := by
        have hhead := h.1 rfl
        cases cs with
        | nil => simp
        | cons d ds =>
          have hd : d ≠ c := by simpa using hhead
          have hp : p d = true := (hmem d (by simp)).resolve_left hd
          simp [hd, hp]
      rw [if_neg (by simp), if_neg hnext]
    · have hp : p c = true := (hmem c (List.mem_cons_self ..)).resolve_left hca
      simp [hp, hca]

theorem trimMatches_infix (a : α) (cs : List α) : trimMatches a cs <:+: cs := by
  have hfront : cs.dropWhile (fun c => c == a) <:+: cs := (List.dropWhile_suffix _).isInfix
  have hback : trimMatches a cs <:+: cs.dropWhile (fun c => c == a) :=
    (List.rdropWhile_prefix ..).isInfix
  exact hback.trans hfront

theorem head?_dropWhile_ne (a : α) (cs : List α) :
    (cs.dropWhile fun c => c == a).head? ≠ some a := by
  intro h
  have hnot := List.head?_dropWhile_not (fun c => c == a) cs
  rw [h] at hnot
  simp at hnot

/-- Trimmed text does not begin with the separator. -/
theorem head?_trimMatches (a : α) (cs : List α) : (trimMatches a cs).head? ≠ some a := by
  have hprefix : trimMatches a cs <+: cs.dropWhile (fun c => c == a) :=
    List.rdropWhile_prefix ..
  intro h
  cases htrim : trimMatches a cs with
  | nil => rw [htrim] at h; cases h
  | cons c rest =>
    rw [htrim, List.head?_cons] at h
    obtain ⟨tail, htail⟩ := hprefix
    rw [htrim, List.cons_append] at htail
    refine head?_dropWhile_ne a cs ?_
    rw [← htail, List.head?_cons, h]

/-- Trimmed text does not end with the separator. -/
theorem getLast?_trimMatches (a : α) (cs : List α) : (trimMatches a cs).getLast? ≠ some a := by
  intro h
  have hne : trimMatches a cs ≠ [] := by
    intro hnil
    rw [hnil] at h
    cases h
  have hlast := List.rdropWhile_last_not _ _ hne
  rw [List.getLast?_eq_some_getLast hne, Option.some_inj] at h
  exact hlast (beq_iff_eq.mpr h)

/-- Nothing is trimmed when both ends are no separators. -/
theorem trimMatches_eq_self {cs : List α} (hhead : cs.head? ≠ some a)
    (hlast : cs.getLast? ≠ some a) : trimMatches a cs = cs := by
  have hfront : cs.dropWhile (fun c => c == a) = cs := by
    cases cs with
    | nil => rfl
    | cons c cs =>
      have hc : c ≠ a := by simpa using hhead
      exact List.dropWhile_cons_of_neg (by simpa using hc)
  rw [trimMatches, hfront, List.rdropWhile_eq_self_iff]
  intro hne hend
  rw [List.getLast?_eq_some_getLast hne] at hlast
  exact hlast (congrArg some (beq_iff_eq.mp hend))

end Collapse

end Teleprompter.CollapsedRuns
