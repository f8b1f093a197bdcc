import Teleprompter.CollapsedRuns
import Teleprompter.SessionStore
import Mathlib.Data.List.Induction

/-!
# Labels of sessions

A branch name or another label is turned into a fragment of a session id. One
loop replaces what is not allowed in a session id, a second one collapses the
hyphens, the ends are trimmed, and a label with nothing left becomes a fixed
word.
-/

namespace Teleprompter.SessionLabels

open CollapsedRuns SessionStore

/-- A character that is copied. -/
def allowed (c : Char) : Bool := c.isAlphanum || c == '_' || c == '-'

/-- The first loop copies an allowed character, a hyphen included. It writes a
hyphen for another one unless the text so far ends with a hyphen. -/
def cleanStep (cleaned : List Char) (c : Char) : List Char :=
  if allowed c = true then cleaned ++ [c]
  else if cleaned.getLast? = some '-' then cleaned
  else cleaned ++ ['-']

/-- The second loop skips a hyphen behind a hyphen. -/
def collapseStep (collapsed : List Char) (c : Char) : List Char :=
  if c = '-' ∧ collapsed.getLast? = some '-' then collapsed else collapsed ++ [c]

/-- Text of the two loops, trimmed. -/
def trimmedLabel (label : List Char) : List Char :=
  let cleaned := label.foldl cleanStep []
  let collapsed := cleaned.foldl collapseStep []
  trimMatches '-' collapsed

/-- A fragment of a session id for a label. -/
def sanitizeForSid (label : String) : String :=
  if (trimmedLabel label.toList).isEmpty then "wt" else String.ofList (trimmedLabel label.toList)

/-- What the fragment is to be: runs of characters that are not allowed become
one hyphen, runs of hyphens are collapsed, hyphens are trimmed, and a fixed
word stands for nothing. -/
def sidOfLabel (label : String) : String :=
  let replaced := replaceRuns allowed '-' label.toList
  let collapsed := collapseRuns '-' replaced
  let trimmed := trimMatches '-' collapsed
  if trimmed = [] then "wt" else String.ofList trimmed

/-- An allowed character other than a hyphen. -/
def isWordChar (c : Char) : Bool := allowed c && c != '-'

/-- One step of both loops together. -/
def mergedStep (out : List Char) (c : Char) : List Char :=
  if isWordChar c = true then out ++ [c]
  else if out.getLast? = some '-' then out
  else out ++ ['-']

/-- The second loop keeps the last character. -/
theorem getLast?_collapse (cleaned : List Char) :
    (cleaned.foldl collapseStep []).getLast? = cleaned.getLast? := by
  induction cleaned using List.reverseRecOn with
  | nil => rfl
  | append_singleton cs c ih =>
    rw [List.foldl_append, List.foldl_cons, List.foldl_nil, collapseStep, List.getLast?_concat]
    split
    · next h => rw [h.1, h.2]
    · exact List.getLast?_concat

/-- A step of the first loop, seen behind the second one. -/
theorem collapse_cleanStep (cleaned : List Char) (c : Char) :
    (cleanStep cleaned c).foldl collapseStep [] =
      mergedStep (cleaned.foldl collapseStep []) c := by
  have hlast := getLast?_collapse cleaned
  have hpush (d : Char) : (cleaned ++ [d]).foldl collapseStep [] =
      collapseStep (cleaned.foldl collapseStep []) d := by
    rw [List.foldl_append, List.foldl_cons, List.foldl_nil]
  rw [cleanStep, mergedStep, isWordChar, hlast]
  cases hc : allowed c with
  | true =>
    rw [if_pos rfl, hpush, collapseStep, hlast]
    by_cases hyphen : c = '-' <;> simp [hyphen]
  | false =>
    by_cases hend : cleaned.getLast? = some '-'
    · simp [hend]
    · simp [hend, hpush, collapseStep, hlast]

/-- Both loops are one loop. -/
theorem collapse_clean (label cleaned : List Char) :
    (label.foldl cleanStep cleaned).foldl collapseStep [] =
      label.foldl mergedStep (cleaned.foldl collapseStep []) := by
  induction label generalizing cleaned with
  | nil => rfl
  | cons c cs ih => rw [List.foldl_cons, List.foldl_cons, ih, collapse_cleanStep]

/-- The merged loop behind a hyphen goes on with the run, elsewhere it begins one. -/
theorem foldl_mergedStep (label out : List Char) :
    label.foldl mergedStep out =
      if out.getLast? = some '-' then
        out ++ replaceRuns isWordChar '-' (label.dropWhile fun c => !isWordChar c)
      else out ++ replaceRuns isWordChar '-' label := by
  induction label generalizing out with
  | nil => simp [replaceRuns]
  | cons c cs ih =>
    rw [List.foldl_cons, ih, mergedStep]
    cases hc : isWordChar c with
    | true =>
      have hne : c ≠ '-' := by
        rintro rfl
        exact absurd hc (by decide)
      simp [hc, hne, replaceRuns_of_pos]
    | false =>
      by_cases hend : out.getLast? = some '-'
      · simp [hc, hend]
      · simp [hc, hend, replaceRuns_of_neg]

/-- The two loops replace and collapse. -/
theorem collapse_clean_eq (label : List Char) :
    (label.foldl cleanStep []).foldl collapseStep [] =
      collapseRuns '-' (replaceRuns allowed '-' label) := by
  rw [collapse_clean, foldl_mergedStep, collapseRuns_replaceRuns]
  rfl

theorem sanitizeForSid_eq_sidOfLabel (label : String) :
    sanitizeForSid label = sidOfLabel label := by
  rw [sanitizeForSid, sidOfLabel, trimmedLabel, collapse_clean_eq]
  simp only [List.isEmpty_iff]

/-- Allowed characters without a doubled hyphen or one at an end, and not nothing. -/
structure CleanFragment (cs : List Char) : Prop where
  nonempty : cs ≠ []
  allowed : ∀ c ∈ cs, allowed c = true
  noDouble : NoDouble '-' cs
  head : cs.head? ≠ some '-'
  last : cs.getLast? ≠ some '-'

/-- Every fragment is clean. -/
theorem sanitizeForSid_clean (label : String) : CleanFragment (sanitizeForSid label).toList := by
  rw [sanitizeForSid]
  split
  · exact ⟨by decide, List.all_eq_true.mp (by decide), by simp [NoDouble], by decide, by decide⟩
  · next hne =>
    have hlist : trimmedLabel label.toList =
        trimMatches '-' (collapseRuns '-' (replaceRuns allowed '-' label.toList)) := by
      rw [trimmedLabel, collapse_clean_eq]
    rw [String.toList_ofList]
    rw [hlist, List.isEmpty_iff] at hne
    rw [hlist]
    have hinside := trimMatches_infix '-' (collapseRuns '-' (replaceRuns allowed '-' label.toList))
    refine ⟨hne, fun c hc => ?_, ?_, head?_trimMatches _ _, getLast?_trimMatches _ _⟩
    · have hmem := hinside.subset hc
      rw [collapseRuns_replaceRuns] at hmem
      obtain rfl | ⟨-, hword⟩ := mem_replaceRuns hmem
      · decide
      · exact (Bool.and_eq_true_iff.mp hword).1
    · refine NoDouble.of_infix ?_ hinside
      rw [collapseRuns_replaceRuns]
      exact noDouble_replaceRuns _

/-- A clean fragment passes through unchanged. -/
theorem sanitizeForSid_of_clean {label : String} (h : CleanFragment label.toList) :
    sanitizeForSid label = label := by
  have hsame : collapseRuns '-' (replaceRuns allowed '-' label.toList) = label.toList := by
    rw [collapseRuns_replaceRuns]
    exact replaceRuns_eq_self (fun c hc => .inr (h.allowed c hc)) h.noDouble
  have htrim : trimmedLabel label.toList = label.toList := by
    rw [trimmedLabel, collapse_clean_eq, hsame, trimMatches_eq_self h.head h.last]
  rw [sanitizeForSid, htrim, if_neg (by rw [List.isEmpty_iff]; exact h.nonempty),
    String.ofList_toList]

theorem isSafeSid_of_clean {sid : String} (h : CleanFragment sid.toList) :
    isSafeSid sid = true := by
  rw [isSafeSid, Bool.and_eq_true, List.all_eq_true, Bool.not_eq_true', List.isEmpty_eq_false_iff]
  exact ⟨h.nonempty, h.allowed⟩

/-- The fragment is a safe session id without doubled hyphens or hyphens at the
ends. A second pass leaves it as it is, and the two loops compute the four
steps of the specification. -/
theorem sanitizeForSid_spec (label : String) :
    assertSafeSid (sanitizeForSid label) = .ok () ∧
    ¬ ['-', '-'] <:+: (sanitizeForSid label).toList ∧
    (sanitizeForSid label).toList.head? ≠ some '-' ∧
    (sanitizeForSid label).toList.getLast? ≠ some '-' ∧
    sanitizeForSid (sanitizeForSid label) = sanitizeForSid label ∧
    sanitizeForSid label = sidOfLabel label := by
  have hclean := sanitizeForSid_clean label
  refine ⟨?_, noDouble_iff.mp hclean.noDouble, hclean.head, hclean.last,
    sanitizeForSid_of_clean hclean, sanitizeForSid_eq_sidOfLabel label⟩
  rw [assertSafeSid, if_pos (isSafeSid_of_clean hclean)]

example : sanitizeForSid "-feat/--x..y/-" = "feat-x-y" := by decide

end Teleprompter.SessionLabels
