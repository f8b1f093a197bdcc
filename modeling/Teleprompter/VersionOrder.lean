import Teleprompter.DaemonLock
import Teleprompter.PairingLink
import Mathlib.Data.Prod.Lex

/-!
# Versions and their order

The splitter of version texts stands in for a regular expression. It takes a
text apart at the first plus sign, the first hyphen and the dots. Beside it
stands the grammar that the expression describes. The order of versions is that
of a rank in a linear order, so its laws hold of all texts.
-/

namespace Teleprompter.VersionOrder

open DaemonLock (decimal)
open PairingLink (trim splitOnce)

/-- The numeric triple, and whether there was a prerelease suffix. -/
structure ParsedVersion where
  major : ℕ
  minor : ℕ
  patch : ℕ
  prerelease : Bool
  deriving DecidableEq

/-- At most `n` pieces, cut at a character. -/
def splitn : ℕ → Char → List Char → List (List Char)
  | 0, _, _ => []
  | 1, _, s => [s]
  | n + 2, c, s =>
    match splitOnce c s with
    | none => [s]
    | some (front, rest) => front :: splitn (n + 1) c rest

/-- A number of 64 bits. A plus sign may stand in front. -/
def parseU64 (text : List Char) : Option ℕ :=
  (match text with
    | '+' :: digits => decimal digits
    | digits => decimal digits).filter fun n => n < 2 ^ 64

def isSuffixChar (c : Char) : Bool := c.isAlphanum || c == '.' || c == '-'

def isDigits (s : List Char) : Bool := !s.isEmpty && s.all Char.isDigit

/-- The text without white space at the ends and without any `v` in front. -/
def trimmedVersion (v : String) : List Char := (trim v.toList).dropWhile fun c => c = 'v'

/-- A version whose build suffix is split off. -/
def parseWithoutBuild (withoutBuild : List Char) : Option ParsedVersion :=
  let (core, preStr) := match splitOnce '-' withoutBuild with
    | some (core, pre) => (core, some pre)
    | none => (withoutBuild, none)
  if preStr.all (fun pre => !pre.isEmpty && pre.all isSuffixChar) = true then
    match splitn 4 '.' core with
    | [major, minor, patch] =>
      if isDigits major && isDigits minor && isDigits patch then do
        let major ← parseU64 major
        let minor ← parseU64 minor
        let patch ← parseU64 patch
        some ⟨major, minor, patch, preStr.isSome⟩
      else none
    | _ => none
  else none

/-- What a version text says. -/
def parseVersion (v : String) : Option ParsedVersion :=
  parseWithoutBuild ((trimmedVersion v).takeWhile fun c => c ≠ '+')

/-- The first pair of different numbers decides. -/
def firstDifference : List (ℕ × ℕ) → Option Bool
  | [] => none
  | (va, vb) :: rest =>
    if va < vb then some true else if vb < va then some false else firstDifference rest

/-- An older version. A text that is no version is not older and has none older. -/
def isOlderVersion (a b : String) : Bool :=
  match parseVersion a, parseVersion b with
  | some pa, some pb =>
    (firstDifference [(pa.major, pb.major), (pa.minor, pb.minor), (pa.patch, pb.patch)]).getD
      (pa.prerelease && !pb.prerelease)
  | _, _ => false

section Grammar

/-- A non-empty suffix text. -/
def SuffixText (t : List Char) : Prop := t ≠ [] ∧ ∀ c ∈ t, isSuffixChar c = true

/-- Digits that stand for a number of 64 bits. -/
structure NumberText (s : List Char) (n : ℕ) : Prop where
  nonempty : s ≠ []
  digits : ∀ c ∈ s, c.isDigit = true
  value : Nat.ofDigitChars 10 s 0 = n
  fits : n < 2 ^ 64

/-- Three numbers and an optional prerelease suffix. -/
def CoreVersion (s : List Char) (p : ParsedVersion) : Prop :=
  ∃ major minor patch suffix, s = major ++ '.' :: (minor ++ '.' :: (patch ++ suffix)) ∧
    NumberText major p.major ∧ NumberText minor p.minor ∧ NumberText patch p.patch ∧
    (suffix = [] ∧ p.prerelease = false ∨
      ∃ pre, suffix = '-' :: pre ∧ SuffixText pre ∧ p.prerelease = true)

/-- A version as it is documented, with an optional build suffix at its end. -/
def DocumentedVersion (s : List Char) (p : ParsedVersion) : Prop :=
  ∃ core build, s = core ++ build ∧ CoreVersion core p ∧
    (build = [] ∨ ∃ text, build = '+' :: text ∧ SuffixText text)

/-- The text without white space at the ends and without one `v` in front. -/
def documentedTrim (v : String) : List Char :=
  match trim v.toList with
  | 'v' :: rest => rest
  | text => text

end Grammar

section Splitting

theorem splitOnce_eq_some {c : Char} {s front rest : List Char} :
    splitOnce c s = some (front, rest) ↔ s = front ++ c :: rest ∧ c ∉ front := by
  constructor
  · intro h
    have hcut := List.takeWhile_append_dropWhile (p := fun x => decide (x ≠ c)) (l := s)
    have hhead := List.head?_dropWhile_not (fun x => decide (x ≠ c)) s
    rw [splitOnce] at h
    cases hdrop : s.dropWhile fun x => decide (x ≠ c) with
    | nil => rw [hdrop] at h; cases h
    | cons x xs =>
      rw [hdrop] at h hcut hhead
      simp only [List.head?_cons, decide_not, Bool.not_eq_false', decide_eq_true_eq] at hhead
      simp only [Option.some.injEq, Prod.mk.injEq] at h
      obtain ⟨rfl, rfl⟩ := h
      subst hhead
      refine ⟨hcut.symm, fun hmem => ?_⟩
      have hne := List.mem_takeWhile_imp hmem
      simp at hne
  · rintro ⟨rfl, hfront⟩
    refine PairingLink.splitOnce_append (fun x hx hxc => ?_) rest
    subst hxc
    exact hfront hx

theorem splitOnce_eq_none {c : Char} {s : List Char} : splitOnce c s = none ↔ c ∉ s := by
  constructor
  · intro h hmem
    obtain ⟨front, rest, rfl, hfront⟩ := List.eq_append_cons_of_mem hmem
    rw [splitOnce_eq_some.mpr ⟨rfl, hfront⟩] at h
    cases h
  · intro h
    cases hsplit : splitOnce c s with
    | none => rfl
    | some cut =>
      have hcut := (@splitOnce_eq_some c s cut.1 cut.2).mp hsplit
      exact absurd (hcut.1 ▸ List.mem_append_right _ List.mem_cons_self) h

/-- Exactly three pieces are three texts with two dots between them. -/
theorem splitn_eq_three {c : Char} {s x y z : List Char} :
    splitn 4 c s = [x, y, z] ↔ s = x ++ c :: (y ++ c :: z) ∧ c ∉ x ∧ c ∉ y ∧ c ∉ z := by
  constructor
  · intro h
    rw [splitn] at h
    split at h
    · simp at h
    · next front rest hfirst =>
      obtain ⟨hs, hfront⟩ := splitOnce_eq_some.mp hfirst
      rw [List.cons.injEq, splitn] at h
      obtain ⟨rfl, h⟩ := h
      split at h
      · simp at h
      · next middle last hsecond =>
        obtain ⟨hrest, hmiddle⟩ := splitOnce_eq_some.mp hsecond
        rw [List.cons.injEq, splitn] at h
        obtain ⟨rfl, h⟩ := h
        split at h
        · next hthird =>
          rw [List.singleton_inj] at h
          subst h
          exact ⟨by rw [hs, hrest], hfront, hmiddle, splitOnce_eq_none.mp hthird⟩
        · simp [splitn] at h
  · rintro ⟨rfl, hx, hy, hz⟩
    have hfirst : splitOnce c (x ++ c :: (y ++ c :: z)) = some (x, y ++ c :: z) :=
      splitOnce_eq_some.mpr ⟨rfl, hx⟩
    have hsecond : splitOnce c (y ++ c :: z) = some (y, z) := splitOnce_eq_some.mpr ⟨rfl, hy⟩
    have hthird : splitOnce c z = none := splitOnce_eq_none.mpr hz
    simp [splitn, hfirst, hsecond, hthird]

end Splitting

section Parsing

variable {s : List Char} {n : ℕ} {p : ParsedVersion}

theorem NumberText.of_cons {c : Char} {t : List Char} (h : NumberText (c :: t) n) :
    c.isDigit = true := h.digits c List.mem_cons_self

/-- A text of digits has no sign. -/
theorem parseU64_of_digits (hne : s ≠ []) (hall : ∀ c ∈ s, c.isDigit = true) :
    parseU64 s = (some (Nat.ofDigitChars 10 s 0)).filter fun n => n < 2 ^ 64 := by
  have hdecimal : decimal s = some (Nat.ofDigitChars 10 s 0) := by
    rw [decimal, if_pos ⟨hne, List.all_eq_true.mpr hall⟩]
  have hsign : ∀ t, s ≠ '+' :: t := by
    rintro t rfl
    exact absurd (hall '+' List.mem_cons_self) (by decide)
  rw [parseU64, hdecimal]
  exact hsign

/-- A text of digits is read as its number unless that is too large. -/
theorem numberText_iff : NumberText s n ↔ isDigits s = true ∧ parseU64 s = some n := by
  have hdigits : isDigits s = true ↔ s ≠ [] ∧ ∀ c ∈ s, c.isDigit = true := by
    simp [isDigits]
  constructor
  · rintro ⟨hne, hall, rfl, hfits⟩
    refine ⟨hdigits.mpr ⟨hne, hall⟩, ?_⟩
    rw [parseU64_of_digits hne hall, Option.filter_some, if_pos (decide_eq_true hfits)]
  · rintro ⟨hdigit, hparse⟩
    obtain ⟨hne, hall⟩ := hdigits.mp hdigit
    rw [parseU64_of_digits hne hall, Option.filter_eq_some_iff, Option.some.injEq,
      decide_eq_true_eq] at hparse
    exact ⟨hne, hall, hparse.1, hparse.2⟩

/-- Digits are no separators. -/
theorem NumberText.notMem {c : Char} (h : NumberText s n) (hc : c.isDigit = false) : c ∉ s := by
  intro hmem
  rw [h.digits c hmem] at hc
  cases hc

theorem suffixText_iff {t : List Char} :
    (!t.isEmpty && t.all isSuffixChar) = true ↔ SuffixText t := by
  simp [SuffixText]

/-- The three pieces are read when each of them is a number. -/
theorem readTriple_eq_some {x y z : List Char} {pre : Bool} :
    (if isDigits x && isDigits y && isDigits z then do
        let major ← parseU64 x
        let minor ← parseU64 y
        let patch ← parseU64 z
        some ⟨major, minor, patch, pre⟩
      else none) = some p ↔
      NumberText x p.major ∧ NumberText y p.minor ∧ NumberText z p.patch ∧
        p.prerelease = pre := by
  obtain ⟨major, minor, patch, prerelease⟩ := p
  rw [numberText_iff, numberText_iff, numberText_iff]
  by_cases hdigits : (isDigits x && isDigits y && isDigits z) = true
  · rw [if_pos hdigits]
    simp only [Bool.and_eq_true] at hdigits
    simp only [Option.bind_eq_bind, Option.bind_eq_some_iff, Option.some.injEq,
      ParsedVersion.mk.injEq, hdigits, true_and]
    constructor
    · rintro ⟨_, hx, _, hy, _, hz, rfl, rfl, rfl, rfl⟩
      exact ⟨hx, hy, hz, rfl⟩
    · rintro ⟨hx, hy, hz, rfl⟩
      exact ⟨major, hx, minor, hy, patch, hz, rfl, rfl, rfl, rfl⟩
  · rw [if_neg hdigits]
    simp only [reduceCtorEq, false_iff]
    rintro ⟨hx, hy, hz, -⟩
    simp [hx.1, hy.1, hz.1] at hdigits

/-- The core and the prerelease suffix, read from the pieces of the text. -/
theorem readCore_eq_some {core : List Char} {preStr : Option (List Char)} :
    (if preStr.all (fun pre => !pre.isEmpty && pre.all isSuffixChar) = true then
      match splitn 4 '.' core with
      | [major, minor, patch] =>
        if isDigits major && isDigits minor && isDigits patch then do
          let major ← parseU64 major
          let minor ← parseU64 minor
          let patch ← parseU64 patch
          some ⟨major, minor, patch, preStr.isSome⟩
        else none
      | _ => none
    else none) = some p ↔
      (∀ pre ∈ preStr, SuffixText pre) ∧ p.prerelease = preStr.isSome ∧
        ∃ x y z, core = x ++ '.' :: (y ++ '.' :: z) ∧
          NumberText x p.major ∧ NumberText y p.minor ∧ NumberText z p.patch := by
  have hdot : ('.').isDigit = false := by decide
  have hsuffix : preStr.all (fun pre => !pre.isEmpty && pre.all isSuffixChar) = true ↔
      ∀ pre ∈ preStr, SuffixText pre := by
    simp only [Option.all_eq_true, suffixText_iff, Option.mem_def]
  by_cases hpre : preStr.all (fun pre => !pre.isEmpty && pre.all isSuffixChar) = true
  · rw [if_pos hpre]
    constructor
    · intro h
      split at h
      · next x y z hpieces =>
        obtain ⟨hx, hy, hz, hprerelease⟩ := readTriple_eq_some.mp h
        exact ⟨hsuffix.mp hpre, hprerelease, x, y, z, (splitn_eq_three.mp hpieces).1, hx, hy, hz⟩
      · cases h
    · rintro ⟨-, hprerelease, x, y, z, hcore, hx, hy, hz⟩
      have hpieces : splitn 4 '.' core = [x, y, z] :=
        splitn_eq_three.mpr ⟨hcore, hx.notMem hdot, hy.notMem hdot, hz.notMem hdot⟩
      rw [hpieces]
      exact readTriple_eq_some.mpr ⟨hx, hy, hz, hprerelease⟩
  · rw [if_neg hpre]
    simp only [reduceCtorEq, false_iff]
    exact fun h => hpre (hsuffix.mpr h.1)

/-- Three numbers with dots between them have no hyphen. -/
theorem hyphen_notMem {x y z : List Char} {k m n : ℕ} (hx : NumberText x k) (hy : NumberText y m)
    (hz : NumberText z n) : '-' ∉ x ++ '.' :: (y ++ '.' :: z) := by
  have hhyphen : ('-').isDigit = false := by decide
  simp only [List.mem_append, List.mem_cons, not_or]
  exact ⟨hx.notMem hhyphen, by decide, hy.notMem hhyphen, by decide, hz.notMem hhyphen⟩

/-- A text without a build suffix is taken apart as the grammar says. -/
theorem parseWithoutBuild_eq_some : parseWithoutBuild s = some p ↔ CoreVersion s p := by
  unfold parseWithoutBuild
  constructor
  · intro h
    cases hsplit : splitOnce '-' s with
    | none =>
      simp only [hsplit] at h
      obtain ⟨-, hprerelease, x, y, z, rfl, hx, hy, hz⟩ := readCore_eq_some.mp h
      exact ⟨x, y, z, [], by rw [List.append_nil], hx, hy, hz, .inl ⟨rfl, hprerelease⟩⟩
    | some cut =>
      obtain ⟨core, pre⟩ := cut
      simp only [hsplit] at h
      obtain ⟨hpre, hprerelease, x, y, z, rfl, hx, hy, hz⟩ := readCore_eq_some.mp h
      obtain ⟨rfl, -⟩ := splitOnce_eq_some.mp hsplit
      exact ⟨x, y, z, '-' :: pre, by simp, hx, hy, hz,
        .inr ⟨pre, rfl, hpre pre rfl, hprerelease⟩⟩
  · rintro ⟨x, y, z, suffix, rfl, hx, hy, hz, ⟨rfl, hprerelease⟩ | ⟨pre, rfl, hpre, hprerelease⟩⟩
    · have hsplit : splitOnce '-' (x ++ '.' :: (y ++ '.' :: (z ++ []))) = none := by
        rw [List.append_nil]
        exact splitOnce_eq_none.mpr (hyphen_notMem hx hy hz)
      simp only [hsplit]
      refine readCore_eq_some.mpr ⟨?_, hprerelease, x, y, z, by rw [List.append_nil], hx, hy, hz⟩
      rintro pre ⟨⟩
    · have hsplit : splitOnce '-' (x ++ '.' :: (y ++ '.' :: (z ++ '-' :: pre))) =
          some (x ++ '.' :: (y ++ '.' :: z), pre) :=
        splitOnce_eq_some.mpr ⟨by simp, hyphen_notMem hx hy hz⟩
      simp only [hsplit]
      refine readCore_eq_some.mpr ⟨?_, hprerelease, x, y, z, rfl, hx, hy, hz⟩
      rintro _ ⟨⟩
      exact hpre

end Parsing

section Documented

variable {s : List Char} {p : ParsedVersion} {v : String}

/-- At most one `v` in front, and a build suffix only where the grammar has one. -/
def WellSuffixed (v : String) : Prop :=
  ¬ ['v', 'v'] <+: trim v.toList ∧
    ∀ cut, splitOnce '+' (trimmedVersion v) = some cut → SuffixText cut.2

/-- What stands before the first plus sign is no version, whatever stands behind it. -/
def NoCore (v : String) : Prop :=
  ∀ p, ¬ CoreVersion ((trimmedVersion v).takeWhile fun c => c ≠ '+') p

/-- A version has no plus sign before its build suffix. -/
theorem CoreVersion.plus_notMem (h : CoreVersion s p) : '+' ∉ s := by
  obtain ⟨x, y, z, suffix, rfl, hx, hy, hz, hsuffix⟩ := h
  have hplus : ('+').isDigit = false := by decide
  have hend : '+' ∉ suffix := by
    rcases hsuffix with ⟨rfl, -⟩ | ⟨pre, rfl, hpre, -⟩
    · exact List.not_mem_nil
    · rw [List.mem_cons, not_or]
      refine ⟨by decide, fun hmem => ?_⟩
      exact absurd (hpre.2 '+' hmem) (by decide)
  simp only [List.mem_append, List.mem_cons, not_or]
  exact ⟨hx.notMem hplus, by decide, hy.notMem hplus, by decide, hz.notMem hplus, hend⟩

/-- A version begins with a digit. -/
theorem CoreVersion.head_isDigit (h : CoreVersion s p) : ∃ c rest, s = c :: rest ∧ c.isDigit := by
  obtain ⟨x, y, z, suffix, rfl, hx, -⟩ := h
  cases x with
  | nil => exact absurd rfl hx.nonempty
  | cons c x => exact ⟨c, _, rfl, hx.of_cons⟩

/-- A `v` and another one behind it are what the two ways of trimming differ in. -/
theorem documentedTrim_eq_iff :
    documentedTrim v = trimmedVersion v ↔ ¬ ['v', 'v'] <+: trim v.toList := by
  rw [documentedTrim, trimmedVersion]
  split
  · next rest h =>
    rw [h, List.cons_prefix_cons, List.dropWhile_cons_of_pos (by decide)]
    cases rest with
    | nil => simp
    | cons c rest =>
      rw [List.cons_prefix_cons]
      by_cases hc : c = 'v'
      · subst hc
        rw [List.dropWhile_cons_of_pos (by decide)]
        have hlen : (rest.dropWhile fun c => decide (c = 'v')).length ≤ rest.length :=
          (List.dropWhile_suffix _).length_le
        refine iff_of_false (fun heq => ?_) (by simp)
        have hlength := congrArg List.length heq
        rw [List.length_cons] at hlength
        omega
      · rw [List.dropWhile_cons_of_neg (by simpa using hc)]
        exact iff_of_true rfl fun h => hc h.2.1.symm
  · next hv =>
    refine iff_of_true ?_ fun h => ?_
    · cases htrim : trim v.toList with
      | nil => rfl
      | cons c rest =>
        have hc : c ≠ 'v' := fun hc => hv rest (by rw [htrim, hc])
        rw [List.dropWhile_cons_of_neg (by simpa using hc)]
    · obtain ⟨rest, hrest⟩ := h
      exact hv _ hrest.symm

/-- A documented version is one without a build suffix, and the suffix is checked. -/
theorem documentedVersion_iff :
    DocumentedVersion s p ↔ CoreVersion (s.takeWhile fun c => c ≠ '+') p ∧
      ∀ cut, splitOnce '+' s = some cut → SuffixText cut.2 := by
  constructor
  · rintro ⟨core, build, rfl, hcore, rfl | ⟨text, rfl, htext⟩⟩
    · have hpass : (core ++ []).takeWhile (fun c => decide (c ≠ '+')) = core := by
        rw [List.append_nil, List.takeWhile_eq_self_iff]
        exact fun c hc => decide_eq_true fun heq => hcore.plus_notMem (heq ▸ hc)
      have hnone : splitOnce '+' (core ++ []) = none := by
        rw [List.append_nil]
        exact splitOnce_eq_none.mpr hcore.plus_notMem
      rw [hpass, hnone]
      exact ⟨hcore, fun _ h => nomatch h⟩
    · have hsplit : splitOnce '+' (core ++ '+' :: text) = some (core, text) :=
        splitOnce_eq_some.mpr ⟨rfl, hcore.plus_notMem⟩
      have hpass : (core ++ '+' :: text).takeWhile (fun c => decide (c ≠ '+')) = core := by
        have hall : ∀ c ∈ core, decide (c ≠ '+') = true := fun c hc =>
          decide_eq_true fun heq => hcore.plus_notMem (heq ▸ hc)
        rw [List.takeWhile_append_of_pos hall, List.takeWhile_cons_of_neg (by simp),
          List.append_nil]
      rw [hpass, hsplit]
      refine ⟨hcore, ?_⟩
      rintro _ ⟨⟩
      exact htext
  · rintro ⟨hcore, hbuild⟩
    cases hsplit : splitOnce '+' s with
    | none =>
      have hself : s.takeWhile (fun c => decide (c ≠ '+')) = s := by
        rw [List.takeWhile_eq_self_iff]
        exact fun c hc => decide_eq_true fun heq => splitOnce_eq_none.mp hsplit (heq ▸ hc)
      rw [hself] at hcore
      exact ⟨s, [], by rw [List.append_nil], hcore, .inl rfl⟩
    | some cut =>
      obtain ⟨hs, hfront⟩ := (@splitOnce_eq_some _ s cut.1 cut.2).mp hsplit
      have hfirst : s.takeWhile (fun c => decide (c ≠ '+')) = cut.1 := by
        have hall : ∀ c ∈ cut.1, decide (c ≠ '+') = true := fun c hc =>
          decide_eq_true fun heq => hfront (heq ▸ hc)
        rw [hs, List.takeWhile_append_of_pos hall, List.takeWhile_cons_of_neg (by simp),
          List.append_nil]
      rw [hfirst] at hcore
      exact ⟨cut.1, '+' :: cut.2, hs, hcore, .inr ⟨cut.2, rfl, hbuild cut hsplit⟩⟩

/-- A documented version has one `v` in front at most. -/
theorem DocumentedVersion.trim_eq (h : DocumentedVersion (documentedTrim v) p) :
    documentedTrim v = trimmedVersion v := by
  rw [documentedTrim_eq_iff]
  rintro ⟨rest, hrest⟩
  have hdoc : documentedTrim v = 'v' :: rest := by
    rw [documentedTrim, ← hrest]
    rfl
  rw [documentedVersion_iff, hdoc, List.takeWhile_cons_of_pos (by decide)] at h
  obtain ⟨c, tail, hc, hdigit⟩ := h.1.head_isDigit
  rw [← (List.cons.inj hc).1] at hdigit
  exact absurd hdigit (by decide)

/-- The parser reads what is documented, or reads more than that. -/
theorem parseVersion_eq_documented_iff :
    (∀ p, parseVersion v = some p ↔ DocumentedVersion (documentedTrim v) p) ↔
      WellSuffixed v ∨ NoCore v := by
  have hparse (p : ParsedVersion) : parseVersion v = some p ↔
      CoreVersion ((trimmedVersion v).takeWhile fun c => c ≠ '+') p := parseWithoutBuild_eq_some
  have hdoc (p : ParsedVersion) : DocumentedVersion (documentedTrim v) p ↔
      CoreVersion ((trimmedVersion v).takeWhile fun c => c ≠ '+') p ∧ WellSuffixed v := by
    constructor
    · intro h
      have htrim := h.trim_eq
      rw [htrim, documentedVersion_iff] at h
      exact ⟨h.1, documentedTrim_eq_iff.mp htrim, h.2⟩
    · rintro ⟨hcore, hone, hbuild⟩
      rw [documentedTrim_eq_iff.mpr hone, documentedVersion_iff]
      exact ⟨hcore, hbuild⟩
  simp only [hparse, hdoc, iff_self_and]
  constructor
  · intro h
    by_cases hcore : NoCore v
    · exact .inr hcore
    · simp only [NoCore, not_forall, not_not] at hcore
      obtain ⟨p, hp⟩ := hcore
      exact .inl (h p hp)
  · rintro (hwell | hcore) p hp
    · exact hwell
    · exact absurd hp (hcore p)

end Documented

section Order

variable {a b c : String}

/-- Place of a version in a linear order. -/
def rank (p : ParsedVersion) : ℕ ×ₗ ℕ ×ₗ ℕ ×ₗ ℕ :=
  toLex (p.major, toLex (p.minor, toLex (p.patch, if p.prerelease = true then 0 else 1)))

/-- Order of the numeric triples. -/
def TripleBefore (p q : ParsedVersion) : Prop :=
  p.major < q.major ∨ p.major = q.major ∧
    (p.minor < q.minor ∨ p.minor = q.minor ∧ p.patch < q.patch)

def SameTriple (p q : ParsedVersion) : Prop :=
  p.major = q.major ∧ p.minor = q.minor ∧ p.patch = q.patch

/-- The rank compares the triples first, then a prerelease with a release. -/
theorem rank_lt_iff {p q : ParsedVersion} : rank p < rank q ↔
    TripleBefore p q ∨ SameTriple p q ∧ p.prerelease = true ∧ q.prerelease = false := by
  have hlast : (if p.prerelease = true then 0 else 1) < (if q.prerelease = true then 0 else 1) ↔
      p.prerelease = true ∧ q.prerelease = false := by
    cases p.prerelease <;> cases q.prerelease <;> decide
  rw [rank, rank, Prod.Lex.toLex_lt_toLex, Prod.Lex.toLex_lt_toLex, Prod.Lex.toLex_lt_toLex,
    hlast, TripleBefore, SameTriple]
  tauto

/-- The first difference decides as the order of triples does, and between equal triples
the suffixes decide. -/
theorem firstDifference_getD (p q : ParsedVersion) :
    (firstDifference [(p.major, q.major), (p.minor, q.minor), (p.patch, q.patch)]).getD
      (p.prerelease && !q.prerelease) = true ↔ rank p < rank q := by
  have hlast : (p.prerelease && !q.prerelease) = true ↔
      p.prerelease = true ∧ q.prerelease = false := by
    rw [Bool.and_eq_true, Bool.not_eq_true']
  rw [rank_lt_iff, TripleBefore, SameTriple]
  simp only [firstDifference]
  split_ifs with h₁ h₂ h₃ h₄ h₅ h₆
  all_goals simp only [Option.getD_some, Option.getD_none, hlast]
  case neg =>
    have hsame : p.major = q.major ∧ p.minor = q.minor ∧ p.patch = q.patch := by omega
    have hnot : ¬ (p.major < q.major ∨ p.major = q.major ∧
        (p.minor < q.minor ∨ p.minor = q.minor ∧ p.patch < q.patch)) := by omega
    rw [or_iff_right hnot, and_iff_right hsame]
  all_goals simp only [true_iff, Bool.false_eq_true, false_iff]; omega

/-- Among versions the older one has the smaller rank. -/
theorem isOlderVersion_iff_rank {pa pb : ParsedVersion} (ha : parseVersion a = some pa)
    (hb : parseVersion b = some pb) : isOlderVersion a b = true ↔ rank pa < rank pb := by
  simp only [isOlderVersion, ha, hb]
  exact firstDifference_getD pa pb

/-- An older version is one of smaller rank. -/
theorem isOlderVersion_iff : isOlderVersion a b = true ↔
    ∃ pa pb, parseVersion a = some pa ∧ parseVersion b = some pb ∧ rank pa < rank pb := by
  constructor
  · intro h
    cases ha : parseVersion a with
    | none => simp [isOlderVersion, ha] at h
    | some pa =>
      cases hb : parseVersion b with
      | none => simp [isOlderVersion, ha, hb] at h
      | some pb => exact ⟨pa, pb, rfl, rfl, (isOlderVersion_iff_rank ha hb).mp h⟩
  · rintro ⟨pa, pb, ha, hb, h⟩
    exact (isOlderVersion_iff_rank ha hb).mpr h

theorem not_isOlderVersion_self (a : String) : ¬ isOlderVersion a a = true := by
  rw [isOlderVersion_iff]
  rintro ⟨pa, pa', ha, ha', h⟩
  rw [ha] at ha'
  cases ha'
  exact lt_irrefl _ h

theorem isOlderVersion_trans (hab : isOlderVersion a b = true) (hbc : isOlderVersion b c = true) :
    isOlderVersion a c = true := by
  rw [isOlderVersion_iff] at hab hbc ⊢
  obtain ⟨pa, pb, ha, hb, hab⟩ := hab
  obtain ⟨pb', pc, hb', hc, hbc⟩ := hbc
  rw [hb] at hb'
  cases hb'
  exact ⟨pa, pc, ha, hc, hab.trans hbc⟩

/-- Neither is older than the other. -/
def Incomparable (a b : String) : Prop :=
  ¬ isOlderVersion a b = true ∧ ¬ isOlderVersion b a = true

/-- Incomparable versions have one rank. -/
theorem incomparable_iff {pa pb : ParsedVersion} (ha : parseVersion a = some pa)
    (hb : parseVersion b = some pb) : Incomparable a b ↔ rank pa = rank pb := by
  rw [Incomparable, isOlderVersion_iff_rank ha hb, isOlderVersion_iff_rank hb ha, not_lt, not_lt]
  exact ⟨fun h => le_antisymm h.2 h.1, fun h => ⟨h.ge, h.le⟩⟩

theorem Incomparable.trans (hb : (parseVersion b).isSome) (hab : Incomparable a b)
    (hbc : Incomparable b c) : Incomparable a c := by
  cases ha : parseVersion a with
  | none => constructor <;> simp [isOlderVersion, ha]
  | some pa =>
    cases hc : parseVersion c with
    | none => constructor <;> simp [isOlderVersion, hc]
    | some pc =>
      obtain ⟨pb, hb⟩ := Option.isSome_iff_exists.mp hb
      rw [incomparable_iff ha hb] at hab
      rw [incomparable_iff hb hc] at hbc
      exact (incomparable_iff ha hc).mpr (hab.trans hbc)

end Order

section Statement

/-- The parser reads exactly the documented versions unless the text begins
with two `v` or has an irregular build suffix behind a version. The order is a
strict weak order that compares the triples and puts a prerelease before its
release. -/
theorem parseVersion_isOlderVersion (v : String) :
    ((∀ p, parseVersion v = some p ↔ DocumentedVersion (documentedTrim v) p) ↔
      WellSuffixed v ∨ NoCore v) ∧
    (∀ a, ¬ isOlderVersion a a = true) ∧
    (∀ a b c, isOlderVersion a b = true → isOlderVersion b c = true →
      isOlderVersion a c = true) ∧
    (∀ a b c, (parseVersion b).isSome → Incomparable a b → Incomparable b c →
      Incomparable a c) ∧
    (∀ a b pa pb, parseVersion a = some pa → parseVersion b = some pb →
      (isOlderVersion a b = true ↔ TripleBefore pa pb ∨
        SameTriple pa pb ∧ pa.prerelease = true ∧ pb.prerelease = false)) := by
  refine ⟨parseVersion_eq_documented_iff, not_isOlderVersion_self,
    fun a b c => isOlderVersion_trans, fun a b c => Incomparable.trans, ?_⟩
  intro a b pa pb ha hb
  rw [isOlderVersion_iff_rank ha hb, rank_lt_iff]

/-- A second `v` is dropped as well, and an empty build suffix is not noticed. -/
theorem parseVersion_reads_more :
    (parseVersion "vv1.2.3" = some ⟨1, 2, 3, false⟩ ∧
      ¬ DocumentedVersion (documentedTrim "vv1.2.3") ⟨1, 2, 3, false⟩) ∧
    parseVersion "1.2.3+" = some ⟨1, 2, 3, false⟩ ∧
      ¬ DocumentedVersion (documentedTrim "1.2.3+") ⟨1, 2, 3, false⟩ := by
  refine ⟨⟨by decide +kernel, fun h => ?_⟩, by decide +kernel, fun h => ?_⟩
  · have htrim := h.trim_eq
    revert htrim
    decide +kernel
  · have hbuild := (documentedVersion_iff.mp h).2 ("1.2.3".toList, []) (by decide +kernel)
    exact hbuild.1 rfl

end Statement

end Teleprompter.VersionOrder
