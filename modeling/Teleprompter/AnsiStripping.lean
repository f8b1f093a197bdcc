import Teleprompter.PatternScans

/-!
# Terminal sequences in exports

The scanner that removes terminal sequences from exported output stands in for
a regular expression. Both find the same operating system commands. A control
sequence ends for the scanner behind all its parameters; the expression bounds
a parameter to four digits, takes a digit as a final byte as well and gives
back what does not fit.
-/

namespace Teleprompter.AnsiStripping

open PatternScans

section Model

/-- The escape character. -/
def esc : Char := '\x1b'

/-- The other introducer of a control sequence. -/
def csi : Char := '\u009b'

def isIntroducer (c : Char) : Bool := c == esc || c == csi

def isIntermediate (c : Char) : Bool :=
  c == ']' || c == '[' || c == '(' || c == ')' || c == '#' || c == ';' || c == '?'

def isSeparator (c : Char) : Bool := c == ';' || c == ':'

/-- A digit or a separator of parameters. -/
def isParameter (c : Char) : Bool := c.isDigit || isSeparator c

def isFinal (c : Char) : Bool :=
  c.isDigit || ('A' ≤ c && c ≤ 'P') || ('R' ≤ c && c ≤ 'T') || c == 'Z' || c == 'c' ||
    ('f' ≤ c && c ≤ 'n') || ('q' ≤ c && c ≤ 'u') || c == 'y' || c == '=' || c == '>' ||
    c == '<' || c == '~'

/-- What is behind the first terminator of an operating system command. -/
def oscEnd : List Char → Option (List Char)
  | [] => none
  | c :: rest =>
    if c = '\x07' then some rest
    else if c = esc ∧ rest.head? = some '\\' then some rest.tail
    else if c = '\u009c' then some rest
    else oscEnd rest

/-- What is behind a final byte. -/
def finalEnd : List Char → Option (List Char)
  | [] => none
  | f :: rest => if isFinal f = true then some rest else none

/-- What is behind a control sequence, from behind its introducer on. -/
def csiEnd (rest : List Char) : Option (List Char) :=
  let afterIntermediates := rest.dropWhile isIntermediate
  if afterIntermediates.head?.any Char.isDigit = true then
    finalEnd (afterIntermediates.dropWhile isParameter)
  else finalEnd afterIntermediates

/-- What is behind a command that begins here and has an end. -/
def oscCut (s : List Char) : Option (List Char) :=
  match s with
  | c :: ']' :: body => if c = esc then oscEnd body else none
  | _ => none

/-- What the loop goes on with when it stands in front of a sequence. -/
def ansiCut (s : List Char) : Option (List Char) :=
  match oscCut s with
  | some rest => some rest
  | none =>
    match s with
    | c :: rest => if isIntroducer c = true then csiEnd rest else none
    | [] => none

/-- A text without its terminal sequences. -/
def stripAnsi (input : List Char) : List Char :=
  if input.contains esc = false ∧ input.contains csi = false then input
  else removeAll ansiCut input

end Model

section Expression

/-- A terminator of an operating system command. -/
def terminator : Pattern Char :=
  .alt (.one fun c => c == '\x07')
    (.alt (.seq (.one fun c => c == esc) (.one fun c => c == '\\')) (.one fun c => c == '\u009c'))

def oscPattern : Pattern Char :=
  .seq (.one fun c => c == esc) (.seq (.one fun c => c == ']')
    (.seq (.fewest (.one fun _ => true)) terminator))

/-- Parameters of up to four digits behind the first one. -/
def laterParameters : Pattern Char :=
  .many (.seq (.one isSeparator) (.upTo 4 (.one Char.isDigit)))

def parameters : Pattern Char :=
  .seq (.one Char.isDigit) (.seq (.upTo 3 (.one Char.isDigit)) laterParameters)

def csiPattern : Pattern Char :=
  .seq (.one isIntroducer) (.seq (.many (.one isIntermediate))
    (.seq (.alt parameters .empty) (.one isFinal)))

/-- The expression that the scanner stands in for. -/
def ansiPattern : Pattern Char := .alt oscPattern csiPattern

/-- The text without the matches of the expression. -/
def stripMatches (input : List Char) : List Char := removeAll (firstRest ansiPattern) input

end Expression

section Matching

/-- What a terminator leaves. -/
theorem head?_terminator (c : Char) (s : List Char) : (rests terminator (c :: s)).head? =
    if c = '\x07' then some s
    else if c = esc ∧ s.head? = some '\\' then some s.tail
    else if c = '\u009c' then some s else none := by
  have hbel : esc ≠ '\x07' := by decide
  have hst : esc ≠ '\u009c' := by decide
  simp only [terminator, rests_alt, rests_seq, rests_one_cons, beq_iff_eq]
  by_cases h₁ : c = '\x07'
  · simp [h₁]
  by_cases h₂ : c = esc
  · subst h₂
    cases s with
    | nil => simp [hbel, hst, rests]
    | cons d s => by_cases hd : d = '\\' <;> simp [hbel, hst, rests_one_cons, hd]
  · by_cases h₃ : c = '\u009c'
    · subst h₃
      simp [h₁, hst.symm]
    · simp [h₁, h₂, h₃]

/-- A terminator is found at the first place that has one. -/
theorem head?_fewest_terminator (s : List Char) :
    ((rests (.fewest (.one fun _ => true)) s).flatMap (rests terminator)).head? = oscEnd s := by
  induction s with
  | nil => rfl
  | cons c s ih =>
    rw [flatMap_rests_fewest_any, List.head?_append, ih, oscEnd, head?_terminator]
    split_ifs <;> rfl

/-- The expression finds the operating system commands that the scanner finds. -/
theorem firstRest_oscPattern (s : List Char) : firstRest oscPattern s = oscCut s := by
  match s with
  | [] => rfl
  | [c] =>
    have hnone : rests oscPattern [c] = [] := by
      rw [oscPattern, rests_seq_one_cons]
      split <;> rfl
    rw [firstRest, hnone]
    rfl
  | c :: d :: body =>
    rw [firstRest, oscPattern, rests_seq_one_cons, rests_seq_one_cons, rests_seq]
    by_cases hd : d = ']'
    · subst hd
      rw [oscCut, ← head?_fewest_terminator]
      by_cases hc : c = esc <;> simp [hc]
    · have hcut : oscCut (c :: d :: body) = none := by
        rw [oscCut.eq_def]
        split
        · next heq => exact absurd (List.cons.inj (List.cons.inj heq).2).1 hd
        · rfl
      have hbracket : ¬ (d == ']') = true := by simpa using hd
      rw [hcut, if_neg hbracket]
      split <;> rfl

/-- What is behind the parameters and the final byte, with the digits that the
parameter in progress may still have. A digit is a final byte where nothing else is. -/
def walk : ℕ → List Char → Option (List Char)
  | _, [] => none
  | n, c :: s =>
    if c.isDigit = true then
      match n with
      | 0 => some s
      | n + 1 => (walk n s).or (some s)
    else if isSeparator c = true then walk 4 s
    else if isFinal c = true then some s
    else none

/-- Parameters in progress and a final byte. -/
def parameterTail (n : ℕ) : Pattern Char :=
  .seq (.upTo n (.one Char.isDigit)) (.seq laterParameters (.one isFinal))

theorem isFinal_of_isDigit {c : Char} (h : c.isDigit = true) : isFinal c = true := by
  simp [isFinal, h]

theorem isDigit_false_of_isSeparator {c : Char} (h : isSeparator c = true) : c.isDigit = false := by
  rw [isSeparator, Bool.or_eq_true, beq_iff_eq, beq_iff_eq] at h
  rcases h with rfl | rfl <;> decide

theorem isFinal_false_of_isSeparator {c : Char} (h : isSeparator c = true) : isFinal c = false := by
  rw [isSeparator, Bool.or_eq_true, beq_iff_eq, beq_iff_eq] at h
  rcases h with rfl | rfl <;> decide

/-- Behind a separator another parameter is in progress. -/
theorem rests_later_separator {c : Char} (h : isSeparator c = true) (s : List Char) :
    rests (.seq laterParameters (.one isFinal)) (c :: s) = rests (parameterTail 4) s := by
  have hbody : rests (.seq (.one isSeparator) (.upTo 4 (.one Char.isDigit))) (c :: s) =
      rests (.upTo 4 (.one Char.isDigit)) s := by
    rw [rests_seq, rests_one_cons, if_pos h, List.flatMap_cons, List.flatMap_nil, List.append_nil]
  have hshort : (rests (.upTo 4 (.one Char.isDigit)) s).filter
      (fun t => t.length < (c :: s).length) = rests (.upTo 4 (.one Char.isDigit)) s := by
    refine List.filter_eq_self.mpr fun t ht => decide_eq_true ?_
    have hlen := (suffix_of_mem_rests ht).length_le
    rw [List.length_cons]
    omega
  have hlast : rests (.one isFinal) (c :: s) = [] := by
    rw [rests_one_cons, isFinal_false_of_isSeparator h]
    rfl
  rw [rests_seq, laterParameters, rests_many, hbody, hshort, List.flatMap_append,
    List.flatMap_cons, List.flatMap_nil, List.append_nil, hlast, List.append_nil, parameterTail,
    rests_seq, List.flatMap_assoc]
  rfl

/-- Elsewhere only a final byte is left. -/
theorem rests_later_other {c : Char} (h : isSeparator c = false) (s : List Char) :
    rests (.seq laterParameters (.one isFinal)) (c :: s) =
      if isFinal c = true then [s] else [] := by
  have hbody : rests (.seq (.one isSeparator) (.upTo 4 (.one Char.isDigit))) (c :: s) = [] := by
    rw [rests_seq, rests_one_cons, h]
    rfl
  rw [rests_seq, laterParameters, rests_many, hbody]
  simp [rests_one_cons]

theorem rests_later_nil : rests (.seq laterParameters (.one isFinal)) [] = [] := by
  simp [laterParameters, rests, rounds]

/-- The preferred match of parameters in progress. -/
theorem head?_parameterTail (n : ℕ) (s : List Char) :
    (rests (parameterTail n) s).head? = walk n s := by
  induction s generalizing n with
  | nil =>
    have hnil : rests (.upTo n (.one Char.isDigit)) [] = [[]] := by
      cases n <;> simp [Pattern.upTo, rests]
    rw [parameterTail, rests_seq, hnil, List.flatMap_cons, rests_later_nil]
    rfl
  | cons c s ih =>
    rw [walk.eq_def]
    dsimp only
    by_cases hdigit : c.isDigit = true
    · have hsep : isSeparator c = false := by
        rw [← Bool.not_eq_true]
        intro hsep
        rw [isDigit_false_of_isSeparator hsep] at hdigit
        cases hdigit
      rw [if_pos hdigit]
      cases n with
      | zero =>
        rw [parameterTail, rests_seq, Pattern.upTo, rests, List.flatMap_cons,
          rests_later_other hsep, if_pos (isFinal_of_isDigit hdigit)]
        rfl
      | succ n =>
        have hmore : rests (.upTo (n + 1) (.one Char.isDigit)) (c :: s) =
            rests (.upTo n (.one Char.isDigit)) s ++ [c :: s] := by
          rw [Pattern.upTo, rests_alt, rests_seq, rests_one_cons, if_pos hdigit]
          simp [rests]
        rw [parameterTail, rests_seq, hmore, List.flatMap_append, List.flatMap_cons,
          List.flatMap_nil, List.append_nil, rests_later_other hsep,
          if_pos (isFinal_of_isDigit hdigit), List.head?_append, ← rests_seq]
        have hrest := ih n
        rw [parameterTail] at hrest
        rw [hrest]
        rfl
    · have hstay : rests (.upTo n (.one Char.isDigit)) (c :: s) = [c :: s] := by
        cases n with
        | zero => rfl
        | succ n =>
          rw [Pattern.upTo, rests_alt, rests_seq, rests_one_cons, if_neg hdigit]
          rfl
      rw [if_neg hdigit, parameterTail, rests_seq, hstay, List.flatMap_cons, List.flatMap_nil,
        List.append_nil]
      by_cases hsep : isSeparator c = true
      · rw [if_pos hsep, rests_later_separator hsep, ih]
      · rw [if_neg hsep, rests_later_other (Bool.not_eq_true _ ▸ hsep)]
        split <;> rfl

/-- Only parameters and a final byte can follow the intermediate ones. -/
theorem head?_afterIntermediates (s : List Char) :
    (rests (.seq (.alt parameters .empty) (.one isFinal)) s).head? =
      if s.head?.any Char.isDigit = true then walk 4 s else finalEnd s := by
  have hempty : rests .empty s = [s] := by cases s <;> rfl
  cases s with
  | nil => simp [rests_seq, parameters, rests, finalEnd]
  | cons c s =>
    have hfinal : rests (.one isFinal) (c :: s) = if isFinal c = true then [s] else [] := rfl
    rw [rests_seq, rests_alt, hempty, List.flatMap_append, List.flatMap_cons, List.flatMap_nil,
      List.append_nil, hfinal, parameters, rests_seq_one_cons, List.head?_cons, Option.any_some]
    by_cases hdigit : c.isDigit = true
    · have htail : (rests (.seq (.upTo 3 (.one Char.isDigit)) laterParameters) s).flatMap
          (rests (.one isFinal)) = rests (parameterTail 3) s := by
        rw [rests_seq, List.flatMap_assoc]
        rfl
      rw [if_pos hdigit, if_pos hdigit, htail, if_pos (isFinal_of_isDigit hdigit),
        List.head?_append, head?_parameterTail, walk.eq_def 4]
      dsimp only
      rw [if_pos hdigit]
      rfl
    · rw [if_neg hdigit, if_neg hdigit, List.flatMap_nil, List.nil_append, finalEnd]
      split <;> rfl

/-- No intermediate byte begins what follows the intermediate ones. -/
theorem rests_intermediate {c : Char} (h : isIntermediate c = true) (s : List Char) :
    rests (.seq (.alt parameters .empty) (.one isFinal)) (c :: s) = [] := by
  have hkind : ([']', '[', '(', ')', '#', ';', '?'].all fun c =>
      !c.isDigit && !isFinal c) = true := by decide
  have hmem : c ∈ [']', '[', '(', ')', '#', ';', '?'] := by
    simpa [isIntermediate, or_assoc] using h
  obtain ⟨hdigit, hfinal⟩ : c.isDigit = false ∧ isFinal c = false := by
    simpa using List.all_eq_true.mp hkind c hmem
  rw [rests_seq, rests_alt, parameters, rests_seq_one_cons, hdigit]
  simp [rests, hfinal]

/-- What is behind a control sequence of the expression. -/
def csiMatchEnd (rest : List Char) : Option (List Char) :=
  let afterIntermediates := rest.dropWhile isIntermediate
  if afterIntermediates.head?.any Char.isDigit = true then walk 4 afterIntermediates
  else finalEnd afterIntermediates

theorem firstRest_csiPattern (c : Char) (rest : List Char) :
    firstRest csiPattern (c :: rest) =
      if isIntroducer c = true then csiMatchEnd rest else none := by
  rw [firstRest, csiPattern, rests_seq_one_cons]
  split
  · rw [rests_seq, flatMap_rests_many_one fun c s h => rests_intermediate h s,
      head?_afterIntermediates]
    rfl
  · rfl

/-- The preferred match of the expression, computed. -/
theorem firstRest_ansiPattern (c : Char) (rest : List Char) :
    firstRest ansiPattern (c :: rest) =
      (oscCut (c :: rest)).or (if isIntroducer c = true then csiMatchEnd rest else none) := by
  rw [← firstRest_csiPattern, ← firstRest_oscPattern, firstRest, ansiPattern, rests_alt,
    List.head?_append]
  rfl

end Matching

section Comparison

/-- Every parameter has the digits that are left to it, and the later ones at most four. -/
def shortParameters : ℕ → List Char → Bool
  | _, [] => true
  | n, c :: s =>
    if c.isDigit = true then
      match n with
      | 0 => false
      | n + 1 => shortParameters n s
    else if isSeparator c = true then shortParameters 4 s
    else true

/-- Parameters of at most four digits with a final byte behind them. -/
def RegularParameters (n : ℕ) (s : List Char) : Prop :=
  shortParameters n s = true ∧ (s.dropWhile isParameter).head?.any isFinal = true

/-- A control sequence that is no operating system command and begins with
digits has regular parameters. -/
def RegularAt (s : List Char) : Prop :=
  ∀ c rest, s = c :: rest → isIntroducer c = true → firstRest oscPattern s = none →
    (rest.dropWhile isIntermediate).head?.any Char.isDigit = true →
      RegularParameters 4 (rest.dropWhile isIntermediate)

/-- Behind regular parameters the expression ends with the final byte. -/
theorem walk_of_regular {n : ℕ} {s : List Char} (h : RegularParameters n s) :
    walk n s = finalEnd (s.dropWhile isParameter) ∧
      (finalEnd (s.dropWhile isParameter)).isSome = true := by
  obtain ⟨hshort, hfinal⟩ := h
  induction s generalizing n with
  | nil => cases hfinal
  | cons c s ih =>
    rw [shortParameters.eq_def] at hshort
    rw [walk.eq_def]
    dsimp only at hshort ⊢
    by_cases hdigit : c.isDigit = true
    · have hparameter : isParameter c = true := by simp [isParameter, hdigit]
      rw [if_pos hdigit] at hshort
      rw [List.dropWhile_cons_of_pos hparameter] at hfinal ⊢
      rw [if_pos hdigit]
      cases n with
      | zero => cases hshort
      | succ n =>
        obtain ⟨hwalk, hsome⟩ := ih hshort hfinal
        dsimp only
        rw [hwalk]
        exact ⟨Option.or_of_isSome hsome, hsome⟩
    · rw [if_neg hdigit] at hshort ⊢
      by_cases hsep : isSeparator c = true
      · have hparameter : isParameter c = true := by simp [isParameter, hsep]
        rw [if_pos hsep] at hshort ⊢
        rw [List.dropWhile_cons_of_pos hparameter] at hfinal ⊢
        exact ih hshort hfinal
      · have hparameter : ¬ isParameter c = true := by simp [isParameter, hdigit, hsep]
        rw [List.dropWhile_cons_of_neg hparameter] at hfinal ⊢
        have hc : isFinal c = true := by simpa using hfinal
        rw [if_neg hsep, finalEnd, if_pos hc]
        exact ⟨rfl, rfl⟩

/-- Behind irregular parameters the expression ends before their end or at it,
if it ends. -/
theorem walk_of_irregular {n : ℕ} {s : List Char} (h : ¬ RegularParameters n s) :
    walk n s = none ∨ ∃ kept, walk n s = some (kept ++ s.dropWhile isParameter) ∧
      ∀ c ∈ kept, isParameter c = true := by
  have hall (s : List Char) : s = s.takeWhile isParameter ++ s.dropWhile isParameter :=
    List.takeWhile_append_dropWhile.symm
  have hkept (s : List Char) : ∀ c ∈ s.takeWhile isParameter, isParameter c = true :=
    fun c hc => List.mem_takeWhile_imp hc
  induction s generalizing n with
  | nil => exact .inl rfl
  | cons c s ih =>
    rw [RegularParameters, shortParameters.eq_def] at h
    rw [walk.eq_def]
    dsimp only at h ⊢
    by_cases hdigit : c.isDigit = true
    · have hparameter : isParameter c = true := by simp [isParameter, hdigit]
      rw [if_pos hdigit, List.dropWhile_cons_of_pos hparameter] at h
      rw [if_pos hdigit, List.dropWhile_cons_of_pos hparameter]
      cases n with
      | zero => exact .inr ⟨s.takeWhile isParameter, congrArg some (hall s), hkept s⟩
      | succ n =>
        obtain hnone | ⟨kept, hwalk, hchars⟩ := ih h
        · dsimp only
          rw [hnone, Option.none_or]
          exact .inr ⟨s.takeWhile isParameter, congrArg some (hall s), hkept s⟩
        · dsimp only
          rw [hwalk, Option.some_or]
          exact .inr ⟨kept, rfl, hchars⟩
    · rw [if_neg hdigit] at h ⊢
      by_cases hsep : isSeparator c = true
      · have hparameter : isParameter c = true := by simp [isParameter, hsep]
        rw [if_pos hsep, List.dropWhile_cons_of_pos hparameter] at h
        rw [if_pos hsep, List.dropWhile_cons_of_pos hparameter]
        exact ih h
      · have hparameter : ¬ isParameter c = true := by simp [isParameter, hdigit, hsep]
        rw [if_neg hsep, List.dropWhile_cons_of_neg hparameter] at h
        have hc : ¬ isFinal c = true := fun hc => h ⟨rfl, by simpa using hc⟩
        rw [if_neg hsep, if_neg hc]
        exact .inl rfl

/-- Irregular parameters that begin with a digit are matched all the same. -/
theorem walk_of_irregular_digit {s : List Char} (hdigit : s.head?.any Char.isDigit = true)
    (h : ¬ RegularParameters 4 s) : ∃ kept,
      walk 4 s = some (kept ++ s.dropWhile isParameter) ∧ ∀ c ∈ kept, isParameter c = true := by
  refine (walk_of_irregular h).resolve_left fun hnone => ?_
  cases s with
  | nil => cases hdigit
  | cons c s =>
    rw [walk.eq_def] at hnone
    dsimp only at hnone
    rw [if_pos (by simpa using hdigit)] at hnone
    cases hwalk : walk 3 s <;> simp [hwalk] at hnone

end Comparison

section Agreement

theorem suffix_of_oscEnd {s rest : List Char} (h : oscEnd s = some rest) : rest <:+ s := by
  induction s with
  | nil => cases h
  | cons c s ih =>
    rw [oscEnd] at h
    split_ifs at h with hbel hst hst'
    · cases h
      exact List.suffix_cons c _
    · cases h
      exact (List.tail_suffix s).trans (List.suffix_cons c s)
    · cases h
      exact List.suffix_cons c _
    · exact (ih h).trans (List.suffix_cons c s)

theorem suffix_of_finalEnd {s rest : List Char} (h : finalEnd s = some rest) : rest <:+ s := by
  cases s with
  | nil => cases h
  | cons c s =>
    rw [finalEnd] at h
    split at h
    · cases h
      exact List.suffix_cons c _
    · cases h

theorem suffix_of_csiEnd {s rest : List Char} (h : csiEnd s = some rest) : rest <:+ s := by
  rw [csiEnd] at h
  split at h
  · exact ((suffix_of_finalEnd h).trans (List.dropWhile_suffix _)).trans (List.dropWhile_suffix _)
  · exact (suffix_of_finalEnd h).trans (List.dropWhile_suffix _)

/-- The scanner cuts off at an introducer only, and the introducer with what it cuts off. -/
theorem ansiCut_eq_some {s rest : List Char} (h : ansiCut s = some rest) :
    ∃ c body, s = c :: body ∧ isIntroducer c = true ∧ rest <:+ body := by
  rw [ansiCut.eq_def] at h
  cases hosc : oscCut s with
  | some rest' =>
    rw [hosc] at h
    obtain rfl := Option.some.inj h
    rw [oscCut.eq_def] at hosc
    split at hosc
    · next c body =>
      split at hosc
      · next hc =>
        subst hc
        exact ⟨esc, ']' :: body, rfl, rfl, (suffix_of_oscEnd hosc).trans (List.suffix_cons _ _)⟩
      · cases hosc
    · cases hosc
  | none =>
    rw [hosc] at h
    cases s with
    | nil => cases h
    | cons c body =>
      dsimp only at h
      split at h
      · next hc => exact ⟨c, body, rfl, hc, suffix_of_csiEnd h⟩
      · cases h

theorem shortens_ansiCut : Shortens ansiCut := by
  intro s rest h
  obtain ⟨c, body, rfl, -, hsuffix⟩ := ansiCut_eq_some h
  exact Nat.lt_succ_of_le hsuffix.length_le

theorem oscCut_eq_none_of_not_introducer {c : Char} (hc : isIntroducer c = false)
    (rest : List Char) : oscCut (c :: rest) = none := by
  rw [oscCut.eq_def]
  split
  · next heq =>
    refine if_neg fun hesc => ?_
    rw [(List.cons.inj heq).1, hesc] at hc
    cases hc
  · rfl

theorem ansiCut_of_not_introducer {c : Char} (hc : isIntroducer c = false) (rest : List Char) :
    ansiCut (c :: rest) = none := by
  rw [ansiCut, oscCut_eq_none_of_not_introducer hc]
  dsimp only
  rw [if_neg (by rw [hc]; decide)]

theorem firstRest_of_not_introducer {c : Char} (hc : isIntroducer c = false) (rest : List Char) :
    firstRest ansiPattern (c :: rest) = none := by
  rw [firstRest_ansiPattern, oscCut_eq_none_of_not_introducer hc, if_neg (by rw [hc]; decide)]
  rfl

theorem shortens_firstRest : Shortens (firstRest ansiPattern) := by
  intro s rest h
  have hmem : rest ∈ rests ansiPattern s := List.mem_of_head? h
  rw [ansiPattern, rests_alt, List.mem_append, oscPattern, csiPattern] at hmem
  cases s with
  | nil => rcases hmem with hmem | hmem <;> cases hmem
  | cons c s =>
    rw [rests_seq_one_cons, rests_seq_one_cons] at hmem
    obtain hmem | hmem := hmem <;> split at hmem
    · exact Nat.lt_succ_of_le (suffix_of_mem_rests hmem).length_le
    · cases hmem
    · exact Nat.lt_succ_of_le (suffix_of_mem_rests hmem).length_le
    · cases hmem

/-- At a regular place both find the same. -/
theorem ansiCut_of_regular {s : List Char} (h : RegularAt s) :
    ansiCut s = firstRest ansiPattern s := by
  cases s with
  | nil => rfl
  | cons c rest =>
    rw [firstRest_ansiPattern, ansiCut]
    cases hosc : oscCut (c :: rest) with
    | some rest' => rfl
    | none =>
      rw [Option.none_or]
      dsimp only
      split
      · next hc =>
        rw [csiEnd, csiMatchEnd]
        split
        · next hdigit =>
          have hnone := (firstRest_oscPattern (c :: rest)).trans hosc
          exact (walk_of_regular (h c rest rfl hc hnone hdigit)).1.symm
        · rfl
      · rfl

/-- At an irregular place the parameters are those of neither a command nor of a
sequence that fits the expression as a whole. -/
theorem irregular_parts {s : List Char} (h : ¬ RegularAt s) : ∃ c front kept p,
    s = c :: (front ++ p) ∧ isIntroducer c = true ∧
      (∀ d ∈ front, isIntroducer d = false) ∧ (∀ d ∈ kept, isIntroducer d = false) ∧
      ansiCut s = finalEnd p ∧ firstRest ansiPattern s = some (kept ++ p) := by
  simp only [RegularAt, not_forall] at h
  obtain ⟨c, rest, rfl, hc, hosc, hdigit, hregular⟩ := h
  rw [firstRest_oscPattern] at hosc
  obtain ⟨kept, hwalk, hkept⟩ := walk_of_irregular_digit hdigit hregular
  have hparameter {d : Char} (hd : isParameter d = true) : isIntroducer d = false := by
    rw [← Bool.not_eq_true]
    intro hi
    rw [isIntroducer, Bool.or_eq_true, beq_iff_eq, beq_iff_eq] at hi
    rcases hi with rfl | rfl <;> exact absurd hd (by decide)
  have hintermediate {d : Char} (hd : isIntermediate d = true) : isIntroducer d = false := by
    rw [← Bool.not_eq_true]
    intro hi
    rw [isIntroducer, Bool.or_eq_true, beq_iff_eq, beq_iff_eq] at hi
    rcases hi with rfl | rfl <;> exact absurd hd (by decide)
  refine ⟨c, rest.takeWhile isIntermediate ++
    (rest.dropWhile isIntermediate).takeWhile isParameter, kept,
    (rest.dropWhile isIntermediate).dropWhile isParameter, ?_, hc, ?_,
    fun d hd => hparameter (hkept d hd), ?_, ?_⟩
  · rw [List.append_assoc, List.takeWhile_append_dropWhile, List.takeWhile_append_dropWhile]
  · intro d hd
    obtain hd | hd := List.mem_append.mp hd
    · exact hintermediate (List.mem_takeWhile_imp hd)
    · exact hparameter (List.mem_takeWhile_imp hd)
  · rw [ansiCut, hosc]
    dsimp only
    rw [if_pos hc, csiEnd]
    exact if_pos hdigit
  · rw [firstRest_ansiPattern, hosc, Option.none_or, if_pos hc, csiMatchEnd]
    rw [if_pos hdigit, hwalk]

/-- The introducers that are left in a text. -/
def introducers (s : List Char) : ℕ := s.countP isIntroducer

/-- The scanner has left more introducers, or as many and less of the rest. -/
def Differs (code expression : List Char) : Prop :=
  introducers expression < introducers code ∨
    introducers expression = introducers code ∧ code.length < expression.length

theorem Differs.cons {code expression : List Char} (h : Differs code expression) (c : Char) :
    Differs (c :: code) (c :: expression) := by
  rw [Differs, introducers, introducers, List.countP_cons, List.countP_cons, List.length_cons,
    List.length_cons]
  rw [Differs, introducers, introducers] at h
  omega

theorem Differs.ne {code expression : List Char} (h : Differs code expression) :
    code ≠ expression := by
  rintro rfl
  rw [Differs] at h
  omega

theorem introducers_append {front : List Char} (h : ∀ d ∈ front, isIntroducer d = false)
    (s : List Char) : introducers (front ++ s) = introducers s := by
  have hfront : front.countP isIntroducer = 0 :=
    List.countP_eq_zero.mpr fun d hd => by simp [h d hd]
  rw [introducers, List.countP_append, hfront, Nat.zero_add, introducers]

/-- Behind an irregular place the outputs are apart, whatever follows: without a final
byte the scanner keeps the introducer and what it has looked at, and with one it cuts
off that byte, which the expression leaves. -/
theorem differs_of_irregular {s : List Char} (h : ¬ RegularAt s)
    (hrest : ∀ rest : List Char, rest.length < s.length →
      removeAll ansiCut rest = removeAll (firstRest ansiPattern) rest ∨
        Differs (removeAll ansiCut rest) (removeAll (firstRest ansiPattern) rest)) :
    Differs (removeAll ansiCut s) (removeAll (firstRest ansiPattern) s) := by
  obtain ⟨c, front, kept, p, rfl, hc, hfront, hkept, hcut, hfirst⟩ := irregular_parts h
  have hexpression : removeAll (firstRest ansiPattern) (c :: (front ++ p)) =
      kept ++ removeAll (firstRest ansiPattern) p := by
    rw [removeAll_of_some shortens_firstRest hfirst,
      removeAll_append fun d hd s => firstRest_of_not_introducer (hkept d hd) s]
  rw [hexpression]
  cases hfinal : finalEnd p with
  | none =>
    have hkeeps : removeAll ansiCut (c :: (front ++ p)) = c :: (front ++ removeAll ansiCut p) := by
      rw [removeAll_of_none (hcut.trans hfinal),
        removeAll_append fun d hd s => ansiCut_of_not_introducer (hfront d hd) s]
    have hone : introducers (c :: (front ++ removeAll ansiCut p)) =
        introducers (removeAll ansiCut p) + 1 := by
      rw [introducers, List.countP_cons_of_pos hc, ← introducers, introducers_append hfront]
    have hlen : p.length < (c :: (front ++ p)).length := by
      rw [List.length_cons, List.length_append]
      omega
    rw [hkeeps, Differs, hone, introducers_append hkept]
    obtain heq | hdiffers := hrest p hlen
    · rw [heq]
      omega
    · rw [Differs] at hdiffers
      omega
  | some rest =>
    have hcode : removeAll ansiCut (c :: (front ++ p)) = removeAll ansiCut rest :=
      removeAll_of_some shortens_ansiCut (hcut.trans hfinal)
    cases p with
    | nil => cases hfinal
    | cons f p =>
      rw [finalEnd] at hfinal
      split at hfinal
      · next hf =>
        obtain rfl := Option.some.inj hfinal
        have hplain : isIntroducer f = false := by
          rw [← Bool.not_eq_true]
          intro hi
          rw [isIntroducer, Bool.or_eq_true, beq_iff_eq, beq_iff_eq] at hi
          rcases hi with rfl | rfl <;> exact absurd hf (by decide)
        have hlen : p.length < (c :: (front ++ f :: p)).length := by
          rw [List.length_cons, List.length_append, List.length_cons]
          omega
        rw [hcode, removeAll_of_none (firstRest_of_not_introducer hplain p), Differs,
          introducers_append hkept, introducers, introducers, List.length_append,
          List.countP_cons_of_neg (by rw [hplain]; decide), List.length_cons, ← introducers,
          ← introducers]
        obtain heq | hdiffers := hrest p hlen
        · rw [heq]
          omega
        · rw [Differs] at hdiffers
          omega
      · cases hfinal

theorem removeAll_eq_of_regular {s : List Char}
    (h : AllScanned (firstRest ansiPattern) RegularAt s) :
    removeAll ansiCut s = removeAll (firstRest ansiPattern) s :=
  ((h.imp fun _ hregular => (ansiCut_of_regular hregular).symm).removeAll_eq shortens_firstRest
    shortens_ansiCut).symm

/-- Either every place is regular and the outputs are the same, or they are apart. -/
theorem regular_or_differs (s : List Char) : AllScanned (firstRest ansiPattern) RegularAt s ∨
    Differs (removeAll ansiCut s) (removeAll (firstRest ansiPattern) s) := by
  induction hn : s.length using Nat.strong_induction_on generalizing s with
  | _ n ih =>
    subst hn
    by_cases hregular : RegularAt s
    · have heq := ansiCut_of_regular hregular
      cases hcut : ansiCut s with
      | some rest =>
        rw [removeAll_of_some shortens_ansiCut hcut,
          removeAll_of_some shortens_firstRest (heq ▸ hcut)]
        exact (ih _ (shortens_ansiCut _ _ hcut) rest rfl).imp_left (.cut hregular (heq ▸ hcut))
      | none =>
        cases s with
        | nil => exact .inl .nil
        | cons c s =>
          rw [removeAll_of_none hcut, removeAll_of_none (heq ▸ hcut)]
          exact (ih _ (Nat.lt_succ_self _) s rfl).imp (.keep hregular (heq ▸ hcut))
            fun h => h.cons c
    · exact .inr (differs_of_irregular hregular fun rest hlen =>
        (ih _ hlen rest rfl).imp_left removeAll_eq_of_regular)

/-- Without an introducer there is nothing to cut off. -/
theorem stripAnsi_eq_removeAll (input : List Char) : stripAnsi input = removeAll ansiCut input := by
  rw [stripAnsi]
  split
  · next h =>
    have hplain (c : Char) (hc : c ∈ input) : isIntroducer c = false := by
      rw [isIntroducer, Bool.or_eq_false_iff, beq_eq_false_iff_ne, beq_eq_false_iff_ne]
      constructor
      · rintro rfl
        simp [hc] at h
      · rintro rfl
        simp [hc] at h
    have hkeep := removeAll_append
      (fun c hc s => ansiCut_of_not_introducer (hplain c hc) s) ([] : List Char)
    rw [List.append_nil, removeAll_nil, List.append_nil] at hkeep
    exact hkeep.symm
  · rfl

end Agreement

/-- The scanner removes what the expression matches exactly where the parameters of
every control sequence that a scan comes to have at most four digits and a final byte
behind them. -/
theorem stripAnsi_eq_stripMatches_iff (input : List Char) :
    stripAnsi input = stripMatches input ↔
      AllScanned (firstRest ansiPattern) RegularAt input := by
  rw [stripAnsi_eq_removeAll, stripMatches]
  constructor
  · intro heq
    exact (regular_or_differs input).resolve_right fun h => h.ne heq
  · exact removeAll_eq_of_regular

/-- The scanner takes the final byte behind a parameter of five digits, where the
expression takes the fifth digit for it; without a final byte it leaves the
introducer, where the expression takes the last digit for the final byte. -/
theorem stripAnsi_long_parameter :
    stripAnsi ("\x1b[12345m".toList) = [] ∧ stripMatches ("\x1b[12345m".toList) = ['m'] ∧
      stripAnsi ("\x1b[12X".toList) = "\x1b[12X".toList ∧
      stripMatches ("\x1b[12X".toList) = ['X'] := by
  decide

end Teleprompter.AnsiStripping
