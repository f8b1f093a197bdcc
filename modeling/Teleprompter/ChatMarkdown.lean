import Teleprompter.PairingLink
import Teleprompter.PatternScans
import Teleprompter.Segmentations
import Teleprompter.ToggledWalks

/-!
# Blocks of a chat message

A message is parsed line by line into fenced code, headings, lists and
paragraphs. A regular expression decides what a line is; what a block keeps of
the line is cut out by other code, character by character. A character here is
what a reader sees as one, so it may be made of several code points.
-/

namespace Teleprompter.ChatMarkdown

open PairingLink (isWhitespace)
open PatternScans Segmentations ToggledWalks

/-- Code points of a line. -/
abbrev Line := List Char

section Characters

/-- Separators that are spaces. -/
def isSpaceSeparator (c : Char) : Bool :=
  (0x2000 ≤ c.toNat && c.toNat ≤ 0x200a) ||
    [0x20, 0xa0, 0x1680, 0x202f, 0x205f, 0x3000].contains c.toNat

/-- The set of white space that trimming uses: the separators and the tab. -/
def isInlineSpace (c : Char) : Bool := isSpaceSeparator c || c == '\t'

/-- White space of a regular expression. -/
def isSpace (c : Char) : Bool :=
  isSpaceSeparator c || [0x09, 0x0a, 0x0c, 0x0d, 0x2028, 0x2029].contains c.toNat

/-- Where the dot of a regular expression stops. -/
def isLineEnd (c : Char) : Bool :=
  (10 ≤ c.toNat && c.toNat ≤ 13) || [0x85, 0x2028, 0x2029].contains c.toNat

def isBlank (c : Char) : Bool := c == ' ' || c == '\t'

def isHash (c : Char) : Bool := c == '#'

def isBullet (c : Char) : Bool := c == '-' || c == '*'

/-- What the platform knows of code points: the decimal digits, and how code points
join to characters. -/
structure Unicode where
  /-- Digits of a regular expression. -/
  isDecimal : Char → Bool
  /-- Characters of a text. -/
  characters : Segmentation Char
  /-- A digit is no white space and none of the marks. -/
  decimal : ∀ c, isDecimal c = true →
    isWhitespace c = false ∧ c ∉ ['.', '-', '*', '#', '`', '\u1fef']
  /-- Only what joins the code point in front of it or behind it does not stand alone. A newline
  joins a carriage return. -/
  alone : ∀ c, c ≠ '\n' → c.toNat < 128 ∨ isWhitespace c = true ∨ isDecimal c = true →
    characters.alone c = true

/-- Every code point as a character. -/
def codePoints : Segmentation Char where
  alone _ := true
  parts s := s.map fun c => [c]
  flatten_parts s := by
    induction s with
    | nil => rfl
    | cons c s ih => rw [List.map_cons, List.flatten_cons, ih, List.singleton_append]
  ne_nil s g hg := by
    obtain ⟨c, -, rfl⟩ := List.mem_map.mp hg
    exact List.cons_ne_nil c []
  boundary _ _ _ _ _ := rfl

/-- Texts in which no code points join, with the digits of ASCII. -/
def plainUnicode : Unicode where
  isDecimal := Char.isDigit
  characters := codePoints
  decimal c hc := by
    have hrange : 48 ≤ c.toNat ∧ c.toNat ≤ 57 := by
      rw [Char.isDigit, Bool.and_eq_true, decide_eq_true_eq, decide_eq_true_eq] at hc
      exact hc
    constructor
    · simp only [isWhitespace, Bool.or_eq_false_iff, Bool.and_eq_false_iff, decide_eq_false_iff_not,
        List.contains_eq_mem, List.mem_cons, List.not_mem_nil, or_false, not_or]
      omega
    · intro hmem
      have hvalues : c.toNat ∈ (['.', '-', '*', '#', '`', '\u1fef'].map Char.toNat) :=
        List.mem_map_of_mem hmem
      simp at hvalues
      omega
  alone _ _ _ := rfl

end Characters

section Model

variable (u : Unicode)

/-- A text without the code points of a set at both ends. -/
def trimmingCharacters (p : Char → Bool) (s : List Char) : List Char :=
  (s.dropWhile p).rdropWhile p

/-- Each carriage return with a newline becomes a newline. -/
def replaceCrLf : List Char → List Char
  | '\r' :: '\n' :: s => '\n' :: replaceCrLf s
  | c :: s => c :: replaceCrLf s
  | [] => []

/-- Lines of a message. -/
def markdownLines (markdown : List Char) : List Line :=
  ((replaceCrLf markdown).map fun c => if c = '\r' then '\n' else c).splitOn '\n'

/-- The expression `\s+(.*)`. -/
def spaceAndText : Pattern Char :=
  .seq (.one isSpace) (.seq (.many (.one isSpace)) (.many (.one fun c => !isLineEnd c)))

/-- The expression `^(#{1,3})` with something behind it. -/
def headingPattern (behind : Pattern Char) : Pattern Char :=
  .seq (.one isHash) (.seq (.upTo 2 (.one isHash)) behind)

/-- The expression `^\s*[-*]` with something behind it. -/
def bulletPattern (behind : Pattern Char) : Pattern Char :=
  .seq (.many (.one isSpace)) (.seq (.one isBullet) behind)

/-- The expression `^\s*\d+\.` with something behind it. -/
def numberPattern (behind : Pattern Char) : Pattern Char :=
  .seq (.many (.one isSpace)) (.seq (.one u.isDecimal) (.seq (.many (.one u.isDecimal))
    (.seq (.one fun c => c == '.') behind)))

/-- A backtick, or the accent that is equal to it. -/
def isBacktick (g : List Char) : Bool := g == ['`'] || g == ['\u1fef']

/-- A line that begins with three backticks. -/
def isFence (line : Line) : Bool :=
  match u.characters.parts (trimmingCharacters isBlank line) with
  | a :: b :: c :: _ => isBacktick a && isBacktick b && isBacktick c
  | _ => false

/-- What is behind the three backticks. -/
def fenceInfo (line : Line) : List Char :=
  ((u.characters.parts (trimmingCharacters isBlank line)).drop 3).flatten

def fenceLang (line : Line) : List Char := trimmingCharacters isInlineSpace (fenceInfo u line)

/-- A character that is dropped in front of the text of a heading. -/
def isHeadingMark (g : List Char) : Bool := g == ['#'] || g == [' ']

/-- Text of a heading, from what the expression matched. -/
def headingText (raw : List Char) : List Char :=
  trimmingCharacters isInlineSpace (u.characters.dropParts isHeadingMark raw)

def headingLevel (raw : List Char) : ℕ :=
  min ((u.characters.parts raw).takeWhile fun g => g == ['#']).length 3

/-- A character that is dropped in front of the text of an item. -/
def isItemMark (g : List Char) : Bool := g == [' '] || g == ['\t'] || g == ['-'] || g == ['*']

def extractUl (l : Line) : Option (List Char) :=
  (matched (bulletPattern spaceAndText) l).map fun full =>
    u.characters.dropParts (fun g => g == [' ']) (u.characters.dropParts isItemMark full)

def extractOl (l : Line) : Option (List Char) :=
  (matched (numberPattern u spaceAndText) l).bind fun full =>
    match (u.characters.parts full).dropWhile fun g => g != ['.'] with
    | [] => none
    | _ :: behind => some (trimmingCharacters isInlineSpace behind.flatten)

/-- Blocks of a message. -/
inductive MdBlock where
  | heading (level : ℕ) (text : List Char)
  | code (lang code : List Char)
  | list (ordered : Bool) (items : List (List Char))
  | para (text : List Char)
  deriving DecidableEq

/-- Lines up to the fence that closes a block of code, and the lines behind that fence. -/
def codeLines : List Line → List Line × List Line
  | [] => ([], [])
  | line :: more =>
    if isFence u line = true then ([], more)
    else (line :: (codeLines more).1, (codeLines more).2)

/-- Items of the lines that have one, and the lines behind them. -/
def itemLines (extract : Line → Option (List Char)) : List Line → List (List Char) × List Line
  | [] => ([], [])
  | line :: more =>
    match extract line with
    | none => ([], line :: more)
    | some item => (item :: (itemLines extract more).1, (itemLines extract more).2)

/-- A line in front of which a paragraph ends. -/
def endsPara (line : Line) : Bool :=
  (trimmingCharacters isBlank line).isEmpty || isFence u line ||
    (firstRest (headingPattern (.one isSpace)) line).isSome ||
    (firstRest (bulletPattern (.one isSpace)) line).isSome ||
    (firstRest (numberPattern u (.one isSpace)) line).isSome

/-- Lines that go on with a paragraph, and the lines behind it. -/
def paraLines : List Line → List Line × List Line
  | [] => ([], [])
  | line :: more =>
    if endsPara u line = true then ([], line :: more)
    else (line :: (paraLines more).1, (paraLines more).2)

def joined (lines : List Line) : List Char := ['\n'].intercalate lines

/-- The loop over the lines, with a bound on its rounds. -/
def parseLoop : ℕ → List Line → Option (List MdBlock)
  | _, [] => some []
  | 0, _ :: _ => none
  | n + 1, line :: more =>
    if isFence u line = true then
      (parseLoop n (codeLines u more).2).map
        (.code (fenceLang u line) (joined (codeLines u more).1) :: ·)
    else
      match matched (headingPattern spaceAndText) line with
      | some raw =>
        (parseLoop n more).map (.heading (headingLevel u raw) (headingText u raw) :: ·)
      | none =>
        if (matched (bulletPattern spaceAndText) line).isSome = true then
          (parseLoop n (itemLines (extractUl u) more).2).map
            (.list false ((extractUl u line).getD [] :: (itemLines (extractUl u) more).1) :: ·)
        else if (matched (numberPattern u spaceAndText) line).isSome = true then
          (parseLoop n (itemLines (extractOl u) more).2).map
            (.list true ((extractOl u line).getD [] :: (itemLines (extractOl u) more).1) :: ·)
        else if (trimmingCharacters isBlank line).isEmpty = true then parseLoop n more
        else
          (parseLoop n (paraLines u more).2).map
            (.para (joined (line :: (paraLines u more).1)) :: ·)

/-- Blocks of a message, when the bound on the rounds suffices. -/
def parseMdBlocks (n : ℕ) (markdown : List Char) : Option (List MdBlock) :=
  parseLoop u n (markdownLines markdown)

end Model

section Lines

variable (u : Unicode)

/-- What is behind a run of up to three hashes that begins the line. -/
def headingTail : Line → Option (List Char)
  | [] => none
  | c :: s => if isHash c = true then some (s.drop (min 2 (s.takeWhile isHash).length)) else none

/-- What is behind a bullet in front of which is only white space. -/
def bulletTail (line : Line) : Option (List Char) :=
  match line.dropWhile isSpace with
  | [] => none
  | c :: s => if isBullet c = true then some s else none

/-- What is behind a number with a dot in front of which is only white space. -/
def numberTail (line : Line) : Option (List Char) :=
  match line.dropWhile isSpace with
  | [] => none
  | c :: s =>
    if u.isDecimal c = true then
      match s.dropWhile u.isDecimal with
      | [] => none
      | d :: t => if d = '.' then some t else none
    else none

/-- A mark has white space behind it. -/
def marked (tail : Option (List Char)) : Option (List Char) :=
  tail.filter fun t => t.head?.any isSpace

/-- What is behind a mark and its white space. -/
def behindSpace (tail : List Char) : List Char := tail.dropWhile isSpace

/-- What a line is, with what is behind its mark. -/
inductive LineKind where
  | fence
  | heading (tail : List Char)
  | bullet (tail : List Char)
  | number (tail : List Char)
  | plain

def lineKind (line : Line) : LineKind :=
  if isFence u line = true then .fence
  else
    match marked (headingTail line) with
    | some tail => .heading tail
    | none =>
      match marked (bulletTail line) with
      | some tail => .bullet tail
      | none =>
        match marked (numberTail u line) with
        | some tail => .number tail
        | none => .plain

end Lines

section Matches

variable (u : Unicode)

/-- A space differs from what is none. -/
theorem ne_of_isSpace {c d : Char} (h : isSpace c = true) (hd : isSpace d = false) : c ≠ d := by
  rintro rfl
  rw [h] at hd
  cases hd

/-- White space and text behind it take everything up to the end of a line. -/
theorem firstRest_spaceAndText (s : List Char) : firstRest spaceAndText s =
    if s.head?.any isSpace = true then some ((behindSpace s).dropWhile fun c => !isLineEnd c)
    else none := by
  cases s with
  | nil => rfl
  | cons c s =>
    have htext := firstRest_seq (firstRest_many_one isSpace s)
      (firstRest_many_one (fun c => !isLineEnd c) (s.dropWhile isSpace))
    rw [firstRest, spaceAndText, rests_seq_one_cons, List.head?_cons, Option.any_some]
    cases hc : isSpace c with
    | false => rfl
    | true =>
      rw [if_pos rfl, if_pos rfl, behindSpace, List.dropWhile_cons, if_pos hc]
      exact htext

/-- One character is matched when it is there. -/
theorem firstRest_one (p : Char → Bool) (s : List Char) :
    (firstRest (.one p) s).isSome = s.head?.any p := by
  cases s with
  | nil => rfl
  | cons c s =>
    rw [firstRest, rests_one_cons, List.head?_cons, Option.any_some]
    cases p c <;> rfl

/-- The engine gives hashes back only in front of a hash. -/
theorem firstRest_headingPattern {behind : Pattern Char} (h : ∀ s, rests behind ('#' :: s) = [])
    (line : Line) :
    firstRest (headingPattern behind) line = (headingTail line).bind (firstRest behind) := by
  cases line with
  | nil => rfl
  | cons c s =>
    have hreject : ∀ d t, isHash d = true → rests behind (d :: t) = [] := by
      intro d t hd
      rw [eq_of_beq hd]
      exact h t
    rw [firstRest, headingPattern, rests_seq_one_cons, headingTail]
    cases hc : isHash c with
    | false => rfl
    | true =>
      rw [if_pos rfl, if_pos rfl, rests_seq, flatMap_rests_upTo_one hreject]
      rfl

/-- A space is not a bullet. -/
theorem not_bullet_of_isSpace {c : Char} (h : isSpace c = true) : isBullet c = false := by
  have hminus := ne_of_isSpace h (d := '-') (by decide)
  have hstar := ne_of_isSpace h (d := '*') (by decide)
  rw [isBullet, beq_false_of_ne hminus, beq_false_of_ne hstar]
  rfl

/-- The bullet pattern is matched behind the bullet. -/
theorem firstRest_bulletPattern (behind : Pattern Char) (line : Line) :
    firstRest (bulletPattern behind) line = (bulletTail line).bind (firstRest behind) := by
  have hreject : ∀ c s, isSpace c = true →
      rests (.seq (.one isBullet) behind) (c :: s) = [] := by
    intro c s hc
    rw [rests_seq_one_cons, not_bullet_of_isSpace hc]
    rfl
  rw [firstRest, bulletPattern, rests_seq, flatMap_rests_many_one hreject, bulletTail]
  cases line.dropWhile isSpace with
  | nil => rfl
  | cons c s =>
    dsimp only
    rw [rests_seq_one_cons]
    cases isBullet c <;> rfl

/-- An inline space is white. -/
theorem isWhitespace_of_isInlineSpace {c : Char} (h : isInlineSpace c = true) :
    isWhitespace c = true := by
  rw [isInlineSpace, Bool.or_eq_true, beq_iff_eq] at h
  obtain h | rfl := h
  · simp only [isSpaceSeparator, isWhitespace, Bool.or_eq_true, Bool.and_eq_true,
      decide_eq_true_eq, List.contains_eq_mem, List.mem_cons, List.not_mem_nil, or_false] at h ⊢
    omega
  · rfl

/-- A space is white. -/
theorem isWhitespace_of_isSpace {c : Char} (h : isSpace c = true) : isWhitespace c = true := by
  simp only [isSpace, isSpaceSeparator, isWhitespace, Bool.or_eq_true, Bool.and_eq_true,
    decide_eq_true_eq, List.contains_eq_mem, List.mem_cons, List.not_mem_nil, or_false] at h ⊢
  omega

/-- A space is not a digit. -/
theorem not_decimal_of_isSpace {c : Char} (h : isSpace c = true) : u.isDecimal c = false := by
  by_contra hdecimal
  have hwhite := (u.decimal c (eq_true_of_ne_false hdecimal)).1
  rw [isWhitespace_of_isSpace h] at hwhite
  cases hwhite

/-- A digit is not a dot. -/
theorem not_dot_of_isDecimal {c : Char} (h : u.isDecimal c = true) : c ≠ '.' :=
  fun hdot => (u.decimal c h).2 (hdot ▸ List.mem_cons_self)

/-- The number pattern is matched behind the number and its dot. -/
theorem firstRest_numberPattern (behind : Pattern Char) (line : Line) :
    firstRest (numberPattern u behind) line = (numberTail u line).bind (firstRest behind) := by
  have hspace : ∀ c s, isSpace c = true → rests (.seq (.one u.isDecimal)
      (.seq (.many (.one u.isDecimal)) (.seq (.one fun c => c == '.') behind))) (c :: s) = [] := by
    intro c s hc
    rw [rests_seq_one_cons, not_decimal_of_isSpace u hc]
    rfl
  have hdecimal : ∀ c s, u.isDecimal c = true →
      rests (.seq (.one fun c => c == '.') behind) (c :: s) = [] := by
    intro c s hc
    rw [rests_seq_one_cons, beq_false_of_ne (not_dot_of_isDecimal u hc)]
    rfl
  rw [firstRest, numberPattern, rests_seq, flatMap_rests_many_one hspace, numberTail]
  cases line.dropWhile isSpace with
  | nil => rfl
  | cons c s =>
    dsimp only
    rw [rests_seq_one_cons]
    cases u.isDecimal c with
    | false => rfl
    | true =>
      rw [if_pos rfl, if_pos rfl, rests_seq, flatMap_rests_many_one hdecimal]
      cases s.dropWhile u.isDecimal with
      | nil => rfl
      | cons d t =>
        dsimp only
        rw [rests_seq_one_cons]
        by_cases hd : d = '.'
        · rw [if_pos hd, if_pos (beq_iff_eq.mpr hd)]
          rfl
        · rw [if_neg hd, if_neg (fun h => hd (beq_iff_eq.mp h))]
          rfl

end Matches

section Kinds

variable (u : Unicode)

/-- Behind a mark, the spaces and the rest of the line are matched. -/
theorem matched_spaceAndText {pattern : Pattern Char} {front tail : List Char}
    (hpattern : firstRest pattern (front ++ tail) = firstRest spaceAndText tail)
    (h : tail.head?.any isSpace = true) : matched pattern (front ++ tail) =
      some (front ++ (tail.takeWhile isSpace ++
        (behindSpace tail).takeWhile fun c => !isLineEnd c)) := by
  have htail : tail = (tail.takeWhile isSpace ++ (behindSpace tail).takeWhile fun c => !isLineEnd c)
      ++ (behindSpace tail).dropWhile fun c => !isLineEnd c := by
    rw [List.append_assoc, List.takeWhile_append_dropWhile, behindSpace,
      List.takeWhile_append_dropWhile]
  rw [firstRest_spaceAndText, if_pos h] at hpattern
  have hmatched := @matched_append _ pattern (front ++ (tail.takeWhile isSpace ++
    (behindSpace tail).takeWhile fun c => !isLineEnd c))
    ((behindSpace tail).dropWhile fun c => !isLineEnd c)
  rw [List.append_assoc, ← htail] at hmatched
  exact hmatched hpattern

/-- Spaces and a text are matched where the mark counts. -/
theorem firstRest_spaceAndText_isSome (tail : Option (List Char)) :
    (tail.bind (firstRest spaceAndText)).isSome = (marked tail).isSome := by
  cases tail with
  | none => rfl
  | some t =>
    rw [Option.bind_some, firstRest_spaceAndText, marked, Option.filter]
    split <;> rfl

/-- One space is matched where the mark counts. -/
theorem firstRest_one_isSome (tail : Option (List Char)) :
    (tail.bind (firstRest (.one isSpace))).isSome = (marked tail).isSome := by
  cases tail with
  | none => rfl
  | some t =>
    rw [Option.bind_some, firstRest_one, marked, Option.filter]
    cases t.head?.any isSpace <;> rfl

/-- Something is matched when the pattern has a rest. -/
theorem matched_isSome (pattern : Pattern Char) (s : List Char) :
    (matched pattern s).isSome = (firstRest pattern s).isSome :=
  Option.isSome_map

/-- A further hash is not a space. -/
theorem rests_spaceAndText_hash (s : List Char) : rests spaceAndText ('#' :: s) = [] := by
  rw [spaceAndText, rests_seq_one_cons]
  rfl

/-- The loop and the paragraphs recognise headings alike, and so they do items. -/
theorem matched_heading_isSome (line : Line) :
    (matched (headingPattern spaceAndText) line).isSome = (marked (headingTail line)).isSome := by
  rw [matched_isSome, firstRest_headingPattern rests_spaceAndText_hash,
    firstRest_spaceAndText_isSome]

/-- The bullet pattern matches where the bullet counts. -/
theorem matched_bullet_isSome (line : Line) :
    (matched (bulletPattern spaceAndText) line).isSome = (marked (bulletTail line)).isSome := by
  rw [matched_isSome, firstRest_bulletPattern, firstRest_spaceAndText_isSome]

/-- The number pattern matches where the number counts. -/
theorem matched_number_isSome (line : Line) :
    (matched (numberPattern u spaceAndText) line).isSome = (marked (numberTail u line)).isSome := by
  rw [matched_isSome, firstRest_numberPattern, firstRest_spaceAndText_isSome]

/-- A paragraph ends at a blank line and at every line with a mark. -/
theorem endsPara_eq (line : Line) : endsPara u line =
    ((trimmingCharacters isBlank line).isEmpty || isFence u line ||
      (marked (headingTail line)).isSome || (marked (bulletTail line)).isSome ||
      (marked (numberTail u line)).isSome) := by
  rw [endsPara, firstRest_headingPattern (fun s => rfl), firstRest_bulletPattern,
    firstRest_numberPattern, firstRest_one_isSome, firstRest_one_isSome, firstRest_one_isSome]

/-- The first code point that is no white space. -/
def firstInk (line : Line) : Option Char := (line.dropWhile isSpace).head?

/-- A blank is a space. -/
theorem isSpace_of_isBlank {c : Char} (h : isBlank c = true) : isSpace c = true := by
  rw [isBlank, Bool.or_eq_true, beq_iff_eq, beq_iff_eq] at h
  obtain rfl | rfl := h <;> rfl

/-- What stands behind dropped spaces is the first ink. -/
theorem firstInk_of_head? {line : Line} {p : Char → Bool} (hp : ∀ c, p c = true → isSpace c = true)
    {c : Char} (h : (line.dropWhile p).head? = some c) (hc : isSpace c = false) :
    firstInk line = some c := by
  induction line with
  | nil => cases h
  | cons d line ih =>
    rw [firstInk, List.dropWhile_cons]
    by_cases hd : p d = true
    · rw [List.dropWhile_cons, if_pos hd] at h
      rw [if_pos (hp d hd)]
      exact ih h
    · rw [List.dropWhile_cons, if_neg hd, List.head?_cons] at h
      injection h with h
      rw [h, if_neg (ne_true_of_eq_false hc)]
      rfl

/-- A fence begins with a backtick, or with what is equal to it. -/
theorem firstInk_of_isFence {line : Line} (h : isFence u line = true) :
    firstInk line = some '`' ∨ firstInk line = some '\u1fef' := by
  rw [isFence] at h
  split at h
  · next a b c more hparts =>
    have ha : isBacktick a = true := by
      rw [Bool.and_eq_true, Bool.and_eq_true] at h
      exact h.1.1
    have htrimmed := u.characters.flatten_parts (trimmingCharacters isBlank line)
    rw [hparts, List.flatten_cons, trimmingCharacters] at htrimmed
    have hbegins : (a ++ (b :: c :: more).flatten) <+: line.dropWhile isBlank := by
      rw [htrimmed]
      exact List.rdropWhile_prefix _ _
    obtain ⟨rest, hrest⟩ := hbegins
    rw [isBacktick, Bool.or_eq_true, beq_iff_eq, beq_iff_eq] at ha
    obtain rfl | rfl := ha
    · exact .inl (firstInk_of_head? (fun _ => isSpace_of_isBlank) (by rw [← hrest]; rfl) rfl)
    · exact .inr (firstInk_of_head? (fun _ => isSpace_of_isBlank) (by rw [← hrest]; rfl) rfl)
  · cases h

/-- A heading begins with a hash. -/
theorem firstInk_of_headingTail {line : Line} {tail : List Char}
    (h : headingTail line = some tail) : firstInk line = some '#' := by
  cases line with
  | nil => cases h
  | cons c s =>
    rw [headingTail] at h
    split at h
    · next hc =>
      obtain rfl := eq_of_beq hc
      rfl
    · cases h

/-- A bullet begins with a dash or a star. -/
theorem firstInk_of_bulletTail {line : Line} {tail : List Char} (h : bulletTail line = some tail) :
    firstInk line = some '-' ∨ firstInk line = some '*' := by
  rw [bulletTail] at h
  rw [firstInk]
  split at h
  · cases h
  · next c s hline =>
    rw [hline]
    split at h
    · next hc =>
      rw [isBullet, Bool.or_eq_true, beq_iff_eq, beq_iff_eq] at hc
      exact hc.imp (congrArg some) (congrArg some)
    · cases h

/-- A number begins with a digit. -/
theorem firstInk_of_numberTail {line : Line} {tail : List Char}
    (h : numberTail u line = some tail) : ∃ c, firstInk line = some c ∧ u.isDecimal c = true := by
  rw [numberTail] at h
  rw [firstInk]
  split at h
  · cases h
  · next c s hline =>
    rw [hline]
    split at h
    · next hc => exact ⟨c, rfl, hc⟩
    · cases h

/-- An item is no fence and no heading. -/
theorem exclusive_of_bulletTail {line : Line} {tail : List Char}
    (h : bulletTail line = some tail) : isFence u line = false ∧ headingTail line = none := by
  have hink := firstInk_of_bulletTail h
  constructor
  · by_contra hfence
    have hbacktick := firstInk_of_isFence u (eq_true_of_ne_false hfence)
    rcases hink with hink | hink <;> rw [hink] at hbacktick <;> simp at hbacktick
  · by_contra hheading
    obtain ⟨hashes, hhashes⟩ := Option.ne_none_iff_exists'.mp hheading
    have hhash := firstInk_of_headingTail hhashes
    rcases hink with hink | hink <;> rw [hink] at hhash <;> simp at hhash

/-- A number is no fence, no heading and no bullet. -/
theorem exclusive_of_numberTail {line : Line} {tail : List Char}
    (h : numberTail u line = some tail) :
    isFence u line = false ∧ headingTail line = none ∧ bulletTail line = none := by
  obtain ⟨c, hink, hc⟩ := firstInk_of_numberTail u h
  have hmarks := (u.decimal c hc).2
  simp only [List.mem_cons, List.not_mem_nil, or_false, not_or] at hmarks
  obtain ⟨-, hminus, hstar, hhash, hbacktick, haccent⟩ := hmarks
  refine ⟨?_, ?_, ?_⟩
  · by_contra hfence
    rcases firstInk_of_isFence u (eq_true_of_ne_false hfence) with heq | heq <;>
      rw [hink, Option.some_inj] at heq <;> contradiction
  · by_contra hheading
    obtain ⟨hashes, hhashes⟩ := Option.ne_none_iff_exists'.mp hheading
    have heq := firstInk_of_headingTail hhashes
    rw [hink, Option.some_inj] at heq
    contradiction
  · by_contra hbullet
    obtain ⟨item, hitem⟩ := Option.ne_none_iff_exists'.mp hbullet
    rcases firstInk_of_bulletTail hitem with heq | heq <;>
      rw [hink, Option.some_inj] at heq <;> contradiction

end Kinds

section Walk

variable (u : Unicode)

def nonwhite (s : List Char) : List Char := s.filter fun c => !isWhitespace c

def MdBlock.text : MdBlock → List Char
  | .heading _ t => t
  | .code lang body => lang ++ body
  | .list _ items => items.flatten
  | .para t => t

def MdBlock.items : MdBlock → List (List Char)
  | .list _ items => items
  | _ => []

/-- What the blocks keep of a line. -/
def kept (inCode : Bool) (line : Line) : List Char :=
  match inCode, lineKind u line with
  | true, .fence => []
  | true, _ => nonwhite line
  | false, .fence => nonwhite (fenceLang u line)
  | false, .heading _ =>
    nonwhite (headingText u ((matched (headingPattern spaceAndText) line).getD []))
  | false, .bullet _ => nonwhite ((extractUl u line).getD [])
  | false, .number _ => nonwhite ((extractOl u line).getD [])
  | false, .plain => nonwhite line

/-- The item that a line becomes. -/
def keptItems (inCode : Bool) (line : Line) : List (List Char) :=
  match inCode, lineKind u line with
  | false, .bullet _ => [(extractUl u line).getD []]
  | false, .number _ => [(extractOl u line).getD []]
  | _, _ => []

/-- The ink of two texts together. -/
theorem nonwhite_append (s t : List Char) : nonwhite (s ++ t) = nonwhite s ++ nonwhite t :=
  List.filter_append s t

/-- Dropping spaces keeps the ink. -/
theorem nonwhite_dropWhile {p : Char → Bool} (hp : ∀ c, p c = true → isWhitespace c = true)
    (s : List Char) : nonwhite (s.dropWhile p) = nonwhite s := by
  have hfront : nonwhite (s.takeWhile p) = [] := by
    refine List.filter_eq_nil_iff.mpr fun c hc => ?_
    rw [hp c (List.mem_takeWhile_imp hc)]
    decide
  have hs := nonwhite_append (s.takeWhile p) (s.dropWhile p)
  rw [List.takeWhile_append_dropWhile, hfront, List.nil_append] at hs
  exact hs.symm

/-- Trimming white space loses nothing else. -/
theorem nonwhite_trimmingCharacters {p : Char → Bool}
    (hp : ∀ c, p c = true → isWhitespace c = true) (s : List Char) :
    nonwhite (trimmingCharacters p s) = nonwhite s := by
  rw [trimmingCharacters, List.rdropWhile, nonwhite, List.filter_reverse, ← nonwhite,
    nonwhite_dropWhile hp, nonwhite, List.filter_reverse, List.reverse_reverse, ← nonwhite,
    nonwhite_dropWhile hp]

/-- A blank is white. -/
theorem isWhitespace_of_isBlank {c : Char} (h : isBlank c = true) : isWhitespace c = true :=
  isWhitespace_of_isSpace (isSpace_of_isBlank h)

/-- The ink of many texts together. -/
theorem nonwhite_flatten (l : List (List Char)) : nonwhite l.flatten = l.flatMap nonwhite := by
  rw [nonwhite, List.filter_flatten]
  rfl

/-- Joining lines keeps their ink. -/
theorem nonwhite_joined (lines : List Line) : nonwhite (joined lines) = lines.flatMap nonwhite := by
  induction lines with
  | nil => rfl
  | cons line more ih =>
    cases more with
    | nil => simp [joined, nonwhite]
    | cons next more =>
      have hnewline : nonwhite ['\n'] = [] := rfl
      rw [joined, List.intercalate_cons_cons, nonwhite_append, nonwhite_append, ← joined, ih,
        hnewline, List.append_nil]
      rfl

/-- A fence is one whatever else it looks like. -/
theorem lineKind_of_fence {line : Line} (h : isFence u line = true) : lineKind u line = .fence := by
  rw [lineKind, if_pos h]

/-- A heading mark makes a heading of a line that is no fence. -/
theorem lineKind_of_heading {line : Line} {tail : List Char} (hfence : isFence u line = false)
    (h : marked (headingTail line) = some tail) : lineKind u line = .heading tail := by
  rw [lineKind, hfence, if_neg (by decide), h]

/-- A bullet makes an item. -/
theorem lineKind_of_bullet {line : Line} {tail : List Char}
    (h : marked (bulletTail line) = some tail) : lineKind u line = .bullet tail := by
  obtain ⟨hbullet, -⟩ := Option.filter_eq_some_iff.mp h
  obtain ⟨hfence, hheading⟩ := exclusive_of_bulletTail u hbullet
  rw [lineKind, hfence, if_neg (by decide), hheading, h]
  rfl

/-- A number makes a numbered item. -/
theorem lineKind_of_number {line : Line} {tail : List Char}
    (h : marked (numberTail u line) = some tail) : lineKind u line = .number tail := by
  obtain ⟨hnumber, -⟩ := Option.filter_eq_some_iff.mp h
  obtain ⟨hfence, hheading, hbullet⟩ := exclusive_of_numberTail u hnumber
  rw [lineKind, hfence, if_neg (by decide), hheading, hbullet, h]
  rfl

/-- A line is what the first test that it passes says. -/
theorem lineKind_cases (line : Line) : isFence u line = true ∨ isFence u line = false ∧
    ((∃ tail, marked (headingTail line) = some tail) ∨ marked (headingTail line) = none ∧
      ((∃ tail, marked (bulletTail line) = some tail) ∨ marked (bulletTail line) = none ∧
        ((∃ tail, marked (numberTail u line) = some tail) ∨
          marked (numberTail u line) = none ∧ lineKind u line = .plain))) := by
  cases hfence : isFence u line with
  | true => exact .inl rfl
  | false =>
    refine .inr ⟨rfl, ?_⟩
    cases hheading : marked (headingTail line) with
    | some tail => exact .inl ⟨tail, rfl⟩
    | none =>
      refine .inr ⟨rfl, ?_⟩
      cases hbullet : marked (bulletTail line) with
      | some tail => exact .inl ⟨tail, rfl⟩
      | none =>
        refine .inr ⟨rfl, ?_⟩
        cases hnumber : marked (numberTail u line) with
        | some tail => exact .inl ⟨tail, rfl⟩
        | none =>
          refine .inr ⟨rfl, ?_⟩
          rw [lineKind, hfence, if_neg (by decide), hheading, hbullet, hnumber]

/-- An item of a bullet list is a line with a bullet. -/
theorem lineKind_of_extractUl {line : Line} {item : List Char} (h : extractUl u line = some item) :
    ∃ tail, lineKind u line = .bullet tail := by
  have hsome : (marked (bulletTail line)).isSome = true := by
    rw [← matched_bullet_isSome, ← Option.isSome_map, ← extractUl, h]
    rfl
  obtain ⟨tail, htail⟩ := Option.isSome_iff_exists.mp hsome
  exact ⟨tail, lineKind_of_bullet u htail⟩

/-- A line with a numbered item has a number. -/
theorem lineKind_of_extractOl {line : Line} {item : List Char} (h : extractOl u line = some item) :
    ∃ tail, lineKind u line = .number tail := by
  have hsome : (marked (numberTail u line)).isSome = true := by
    obtain ⟨full, hfull, -⟩ := Option.bind_eq_some_iff.mp h
    rw [← matched_number_isSome, hfull]
    rfl
  obtain ⟨tail, htail⟩ := Option.isSome_iff_exists.mp hsome
  exact ⟨tail, lineKind_of_number u htail⟩

/-- A line of another kind is no fence. -/
theorem not_isFence_of_lineKind {line : Line} (h : lineKind u line ≠ .fence) :
    isFence u line = false := by
  by_contra hfence
  exact h (lineKind_of_fence u (eq_true_of_ne_false hfence))

/-- A paragraph goes on with plain lines. -/
theorem lineKind_of_not_endsPara {line : Line} (h : endsPara u line = false) :
    lineKind u line = .plain := by
  rw [endsPara_eq] at h
  simp only [Bool.or_eq_false_iff, Option.isSome_eq_false_iff, Option.isNone_iff_eq_none] at h
  obtain ⟨⟨⟨⟨-, hfence⟩, hheading⟩, hbullet⟩, hnumber⟩ := h
  rw [lineKind, hfence, if_neg (by decide), hheading, hbullet, hnumber]

/-- Code goes on until a fence. -/
theorem codeLines_cons (line : Line) (more : List Line) : codeLines u (line :: more) =
    if isFence u line = true then ([], more)
    else (line :: (codeLines u more).1, (codeLines u more).2) := rfl

/-- A list goes on as long as its items do. -/
theorem itemLines_cons (extract : Line → Option (List Char)) (line : Line) (more : List Line) :
    itemLines extract (line :: more) =
      match extract line with
      | none => ([], line :: more)
      | some item => (item :: (itemLines extract more).1, (itemLines extract more).2) := rfl

/-- A paragraph goes on until a line ends it. -/
theorem paraLines_cons (line : Line) (more : List Line) : paraLines u (line :: more) =
    if endsPara u line = true then ([], line :: more)
    else (line :: (paraLines u more).1, (paraLines u more).2) := rfl

section Runs

variable {β : Type} {f : Bool → Line → List β}

/-- A block of code gives what its lines give, and nothing for the fence behind them. -/
theorem collect_codeLines {g : Line → List β}
    (hfence : ∀ line, isFence u line = true → f true line = [])
    (hline : ∀ line, isFence u line = false → f true line = g line) (lines : List Line) :
    collect (isFence u) f true lines = (codeLines u lines).1.flatMap g ++
      collect (isFence u) f false (codeLines u lines).2 := by
  induction lines with
  | nil => rfl
  | cons line more ih =>
    rw [collect_cons, codeLines_cons]
    cases h : isFence u line with
    | true =>
      rw [if_pos rfl, hfence line h]
      rfl
    | false =>
      rw [if_neg (by decide), hline line h, List.flatMap_cons, List.append_assoc, ← ih]
      rfl

/-- The loop over the items gives what the items give. -/
theorem collect_itemLines {extract : Line → Option (List Char)} {g : List Char → List β}
    (h : ∀ line item, extract line = some item → isFence u line = false ∧ f false line = g item)
    (lines : List Line) : collect (isFence u) f false lines =
      (itemLines extract lines).1.flatMap g ++
        collect (isFence u) f false (itemLines extract lines).2 := by
  induction lines with
  | nil => rfl
  | cons line more ih =>
    rw [itemLines_cons]
    cases hline : extract line with
    | none => rfl
    | some item =>
      obtain ⟨hfence, hitem⟩ := h line item hline
      rw [collect_cons, hfence, hitem, List.flatMap_cons, List.append_assoc, ← ih]
      rfl

/-- What is collected from a paragraph comes from its lines. -/
theorem collect_paraLines {g : Line → List β}
    (h : ∀ line, endsPara u line = false → f false line = g line) (lines : List Line) :
    collect (isFence u) f false lines = (paraLines u lines).1.flatMap g ++
      collect (isFence u) f false (paraLines u lines).2 := by
  induction lines with
  | nil => rfl
  | cons line more ih =>
    rw [paraLines_cons]
    cases hline : endsPara u line with
    | true => rfl
    | false =>
      have hkind := lineKind_of_not_endsPara u hline
      have hfence := @not_isFence_of_lineKind u line (by rw [hkind]; exact LineKind.noConfusion)
      rw [collect_cons, hfence, h line hline, if_neg (by decide), List.flatMap_cons, List.append_assoc,
        ← ih]
      rfl

end Runs

/-- Code leaves no more lines than there are. -/
theorem length_codeLines (lines : List Line) : (codeLines u lines).2.length ≤ lines.length := by
  induction lines with
  | nil => exact Nat.le_refl _
  | cons line more ih =>
    rw [codeLines_cons]
    split
    · exact Nat.le_succ _
    · exact Nat.le_succ_of_le ih

/-- A list leaves no more lines than there are. -/
theorem length_itemLines (extract : Line → Option (List Char)) (lines : List Line) :
    (itemLines extract lines).2.length ≤ lines.length := by
  induction lines with
  | nil => exact Nat.le_refl _
  | cons line more ih =>
    rw [itemLines_cons]
    split
    · exact Nat.le_refl _
    · exact Nat.le_succ_of_le ih

/-- A paragraph leaves no more lines than there are. -/
theorem length_paraLines (lines : List Line) : (paraLines u lines).2.length ≤ lines.length := by
  induction lines with
  | nil => exact Nat.le_refl _
  | cons line more ih =>
    rw [paraLines_cons]
    split
    · exact Nat.le_refl _
    · exact Nat.le_succ_of_le ih

/-- Blocks that the loop returns for these lines, with any bound that suffices, and that keep
what is kept line by line. -/
structure Reads (lines : List Line) (blocks : List MdBlock) : Prop where
  /-- The loop returns the blocks. -/
  returned : ∀ n, lines.length ≤ n → parseLoop u n lines = some blocks
  /-- They have the ink that is kept of the lines. -/
  text : nonwhite (blocks.flatMap MdBlock.text) = collect (isFence u) (kept u) false lines
  /-- They have the items that are kept of the lines. -/
  items : blocks.flatMap MdBlock.items = collect (isFence u) (keptItems u) false lines

variable {u}

/-- A round of the loop makes a block of some lines and goes on behind them. -/
theorem Reads.cons {line : Line} {more rest : List Line} {block : MdBlock} {blocks : List MdBlock}
    (hrest : Reads u rest blocks) (hlength : rest.length ≤ more.length)
    (hround : ∀ n, parseLoop u (n + 1) (line :: more) = (parseLoop u n rest).map (block :: ·))
    (htext : collect (isFence u) (kept u) false (line :: more) =
      nonwhite block.text ++ collect (isFence u) (kept u) false rest)
    (hitems : collect (isFence u) (keptItems u) false (line :: more) =
      block.items ++ collect (isFence u) (keptItems u) false rest) :
    Reads u (line :: more) (block :: blocks) where
  returned n hn := by
    cases n with
    | zero => cases hn
    | succ n =>
      have hle : rest.length ≤ n := hlength.trans (Nat.le_of_succ_le_succ hn)
      rw [hround, hrest.returned n hle]
      rfl
  text := by rw [List.flatMap_cons, nonwhite_append, hrest.text, htext]
  items := by rw [List.flatMap_cons, hrest.items, hitems]

/-- Inside code the ink of a line is kept, and that of the fence is not. -/
theorem kept_inCode (line : Line) :
    kept u true line = if isFence u line = true then [] else nonwhite line := by
  rw [kept.eq_def]
  rcases lineKind_cases u line with h | ⟨h, ⟨t, ht⟩ | ⟨-, ⟨t, ht⟩ | ⟨-, ⟨t, ht⟩ | ⟨-, hplain⟩⟩⟩⟩
  · rw [lineKind_of_fence u h, if_pos h]
  · rw [lineKind_of_heading u h ht, h, if_neg (by decide)]
  · rw [lineKind_of_bullet u ht, h, if_neg (by decide)]
  · rw [lineKind_of_number u ht, h, if_neg (by decide)]
  · rw [hplain, h, if_neg (by decide)]

/-- Inside code there are no items. -/
theorem keptItems_inCode (line : Line) : keptItems u true line = [] := by
  rw [keptItems.eq_def]

section KindsKept

variable {line : Line} {tail : List Char}

/-- Of a fence the language is kept. -/
theorem kept_of_fence (h : lineKind u line = .fence) :
    kept u false line = nonwhite (fenceLang u line) ∧ keptItems u false line = [] := by
  rw [kept.eq_def, keptItems.eq_def, h]
  exact ⟨rfl, rfl⟩

/-- Of a heading the text is kept. -/
theorem kept_of_heading (h : lineKind u line = .heading tail) : kept u false line =
      nonwhite (headingText u ((matched (headingPattern spaceAndText) line).getD [])) ∧
    keptItems u false line = [] := by
  rw [kept.eq_def, keptItems.eq_def, h]
  exact ⟨rfl, rfl⟩

/-- Of a bullet the item is kept. -/
theorem kept_of_bullet (h : lineKind u line = .bullet tail) :
    kept u false line = nonwhite ((extractUl u line).getD []) ∧
      keptItems u false line = [(extractUl u line).getD []] := by
  rw [kept.eq_def, keptItems.eq_def, h]
  exact ⟨rfl, rfl⟩

/-- Of a number the item is kept. -/
theorem kept_of_number (h : lineKind u line = .number tail) :
    kept u false line = nonwhite ((extractOl u line).getD []) ∧
      keptItems u false line = [(extractOl u line).getD []] := by
  rw [kept.eq_def, keptItems.eq_def, h]
  exact ⟨rfl, rfl⟩

/-- Of a plain line all ink is kept. -/
theorem kept_of_plain (h : lineKind u line = .plain) :
    kept u false line = nonwhite line ∧ keptItems u false line = [] := by
  rw [kept.eq_def, keptItems.eq_def, h]
  exact ⟨rfl, rfl⟩

end KindsKept

/-- A round of the loop. -/
theorem parseLoop_succ_cons (n : ℕ) (line : Line) (more : List Line) :
    parseLoop u (n + 1) (line :: more) =
      if isFence u line = true then
        (parseLoop u n (codeLines u more).2).map
          (.code (fenceLang u line) (joined (codeLines u more).1) :: ·)
      else
        match matched (headingPattern spaceAndText) line with
        | some raw =>
          (parseLoop u n more).map (.heading (headingLevel u raw) (headingText u raw) :: ·)
        | none =>
          if (matched (bulletPattern spaceAndText) line).isSome = true then
            (parseLoop u n (itemLines (extractUl u) more).2).map
              (.list false ((extractUl u line).getD [] :: (itemLines (extractUl u) more).1) :: ·)
          else if (matched (numberPattern u spaceAndText) line).isSome = true then
            (parseLoop u n (itemLines (extractOl u) more).2).map
              (.list true ((extractOl u line).getD [] :: (itemLines (extractOl u) more).1) :: ·)
          else if (trimmingCharacters isBlank line).isEmpty = true then parseLoop u n more
          else
            (parseLoop u n (paraLines u more).2).map
              (.para (joined (line :: (paraLines u more).1)) :: ·) := rfl

/-- The round for a fence. -/
theorem Reads.fence {line : Line} {more : List Line} {blocks : List MdBlock}
    (h : isFence u line = true) (hrest : Reads u (codeLines u more).2 blocks) :
    Reads u (line :: more)
      (.code (fenceLang u line) (joined (codeLines u more).1) :: blocks) := by
  have hkind := lineKind_of_fence u h
  have hclosing : ∀ l, isFence u l = true → kept u true l = [] :=
    fun l hl => by rw [kept_inCode, if_pos hl]
  have hcode : ∀ l, isFence u l = false → kept u true l = nonwhite l :=
    fun l hl => by rw [kept_inCode, hl, if_neg (by decide)]
  refine hrest.cons (length_codeLines u more) (fun n => ?_) ?_ ?_
  · rw [parseLoop_succ_cons, if_pos h]
  · rw [collect_cons, h, MdBlock.text, nonwhite_append, nonwhite_joined, List.append_assoc,
      Bool.false_bne, collect_codeLines u hclosing hcode, (kept_of_fence hkind).1]
  · have hnone : ∀ l, keptItems u true l = [] := keptItems_inCode
    rw [collect_cons, h, Bool.false_bne,
      collect_codeLines u (fun l _ => hnone l) (fun l _ => hnone l), (kept_of_fence hkind).2,
      List.flatMap_eq_nil_iff.mpr fun _ _ => rfl]
    rfl

/-- The round for a heading. -/
theorem Reads.heading {line : Line} {more : List Line} {blocks : List MdBlock}
    {tail : List Char} (hfence : isFence u line = false)
    (h : marked (headingTail line) = some tail) (hrest : Reads u more blocks) :
    ∃ block, Reads u (line :: more) (block :: blocks) := by
  have hkind := lineKind_of_heading u hfence h
  have hsome : (matched (headingPattern spaceAndText) line).isSome = true := by
    rw [matched_heading_isSome, h]
    rfl
  obtain ⟨raw, hraw⟩ := Option.isSome_iff_exists.mp hsome
  refine ⟨.heading (headingLevel u raw) (headingText u raw),
    hrest.cons (Nat.le_refl _) (fun n => ?_) ?_ ?_⟩
  · rw [parseLoop_succ_cons, hfence, if_neg (by decide), hraw]
  · rw [collect_cons, hfence, (kept_of_heading hkind).1, hraw]
    rfl
  · rw [collect_cons, hfence, (kept_of_heading hkind).2]
    rfl

/-- The round for a list, whatever its items are cut out by. -/
theorem Reads.list {extract : Line → Option (List Char)} (ordered : Bool) {line : Line}
    {more : List Line} {blocks : List MdBlock} (hfence : isFence u line = false)
    (hround : ∀ n, parseLoop u (n + 1) (line :: more) =
      (parseLoop u n (itemLines extract more).2).map
        (.list ordered ((extract line).getD [] :: (itemLines extract more).1) :: ·))
    (htext : kept u false line = nonwhite ((extract line).getD []))
    (hitems : keptItems u false line = [(extract line).getD []])
    (hitem : ∀ l item, extract l = some item → isFence u l = false ∧
      kept u false l = nonwhite item ∧ keptItems u false l = [item])
    (hrest : Reads u (itemLines extract more).2 blocks) :
    Reads u (line :: more)
      (.list ordered ((extract line).getD [] :: (itemLines extract more).1) :: blocks) := by
  refine hrest.cons (length_itemLines extract more) hround ?_ ?_
  · rw [collect_cons, hfence, Bool.bne_false, htext, MdBlock.text, List.flatten_cons, nonwhite_append,
      nonwhite_flatten, List.append_assoc,
      collect_itemLines u fun l item hl => ⟨(hitem l item hl).1, (hitem l item hl).2.1⟩]
  · rw [collect_cons, hfence, Bool.bne_false, hitems,
      collect_itemLines u fun l item hl => ⟨(hitem l item hl).1, (hitem l item hl).2.2⟩,
      List.flatMap_singleton']
    rfl

/-- The round for a list with bullets. -/
theorem Reads.bullet {line : Line} {more : List Line} {blocks : List MdBlock}
    {tail : List Char} (h : marked (bulletTail line) = some tail)
    (hrest : Reads u (itemLines (extractUl u) more).2 blocks) :
    ∃ block, Reads u (line :: more) (block :: blocks) := by
  have hkind := lineKind_of_bullet u h
  have hfence := @not_isFence_of_lineKind u line (by rw [hkind]; exact LineKind.noConfusion)
  have hheading : matched (headingPattern spaceAndText) line = none := by
    obtain ⟨hbullet, -⟩ := Option.filter_eq_some_iff.mp h
    rw [← Option.isNone_iff_eq_none, ← Option.isSome_eq_false_iff, matched_heading_isSome,
      (exclusive_of_bulletTail u hbullet).2]
    rfl
  have hitem : ∀ l item, extractUl u l = some item → isFence u l = false ∧
      kept u false l = nonwhite item ∧ keptItems u false l = [item] := by
    intro l item hl
    obtain ⟨t, ht⟩ := lineKind_of_extractUl u hl
    have hplace := @not_isFence_of_lineKind u l (by rw [ht]; exact LineKind.noConfusion)
    obtain ⟨htext, hitems⟩ := kept_of_bullet ht
    rw [hl] at htext hitems
    exact ⟨hplace, htext, hitems⟩
  refine ⟨_, hrest.list false hfence (fun n => ?_) (kept_of_bullet hkind).1
    (kept_of_bullet hkind).2 hitem⟩
  rw [parseLoop_succ_cons, hfence, if_neg (by decide), hheading]
  dsimp only
  rw [matched_bullet_isSome, h, Option.isSome_some, if_pos rfl]

/-- The round for a list with numbers. -/
theorem Reads.number {line : Line} {more : List Line} {blocks : List MdBlock}
    {tail : List Char} (h : marked (numberTail u line) = some tail)
    (hrest : Reads u (itemLines (extractOl u) more).2 blocks) :
    ∃ block, Reads u (line :: more) (block :: blocks) := by
  have hkind := lineKind_of_number u h
  obtain ⟨hnumber, -⟩ := Option.filter_eq_some_iff.mp h
  obtain ⟨hfence, htail, hbullet⟩ := exclusive_of_numberTail u hnumber
  have hheading : matched (headingPattern spaceAndText) line = none := by
    rw [← Option.isNone_iff_eq_none, ← Option.isSome_eq_false_iff, matched_heading_isSome, htail]
    rfl
  have hitem : ∀ l item, extractOl u l = some item → isFence u l = false ∧
      kept u false l = nonwhite item ∧ keptItems u false l = [item] := by
    intro l item hl
    obtain ⟨t, ht⟩ := lineKind_of_extractOl u hl
    have hplace := @not_isFence_of_lineKind u l (by rw [ht]; exact LineKind.noConfusion)
    obtain ⟨htext, hitems⟩ := kept_of_number ht
    rw [hl] at htext hitems
    exact ⟨hplace, htext, hitems⟩
  refine ⟨_, hrest.list true hfence (fun n => ?_) (kept_of_number hkind).1
    (kept_of_number hkind).2 hitem⟩
  rw [parseLoop_succ_cons, hfence, if_neg (by decide), hheading]
  dsimp only
  rw [matched_bullet_isSome, hbullet, matched_number_isSome, h, if_neg (by decide),
    Option.isSome_some, if_pos rfl]

/-- The rounds for a line that no test recognises. -/
theorem parseLoop_plain {line : Line} (hfence : isFence u line = false)
    (hheading : marked (headingTail line) = none) (hbullet : marked (bulletTail line) = none)
    (hnumber : marked (numberTail u line) = none) (n : ℕ) (more : List Line) :
    parseLoop u (n + 1) (line :: more) =
      if (trimmingCharacters isBlank line).isEmpty = true then parseLoop u n more
      else (parseLoop u n (paraLines u more).2).map
        (.para (joined (line :: (paraLines u more).1)) :: ·) := by
  have hraw : matched (headingPattern spaceAndText) line = none := by
    rw [← Option.isNone_iff_eq_none, ← Option.isSome_eq_false_iff, matched_heading_isSome, hheading]
    rfl
  rw [parseLoop_succ_cons, hfence, if_neg (by decide), hraw]
  dsimp only
  rw [matched_bullet_isSome, hbullet, matched_number_isSome, hnumber, if_neg (by decide),
    if_neg (by decide)]

/-- The round for a blank line. -/
theorem Reads.blank {line : Line} {more : List Line} {blocks : List MdBlock}
    (hround : ∀ n, parseLoop u (n + 1) (line :: more) = parseLoop u n more)
    (hblank : (trimmingCharacters isBlank line).isEmpty = true)
    (hfence : isFence u line = false) (hkind : lineKind u line = .plain)
    (hrest : Reads u more blocks) : Reads u (line :: more) blocks where
  returned n hn := by
    cases n with
    | zero => cases hn
    | succ n =>
      rw [hround]
      exact hrest.returned n (Nat.le_of_succ_le_succ hn)
  text := by
    have hnone : nonwhite line = [] := by
      rw [← nonwhite_trimmingCharacters fun _ => isWhitespace_of_isBlank,
        List.isEmpty_iff.mp hblank]
      rfl
    rw [hrest.text, collect_cons, hfence, (kept_of_plain hkind).1, hnone]
    rfl
  items := by
    rw [hrest.items, collect_cons, hfence, (kept_of_plain hkind).2]
    rfl

/-- The round for a paragraph. -/
theorem Reads.para {line : Line} {more : List Line} {blocks : List MdBlock}
    (hround : ∀ n, parseLoop u (n + 1) (line :: more) = (parseLoop u n (paraLines u more).2).map
      (.para (joined (line :: (paraLines u more).1)) :: ·))
    (hfence : isFence u line = false) (hkind : lineKind u line = .plain)
    (hrest : Reads u (paraLines u more).2 blocks) :
    Reads u (line :: more) (.para (joined (line :: (paraLines u more).1)) :: blocks) := by
  refine hrest.cons (length_paraLines u more) hround ?_ ?_
  · rw [collect_cons, hfence, Bool.bne_false, (kept_of_plain hkind).1, MdBlock.text,
      nonwhite_joined, List.flatMap_cons, List.append_assoc,
      collect_paraLines u fun l hl => (kept_of_plain (lineKind_of_not_endsPara u hl)).1]
  · rw [collect_cons, hfence, Bool.bne_false, (kept_of_plain hkind).2,
      collect_paraLines u fun l hl => (kept_of_plain (lineKind_of_not_endsPara u hl)).2,
      List.flatMap_eq_nil_iff.mpr fun _ _ => rfl]
    rfl

/-- Every message is parsed, and what its blocks keep is known line by line. -/
theorem exists_reads (lines : List Line) : ∃ blocks, Reads u lines blocks := by
  induction hlength : lines.length using Nat.strong_induction_on generalizing lines with
  | _ n ih =>
    cases lines with
    | nil =>
      refine ⟨[], fun n _ => ?_, rfl, rfl⟩
      cases n <;> rfl
    | cons line more =>
      have hbehind : ∀ rest : List Line, rest.length ≤ more.length →
          ∃ blocks, Reads u rest blocks := by
        intro rest hrest
        have hless : rest.length < n := by
          rw [← hlength, List.length_cons]
          exact Nat.lt_succ_of_le hrest
        exact ih rest.length hless rest rfl
      rcases lineKind_cases u line with
        hfence | ⟨hfence, ⟨t, ht⟩ | ⟨hheading, ⟨t, ht⟩ | ⟨hbullet, ⟨t, ht⟩ | ⟨hnumber, hkind⟩⟩⟩⟩
      · obtain ⟨blocks, hblocks⟩ := hbehind _ (length_codeLines u more)
        exact ⟨_, hblocks.fence hfence⟩
      · obtain ⟨blocks, hblocks⟩ := hbehind more (Nat.le_refl _)
        obtain ⟨block, hblock⟩ := hblocks.heading hfence ht
        exact ⟨_, hblock⟩
      · obtain ⟨blocks, hblocks⟩ := hbehind _ (length_itemLines (extractUl u) more)
        obtain ⟨block, hblock⟩ := hblocks.bullet ht
        exact ⟨_, hblock⟩
      · obtain ⟨blocks, hblocks⟩ := hbehind _ (length_itemLines (extractOl u) more)
        obtain ⟨block, hblock⟩ := hblocks.number ht
        exact ⟨_, hblock⟩
      · have hround := parseLoop_plain hfence hheading hbullet hnumber
        by_cases hblank : (trimmingCharacters isBlank line).isEmpty = true
        · obtain ⟨blocks, hblocks⟩ := hbehind more (Nat.le_refl _)
          have hskip : ∀ n, parseLoop u (n + 1) (line :: more) = parseLoop u n more :=
            fun n => by rw [hround, if_pos hblank]
          exact ⟨blocks, hblocks.blank hskip hblank hfence hkind⟩
        · obtain ⟨blocks, hblocks⟩ := hbehind _ (length_paraLines u more)
          exact ⟨_, hblocks.para (fun n => by rw [hround, if_neg hblank]) hfence hkind⟩

end Walk

end Teleprompter.ChatMarkdown
