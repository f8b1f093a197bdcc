import Teleprompter.ChatMarkdown

/-!
# What the blocks of a message lose

A message is to lose nothing but the marks of its blocks: the fences, the hashes
of a heading, one bullet or number for each item. What is left of a line is
described apart from the parser. Line by line the two are compared, and a line
that loses something is one whose text begins with what the parser drops along
with the mark, or goes on behind something that ends a line for the expressions.
-/

namespace Teleprompter.MarkdownLosses

open PairingLink (isWhitespace)
open PatternScans Segmentations ToggledWalks ChatMarkdown

section Purpose

variable (u : Unicode)

/-- What is behind all backticks at the front of a line. -/
def behindFence (line : Line) : List Char :=
  u.characters.dropParts isBacktick (trimmingCharacters isBlank line)

/-- What is left of a line without its mark. -/
def lineText (inCode : Bool) (line : Line) : List Char :=
  match inCode, lineKind u line with
  | true, .fence => behindFence u line
  | true, _ => line
  | false, .fence => fenceInfo u line
  | false, .heading tail => behindSpace tail
  | false, .bullet tail => behindSpace tail
  | false, .number tail => behindSpace tail
  | false, .plain => line

/-- The item that a line is: all that follows its mark and the white space behind that. -/
def lineItems (inCode : Bool) (line : Line) : List (List Char) :=
  match inCode, lineKind u line with
  | false, .bullet tail => [behindSpace tail]
  | false, .number tail => [behindSpace tail]
  | _, _ => []

/-- A message is parsed. Its blocks have every character that is no white space and no mark, in
order, and every item is exactly what its line has behind the mark. -/
def LosesNothing (markdown : List Char) : Prop :=
  ∃ blocks, (∀ n, (markdownLines markdown).length ≤ n → parseMdBlocks u n markdown = some blocks) ∧
    (nonwhite (collect (isFence u) (lineText u) false (markdownLines markdown))).Sublist
      (blocks.flatMap MdBlock.text) ∧
    blocks.flatMap MdBlock.items =
      collect (isFence u) (lineItems u) false (markdownLines markdown)

end Purpose

section Lines

theorem nonwhite_cons (c : Char) (s : List Char) :
    nonwhite (c :: s) = nonwhite [c] ++ nonwhite s :=
  nonwhite_append [c] s

end Lines

section Conditions

variable (u : Unicode)

/-- What the dot takes of the text behind a mark. -/
def cutText (tail : List Char) : List Char := (behindSpace tail).takeWhile fun c => !isLineEnd c

/-- Behind spaces only, the text of a heading begins with a hash. -/
def HashBegins (tail : List Char) : Prop :=
  (∀ c ∈ tail.takeWhile isSpace, c = ' ') ∧
    (u.characters.parts (' ' :: cutText tail)).take 2 = [[' '], ['#']]

/-- The text of a heading does not begin with a hash, and only white space is behind what
ends a line for the expression. -/
def HeadingKept (tail : List Char) : Prop :=
  ¬ HashBegins u tail ∧
  nonwhite ((behindSpace tail).dropWhile fun c => !isLineEnd c) = []

/-- Only spaces and tabs are around the bullet, nothing in the text ends a line for the
expression, the last white space is a character of its own and none that is dropped follows. -/
def BulletKept (line : Line) (tail : List Char) : Prop :=
  (∀ c ∈ line.takeWhile isSpace ++ tail.takeWhile isSpace, isBlank c = true) ∧
  (∀ c ∈ behindSpace tail, isLineEnd c = false) ∧
  ∀ w, (tail.takeWhile isSpace).getLast? = some w →
    (u.characters.parts (w :: behindSpace tail)).head? = some [w] ∧
      ∀ g, (u.characters.parts (w :: behindSpace tail))[1]? = some g → isItemMark g = false

/-- What is behind the dot is trimmed up to the text, nothing in the text ends a line for the
expression, and nothing is trimmed at its end. -/
def NumberKept (tail : List Char) : Prop :=
  (∀ c ∈ tail.takeWhile isSpace, isInlineSpace c = true) ∧
  (∀ c ∈ behindSpace tail, isLineEnd c = false) ∧
  ∀ c, (behindSpace tail).getLast? = some c → isInlineSpace c = false

/-- A line of which nothing is lost. The fence that closes a block of code has nothing behind
its backticks. -/
def LineKept (inCode : Bool) (line : Line) : Prop :=
  match inCode, lineKind u line with
  | true, .fence => nonwhite (behindFence u line) = []
  | false, .heading tail => HeadingKept u tail
  | false, .bullet tail => BulletKept u line tail
  | false, .number tail => NumberKept tail
  | _, _ => True

end Conditions

section Marks

variable {u : Unicode} {line : Line} {tail : List Char}

theorem headingTail_split (h : headingTail line = some tail) :
    ∃ hashes, line = hashes ++ tail ∧ ∀ c ∈ hashes, c = '#' := by
  cases line with
  | nil => cases h
  | cons c s =>
    rw [headingTail] at h
    split at h
    · next hc =>
      injection h with htail
      refine ⟨c :: s.take (min 2 (s.takeWhile isHash).length), ?_, ?_⟩
      · rw [← htail, List.cons_append, List.take_append_drop]
      · intro d hd
        obtain rfl | hd := List.mem_cons.mp hd
        · exact eq_of_beq hc
        · have hrun : d ∈ s.takeWhile isHash := by
            have hbegins := List.takeWhile_prefix (l := s) isHash
            rw [List.prefix_iff_eq_take.mp hbegins]
            exact (List.take_prefix_take_left (Nat.min_le_right 2 _)).subset hd
          have hhash : isHash d = true := List.mem_takeWhile_imp hrun
          exact eq_of_beq hhash
    · cases h

theorem bulletTail_split (h : bulletTail line = some tail) :
    ∃ c, isBullet c = true ∧ line = line.takeWhile isSpace ++ c :: tail := by
  have hline := List.takeWhile_append_dropWhile (p := isSpace) (l := line)
  rw [bulletTail] at h
  split at h
  · cases h
  · next c s hdrop =>
    split at h
    · next hc =>
      injection h with htail
      rw [hdrop, htail] at hline
      exact ⟨c, hc, hline.symm⟩
    · cases h

theorem numberTail_split (h : numberTail u line = some tail) :
    ∃ digits, (∀ c ∈ digits, u.isDecimal c = true) ∧
      line = line.takeWhile isSpace ++ (digits ++ '.' :: tail) := by
  have hline := List.takeWhile_append_dropWhile (p := isSpace) (l := line)
  rw [numberTail] at h
  split at h
  · cases h
  · next c s hdrop =>
    split at h
    · next hc =>
      split at h
      · cases h
      · next d t hrest =>
        split at h
        · next hd =>
          injection h with htail
          have hs := List.takeWhile_append_dropWhile (p := u.isDecimal) (l := s)
          refine ⟨c :: s.takeWhile u.isDecimal, ?_, ?_⟩
          · intro e he
            obtain rfl | he := List.mem_cons.mp he
            · exact hc
            · exact List.mem_takeWhile_imp he
          · rw [hrest, hd, htail] at hs
            rw [List.cons_append, hs, ← hdrop, hline]
        · cases h
    · cases h

/-- What a line may lose: backticks, hashes, one bullet, or one number with its dot. -/
def IsMark (u : Unicode) (mark : List Char) : Prop :=
  (∀ c ∈ mark, c = '`' ∨ c = '\u1fef') ∨ (∀ c ∈ mark, c = '#') ∨
    (∃ c, isBullet c = true ∧ mark = [c]) ∨
      ∃ digits, (∀ c ∈ digits, u.isDecimal c = true) ∧ mark = digits ++ ['.']

theorem nonwhite_eq_self {s : List Char} (h : ∀ c ∈ s, isWhitespace c = false) :
    nonwhite s = s := by
  refine List.filter_eq_self.mpr fun c hc => ?_
  rw [h c hc]
  rfl

theorem nonwhite_of_spaces {s : List Char} (h : ∀ c ∈ s, isSpace c = true) : nonwhite s = [] := by
  refine List.filter_eq_nil_iff.mpr fun c hc => ?_
  rw [isWhitespace_of_isSpace (h c hc)]
  decide

theorem nonwhite_behindSpace (tail : List Char) : nonwhite (behindSpace tail) = nonwhite tail :=
  nonwhite_dropWhile (fun _ => isWhitespace_of_isSpace) tail

/-- Backticks are split off a line whose characters begin with them. -/
theorem exists_mark_of_backticks {front back : List (List Char)}
    (hparts : u.characters.parts (trimmingCharacters isBlank line) = front ++ back)
    (hfront : ∀ g ∈ front, isBacktick g = true) :
    ∃ mark, IsMark u mark ∧ nonwhite line = mark ++ nonwhite back.flatten := by
  have hmark : ∀ c ∈ front.flatten, c = '`' ∨ c = '\u1fef' := by
    intro c hc
    obtain ⟨g, hg, hcg⟩ := List.mem_flatten.mp hc
    have hback := hfront g hg
    rw [isBacktick, Bool.or_eq_true, beq_iff_eq, beq_iff_eq] at hback
    obtain rfl | rfl := hback
    · exact .inl (List.mem_singleton.mp hcg)
    · exact .inr (List.mem_singleton.mp hcg)
  have hflat := u.characters.flatten_parts (trimmingCharacters isBlank line)
  have hsame : nonwhite front.flatten = front.flatten :=
    nonwhite_eq_self fun c hc => by obtain rfl | rfl := hmark c hc <;> rfl
  rw [hparts, List.flatten_append] at hflat
  refine ⟨front.flatten, .inl hmark, ?_⟩
  rw [← nonwhite_trimmingCharacters (fun _ => isWhitespace_of_isBlank), ← hflat, nonwhite_append,
    hsame]

theorem exists_mark_of_fence (h : isFence u line = true) :
    ∃ mark, IsMark u mark ∧ nonwhite line = mark ++ nonwhite (fenceInfo u line) := by
  refine exists_mark_of_backticks (List.take_append_drop 3 _).symm fun g hg => ?_
  rw [isFence] at h
  split at h
  · next a b c more hparts =>
    rw [Bool.and_eq_true, Bool.and_eq_true] at h
    rw [hparts] at hg
    simp only [List.take_succ_cons, List.take_zero, List.mem_cons, List.not_mem_nil,
      or_false] at hg
    obtain rfl | rfl | rfl := hg
    · exact h.1.1
    · exact h.1.2
    · exact h.2
  · cases h

theorem exists_mark_of_heading (h : headingTail line = some tail) :
    ∃ mark, IsMark u mark ∧ nonwhite line = mark ++ nonwhite (behindSpace tail) := by
  obtain ⟨hashes, hline, hhashes⟩ := headingTail_split h
  have hself : nonwhite hashes = hashes := by
    refine nonwhite_eq_self fun c hc => ?_
    rw [hhashes c hc]
    rfl
  exact ⟨hashes, .inr (.inl hhashes), by rw [nonwhite_behindSpace, hline, nonwhite_append, hself]⟩

theorem exists_mark_of_bullet (h : bulletTail line = some tail) :
    ∃ mark, IsMark u mark ∧ nonwhite line = mark ++ nonwhite (behindSpace tail) := by
  obtain ⟨c, hc, hline⟩ := bulletTail_split h
  have hself : nonwhite [c] = [c] := by
    rw [isBullet, Bool.or_eq_true, beq_iff_eq, beq_iff_eq] at hc
    obtain rfl | rfl := hc <;> rfl
  refine ⟨[c], .inr (.inr (.inl ⟨c, hc, rfl⟩)), ?_⟩
  rw [nonwhite_behindSpace]
  conv_lhs => rw [hline]
  rw [nonwhite_append, nonwhite_of_spaces fun d hd => List.mem_takeWhile_imp hd,
    nonwhite_cons, hself]
  rfl

theorem exists_mark_of_number (h : numberTail u line = some tail) :
    ∃ mark, IsMark u mark ∧ nonwhite line = mark ++ nonwhite (behindSpace tail) := by
  obtain ⟨digits, hdigits, hline⟩ := numberTail_split h
  have hself : nonwhite (digits ++ ['.']) = digits ++ ['.'] := by
    refine nonwhite_eq_self fun c hc => ?_
    rcases List.mem_append.mp hc with hdigit | hdot
    · exact (u.decimal c (hdigits c hdigit)).1
    · rw [List.mem_singleton.mp hdot]
      rfl
  refine ⟨digits ++ ['.'], .inr (.inr (.inr ⟨digits, hdigits, rfl⟩)), ?_⟩
  rw [nonwhite_behindSpace]
  conv_lhs => rw [hline]
  rw [nonwhite_append, nonwhite_of_spaces fun d hd => List.mem_takeWhile_imp hd,
    List.nil_append, ← List.singleton_append, ← List.append_assoc, nonwhite_append, hself]

/-- A line is a mark and the text that is left, apart from white space. -/
theorem exists_mark (u : Unicode) (inCode : Bool) (line : Line) :
    ∃ mark, IsMark u mark ∧ nonwhite line = mark ++ nonwhite (lineText u inCode line) := by
  have hwhole : ∃ mark, IsMark u mark ∧ nonwhite line = mark ++ nonwhite line :=
    ⟨[], .inl fun c hc => absurd hc List.not_mem_nil, rfl⟩
  rw [lineText.eq_def]
  rcases lineKind_cases u line with h | ⟨h, ⟨t, ht⟩ | ⟨-, ⟨t, ht⟩ | ⟨-, ⟨t, ht⟩ | ⟨-, hplain⟩⟩⟩⟩
  · rw [lineKind_of_fence u h]
    cases inCode with
    | true =>
      exact exists_mark_of_backticks List.takeWhile_append_dropWhile.symm
        fun g hg => List.mem_takeWhile_imp hg
    | false => exact exists_mark_of_fence h
  · rw [lineKind_of_heading u h ht]
    cases inCode with
    | true => exact hwhole
    | false => exact exists_mark_of_heading (Option.filter_eq_some_iff.mp ht).1
  · rw [lineKind_of_bullet u ht]
    cases inCode with
    | true => exact hwhole
    | false => exact exists_mark_of_bullet (Option.filter_eq_some_iff.mp ht).1
  · rw [lineKind_of_number u ht]
    cases inCode with
    | true => exact hwhole
    | false => exact exists_mark_of_number (Option.filter_eq_some_iff.mp ht).1
  · rw [hplain]
    cases inCode <;> exact hwhole

/-- White space behind a mark ends with its last code point. -/
theorem exists_gap (h : tail.head?.any isSpace = true) :
    ∃ gap w, tail.takeWhile isSpace = gap ++ [w] := by
  cases tail with
  | nil => cases h
  | cons c s =>
    rw [List.head?_cons, Option.any_some] at h
    rw [List.takeWhile_cons, if_pos h]
    exact ⟨_, _, (List.dropLast_append_getLast (List.cons_ne_nil c _)).symm⟩

theorem isSpace_of_mem_gap {c : Char} (h : c ∈ tail.takeWhile isSpace) : isSpace c = true :=
  List.mem_takeWhile_imp h

/-- What is behind the white space does not begin with white space. -/
theorem behindSpace_head {c : Char} {s : List Char} (h : behindSpace tail = c :: s) :
    isSpace c = false := by
  have hhead := List.head?_dropWhile_not isSpace tail
  rw [behindSpace] at h
  rw [h] at hhead
  exact hhead

theorem cutText_append (tail : List Char) :
    cutText tail ++ (behindSpace tail).dropWhile (fun c => !isLineEnd c) = behindSpace tail :=
  List.takeWhile_append_dropWhile

theorem cutText_head {c : Char} {s : List Char} (h : cutText tail = c :: s) :
    isSpace c = false := by
  have happend := cutText_append tail
  rw [h, List.cons_append] at happend
  exact behindSpace_head happend.symm

theorem cutText_eq_iff (tail : List Char) :
    cutText tail = behindSpace tail ↔ ∀ c ∈ behindSpace tail, isLineEnd c = false := by
  rw [cutText, List.takeWhile_eq_self_iff]
  exact forall₂_congr fun c _ => by simp

end Marks

section Bullets

variable {u : Unicode} {line : Line} {tail : List Char}

/-- White space that is no newline stands alone. -/
theorem alone_of_isSpace {c : Char} (h : isSpace c = true) (hc : c ≠ '\n') :
    u.characters.alone c = true :=
  u.alone c hc (.inr (.inl (isWhitespace_of_isSpace h)))

theorem alone_of_isBullet {c : Char} (h : isBullet c = true) : u.characters.alone c = true := by
  rw [isBullet, Bool.or_eq_true, beq_iff_eq, beq_iff_eq] at h
  obtain rfl | rfl := h
  · exact u.alone '-' (by decide) (.inl (by decide))
  · exact u.alone '*' (by decide) (.inl (by decide))

/-- A code point that is dropped when it is a character of its own. -/
def isMarkPoint (c : Char) : Bool := isBlank c || isBullet c

theorem isItemMark_singleton (c : Char) : isItemMark [c] = isMarkPoint c := by
  simp [isItemMark, isMarkPoint, isBlank, isBullet, Bool.or_assoc]

/-- A character is dropped only when it is one code point that is. -/
theorem isItemMark_cons {c : Char} (h : isBlank c = false) (hbullet : isBullet c = false)
    (g : List Char) : isItemMark (c :: g) = false := by
  cases g with
  | nil =>
    rw [isItemMark_singleton, isMarkPoint, h, hbullet]
    rfl
  | cons d g => simp [isItemMark]

theorem isSpaceMark_cons {c : Char} (h : isSpace c = false) (g : List Char) :
    (c :: g == [' ']) = false := by
  refine beq_false_of_ne fun heq => ?_
  injection heq with hc
  rw [hc] at h
  cases h

/-- An item is cut out of what the expression took. -/
theorem extractUl_of_bullet (h : bulletTail line = some tail)
    (hspace : tail.head?.any isSpace = true) : ∃ c, isBullet c = true ∧
      line = line.takeWhile isSpace ++ c :: tail ∧
      extractUl u line = some (u.characters.dropParts (fun g => g == [' '])
        (u.characters.dropParts isItemMark
          (line.takeWhile isSpace ++ c :: (tail.takeWhile isSpace ++ cutText tail)))) := by
  obtain ⟨c, hc, hline⟩ := bulletTail_split h
  have hpattern := firstRest_bulletPattern spaceAndText line
  rw [h, Option.bind_some] at hpattern
  have hfront : line = (line.takeWhile isSpace ++ [c]) ++ tail := by
    rw [List.append_assoc, List.singleton_append, ← hline]
  have hmatched := @matched_spaceAndText (bulletPattern spaceAndText)
    (line.takeWhile isSpace ++ [c]) tail
  rw [← hfront] at hmatched
  refine ⟨c, hc, hline, ?_⟩
  rw [extractUl, hmatched hpattern hspace, List.append_assoc, List.singleton_append]
  rfl

theorem alone_of_isItemMark {c : Char} (h : isItemMark [c] = true) :
    u.characters.alone c = true := by
  rw [isItemMark_singleton, isMarkPoint, Bool.or_eq_true] at h
  obtain hblank | hbullet := h
  · have hne : c ≠ '\n' := by
      rintro rfl
      cases hblank
    exact alone_of_isSpace (isSpace_of_isBlank hblank) hne
  · exact alone_of_isBullet hbullet

/-- Where only spaces and tabs are around the bullet, they are dropped up to the last one. -/
theorem dropParts_bullet {lead gap text : List Char} {c w : Char}
    (hblank : ∀ d ∈ lead ++ (gap ++ [w]), isBlank d = true) (hc : isBullet c = true) :
    u.characters.dropParts isItemMark (lead ++ c :: (gap ++ [w] ++ text)) =
      u.characters.dropParts isItemMark (w :: text) := by
  have hall : ∀ d ∈ lead ++ c :: (gap ++ [w]), isItemMark [d] = true := by
    intro d hd
    rw [isItemMark_singleton, isMarkPoint]
    by_cases heq : d = c
    · rw [heq, hc, Bool.or_true]
    · have hmem : d ∈ lead ++ (gap ++ [w]) := by
        simp only [List.mem_append, List.mem_cons] at hd ⊢
        tauto
      rw [hblank d hmem]
      rfl
  have hfront : ∀ d ∈ lead ++ c :: gap, isItemMark [d] = true :=
    fun d hd => hall d (by simp only [List.mem_append, List.mem_cons] at hd ⊢; tauto)
  have hw : isItemMark [w] = true := hall w (by simp)
  have hdrop := dropParts_append u.characters (fun d hd => alone_of_isItemMark (hfront d hd)) hfront
    (alone_of_isItemMark hw) text
  rw [← hdrop]
  simp

/-- Other white space stays in front of the text. -/
theorem dropParts_bullet_other {lead gap text : List Char} {c : Char}
    (hline : '\n' ∉ lead ++ gap) (hspace : ∀ d ∈ lead ++ gap, isSpace d = true)
    (hc : isBullet c = true) (hother : ¬ ∀ d ∈ lead ++ gap, isBlank d = true) :
    ∃ d rest, isSpace d = true ∧ isBlank d = false ∧
      u.characters.dropParts isItemMark (lead ++ c :: (gap ++ text)) = d :: rest := by
  have hsplit := List.takeWhile_append_dropWhile (p := isMarkPoint) (l := lead ++ c :: gap)
  have hfront : ∀ d ∈ (lead ++ c :: gap).takeWhile isMarkPoint, isItemMark [d] = true := by
    intro d hd
    rw [isItemMark_singleton]
    exact List.mem_takeWhile_imp hd
  have hback : ∀ d, d ≠ c → d ∈ lead ++ c :: gap → d ∈ lead ++ gap := by
    intro d hne hd
    simp only [List.mem_append, List.mem_cons] at hd ⊢
    tauto
  cases hdrop : (lead ++ c :: gap).dropWhile isMarkPoint with
  | nil =>
    refine absurd (fun d hd => ?_) hother
    have hmark : isMarkPoint d = true := by
      refine List.dropWhile_eq_nil_iff.mp hdrop d ?_
      simp only [List.mem_append, List.mem_cons] at hd ⊢
      tauto
    rw [isMarkPoint, not_bullet_of_isSpace (hspace d hd), Bool.or_false] at hmark
    exact hmark
  | cons d rest =>
    have hmark : isMarkPoint d = false := by
      have hhead := List.head?_dropWhile_not isMarkPoint (lead ++ c :: gap)
      rw [hdrop] at hhead
      exact hhead
    obtain ⟨hblank, hbullet⟩ := Bool.or_eq_false_iff.mp hmark
    have hmem : d ∈ lead ++ gap := by
      refine hback d ?_ ?_
      · rintro rfl
        rw [hc] at hbullet
        cases hbullet
      · rw [← hsplit, hdrop]
        exact List.mem_append_right _ List.mem_cons_self
    have hne : d ≠ '\n' := by
      rintro rfl
      exact hline hmem
    have hfull : lead ++ c :: (gap ++ text) =
        (lead ++ c :: gap).takeWhile isMarkPoint ++ d :: (rest ++ text) := by
      have hsame := congrArg (fun s => s ++ text) hsplit
      rw [hdrop] at hsame
      simpa using hsame.symm
    refine ⟨d, rest ++ text, hspace d hmem, hblank, ?_⟩
    rw [hfull, dropParts_append u.characters (fun e he => alone_of_isItemMark (hfront e he)) hfront
      (alone_of_isSpace (hspace d hmem) hne)]
    exact dropParts_of_head u.characters (isItemMark_cons hblank hbullet) _

/-- An item is all that follows its bullet exactly under the condition. -/
theorem extractUl_eq_iff (hline : '\n' ∉ line) (h : bulletTail line = some tail)
    (hspace : tail.head?.any isSpace = true) :
    extractUl u line = some (behindSpace tail) ↔ BulletKept u line tail := by
  obtain ⟨c, hc, hsplit, hextract⟩ := @extractUl_of_bullet u line tail h hspace
  obtain ⟨gap, w, hgap⟩ := exists_gap hspace
  have hspaces : ∀ d ∈ line.takeWhile isSpace ++ tail.takeWhile isSpace, isSpace d = true :=
    fun d hd => (List.mem_append.mp hd).elim List.mem_takeWhile_imp List.mem_takeWhile_imp
  rw [hextract, Option.some_inj, BulletKept]
  by_cases hblank : ∀ d ∈ line.takeWhile isSpace ++ tail.takeWhile isSpace, isBlank d = true
  · rw [hgap] at hblank ⊢
    have hw : isBlank w = true := hblank w (by simp)
    have hmark : isItemMark [w] = true := by
      rw [isItemMark_singleton, isMarkPoint, hw, Bool.true_or]
    have hjoined : ∀ g, g ≠ [] → (w :: g == [' ']) = false := by
      intro g hg
      exact beq_false_of_ne fun heq => hg (List.cons.inj heq).2
    have hrest : ∀ b t, cutText tail = b :: t → ∀ g, (b :: g == [' ']) = false :=
      fun b t hcut => isSpaceMark_cons (cutText_head hcut)
    have hdropped := @dropParts_dropParts_eq_iff _ u.characters isItemMark (fun g => g == [' ']) w
      (cutText tail) hmark hjoined hrest
    rw [dropParts_bullet hblank hc]
    constructor
    · intro h
      have hsuffix := (dropParts_suffix u.characters (fun g => g == [' ']) _).trans
        (dropParts_suffix u.characters isItemMark (w :: cutText tail))
      rw [h] at hsuffix
      have happend := congrArg List.length (cutText_append tail)
      rw [List.length_append] at happend
      obtain hwhole | hshort := List.suffix_cons_iff.mp hsuffix
      · have hhead := behindSpace_head hwhole
        rw [isSpace_of_isBlank hw] at hhead
        cases hhead
      · have hcut : cutText tail = behindSpace tail :=
          (hshort.eq_of_length_le (by omega)).symm
        refine ⟨hblank, (cutText_eq_iff tail).mp hcut, fun v hv => ?_⟩
        rw [List.getLast?_concat, Option.some_inj] at hv
        rw [← hcut] at h ⊢
        rw [← hv]
        exact hdropped.mp h
    · rintro ⟨-, hend, hlast⟩
      have hcut := (cutText_eq_iff tail).mpr hend
      rw [← hcut]
      rw [← hcut] at hlast
      exact hdropped.mpr (hlast w (by simp))
  · have hnone : '\n' ∉ line.takeWhile isSpace ++ tail.takeWhile isSpace := by
      intro hmem
      refine hline ?_
      rw [hsplit, List.mem_append, List.mem_cons]
      rcases List.mem_append.mp hmem with hlead | hbehind
      · exact .inl hlead
      · exact .inr (.inr ((List.takeWhile_prefix isSpace).subset hbehind))
    obtain ⟨d, rest, hd, hother, hdrop⟩ := @dropParts_bullet_other u _ _ (cutText tail) c hnone
      hspaces hc hblank
    rw [hdrop]
    refine iff_of_false (fun hitem => ?_) fun hkept => hblank hkept.1
    have hne : d ≠ ' ' := by
      rintro rfl
      cases hother
    have hstays : ∀ g, (d :: g == [' ']) = false :=
      fun g => beq_false_of_ne fun heq => hne (List.cons.inj heq).1
    rw [dropParts_of_head u.characters hstays] at hitem
    have hhead := behindSpace_head hitem.symm
    rw [hd] at hhead
    cases hhead

end Bullets

section Numbers

variable {u : Unicode} {line : Line} {tail : List Char}

theorem isSpace_of_isInlineSpace {c : Char} (h : isInlineSpace c = true) : isSpace c = true := by
  rw [isInlineSpace, Bool.or_eq_true, beq_iff_eq] at h
  obtain h | rfl := h
  · rw [isSpace, h, Bool.true_or]
  · rfl

/-- The item of a number is what the expression took behind the dot, trimmed. -/
theorem extractOl_of_number (hline : '\n' ∉ line) (h : numberTail u line = some tail)
    (hspace : tail.head?.any isSpace = true) : extractOl u line =
      some (trimmingCharacters isInlineSpace (tail.takeWhile isSpace ++ cutText tail)) := by
  obtain ⟨digits, hdigits, hsplit⟩ := numberTail_split h
  have hpattern := firstRest_numberPattern u spaceAndText line
  rw [h, Option.bind_some] at hpattern
  have hfront : line = (line.takeWhile isSpace ++ digits ++ ['.']) ++ tail := by
    rw [List.append_assoc, List.append_assoc, List.singleton_append, ← hsplit]
  have hmatched := @matched_spaceAndText (numberPattern u spaceAndText)
    (line.takeWhile isSpace ++ digits ++ ['.']) tail
  rw [← hfront] at hmatched
  have hmatch := hmatched hpattern hspace
  have hmarks : ∀ c ∈ line.takeWhile isSpace ++ digits,
      u.characters.alone c = true ∧ c ≠ '.' := by
    intro c hc
    have hne : c ≠ '\n' := by
      rintro rfl
      rw [List.append_assoc] at hfront
      refine hline ?_
      rw [hfront]
      exact List.mem_append_left _ hc
    rcases List.mem_append.mp hc with hlead | hdigit
    · have hwhite : isSpace c = true := List.mem_takeWhile_imp hlead
      exact ⟨alone_of_isSpace hwhite hne, ne_of_isSpace hwhite (by decide)⟩
    · have hdecimal := hdigits c hdigit
      exact ⟨u.alone c hne (.inr (.inr hdecimal)), not_dot_of_isDecimal u hdecimal⟩
  have hdot : u.characters.alone '.' = true := u.alone '.' (by decide) (.inl (by decide))
  have hpass : ∀ g ∈ (line.takeWhile isSpace ++ digits).map fun c => [c], (g != ['.']) = true := by
    intro g hg
    obtain ⟨c, hc, rfl⟩ := List.mem_map.mp hg
    exact bne_iff_ne.mpr fun heq => (hmarks c hc).2 (List.cons.inj heq).1
  have hgap : ∃ b more, tail.takeWhile isSpace = b :: more ∧ u.characters.alone b = true := by
    cases tail with
    | nil => cases hspace
    | cons b s =>
      rw [List.head?_cons, Option.any_some] at hspace
      have hne : b ≠ '\n' := by
        rintro rfl
        exact hline (hfront ▸ List.mem_append_right _ List.mem_cons_self)
      exact ⟨b, _, List.takeWhile_cons_of_pos hspace, alone_of_isSpace hspace hne⟩
  obtain ⟨b, more, hb, halone⟩ := hgap
  rw [extractOl, hmatch, Option.bind_some, List.append_assoc, List.singleton_append,
    parts_append u.characters (fun c hc => (hmarks c hc).1) hdot, ← cutText, hb, List.cons_append,
    u.characters.boundary '.' b _ hdot halone, List.dropWhile_append_of_pos hpass,
    List.dropWhile_cons, if_neg (by decide)]
  dsimp only
  rw [u.characters.flatten_parts]

/-- An item is all that follows its number exactly under the condition. -/
theorem extractOl_eq_iff (hline : '\n' ∉ line) (h : numberTail u line = some tail)
    (hspace : tail.head?.any isSpace = true) :
    extractOl u line = some (behindSpace tail) ↔ NumberKept tail := by
  rw [extractOl_of_number hline h hspace, Option.some_inj, NumberKept]
  have happend := congrArg List.length (cutText_append tail)
  rw [List.length_append] at happend
  by_cases hinline : ∀ c ∈ tail.takeWhile isSpace, isInlineSpace c = true
  · have hdrop :
        (tail.takeWhile isSpace ++ cutText tail).dropWhile isInlineSpace = cutText tail := by
      rw [List.dropWhile_append_of_pos hinline]
      cases hcut : cutText tail with
      | nil => rfl
      | cons c s =>
        have hc : isInlineSpace c = false := by
          by_contra hc
          have hhead := cutText_head hcut
          rw [isSpace_of_isInlineSpace (eq_true_of_ne_false hc)] at hhead
          cases hhead
        rw [List.dropWhile_cons, if_neg (ne_true_of_eq_false hc)]
    rw [trimmingCharacters, hdrop]
    constructor
    · intro hitem
      have hbegins := List.rdropWhile_prefix isInlineSpace (cutText tail)
      rw [hitem] at hbegins
      have hcut : cutText tail = behindSpace tail := (hbegins.eq_of_length_le (by omega)).symm
      rw [hcut, List.rdropWhile_eq_self_iff] at hitem
      refine ⟨hinline, (cutText_eq_iff tail).mp hcut, fun c hc => ?_⟩
      have hne : behindSpace tail ≠ [] := by
        intro hnil
        rw [hnil] at hc
        cases hc
      rw [List.getLast?_eq_some_getLast hne, Option.some_inj] at hc
      exact hc ▸ eq_false_of_ne_true (hitem hne)
    · rintro ⟨-, hend, hlast⟩
      rw [(cutText_eq_iff tail).mpr hend, List.rdropWhile_eq_self_iff]
      exact fun hne => ne_true_of_eq_false (hlast _ (List.getLast?_eq_some_getLast hne))
  · refine iff_of_false (fun hitem => ?_) fun hkept => hinline hkept.1
    cases hdrop : (tail.takeWhile isSpace).dropWhile isInlineSpace with
    | nil => exact hinline (List.dropWhile_eq_nil_iff.mp hdrop)
    | cons d rest =>
      have hother : isInlineSpace d = false := by
        have hhead := List.head?_dropWhile_not isInlineSpace (tail.takeWhile isSpace)
        rw [hdrop] at hhead
        exact hhead
      have hd : isSpace d = true := by
        refine @isSpace_of_mem_gap tail _ ?_
        exact (List.dropWhile_suffix isInlineSpace).subset (hdrop ▸ List.mem_cons_self)
      have hne : (d :: (rest ++ cutText tail)).rdropWhile isInlineSpace ≠ [] := by
        intro hnil
        have hall := List.rdropWhile_eq_nil_iff.mp hnil d List.mem_cons_self
        rw [hother] at hall
        cases hall
      obtain ⟨c, s, hcons⟩ := List.exists_cons_of_ne_nil hne
      have hbegins := List.rdropWhile_prefix isInlineSpace (d :: (rest ++ cutText tail))
      rw [hcons] at hbegins
      have hc : c = d := (List.cons_prefix_cons.mp hbegins).1
      rw [trimmingCharacters, List.dropWhile_append, hdrop] at hitem
      rw [List.isEmpty_cons, if_neg (by decide), List.cons_append, hcons] at hitem
      have hhead := behindSpace_head hitem.symm
      rw [hc, hd] at hhead
      cases hhead

end Numbers

section Headings

variable {u : Unicode} {line : Line} {tail : List Char}

theorem isHeadingMark_cons {c : Char} (hhash : c ≠ '#') (hspace : c ≠ ' ') (g : List Char) :
    isHeadingMark (c :: g) = false := by
  rw [isHeadingMark, Bool.or_eq_false_iff]
  exact ⟨beq_false_of_ne fun heq => hhash (List.cons.inj heq).1,
    beq_false_of_ne fun heq => hspace (List.cons.inj heq).1⟩

theorem isHeadingMark_of_hash_or_space {c : Char} (h : c = '#' ∨ c = ' ') :
    isHeadingMark [c] = true ∧ u.characters.alone c = true := by
  obtain rfl | rfl := h
  · exact ⟨rfl, u.alone '#' (by decide) (.inl (by decide))⟩
  · exact ⟨rfl, u.alone ' ' (by decide) (.inl (by decide))⟩

theorem matched_heading (h : headingTail line = some tail)
    (hspace : tail.head?.any isSpace = true) : ∃ hashes, (∀ c ∈ hashes, c = '#') ∧
      line = hashes ++ tail ∧ matched (headingPattern spaceAndText) line =
        some (hashes ++ (tail.takeWhile isSpace ++ cutText tail)) := by
  obtain ⟨hashes, hline, hhashes⟩ := headingTail_split h
  have hpattern := firstRest_headingPattern rests_spaceAndText_hash line
  rw [h, Option.bind_some] at hpattern
  have hmatched := @matched_spaceAndText (headingPattern spaceAndText) hashes tail
  rw [← hline] at hmatched
  exact ⟨hashes, hhashes, hline, hmatched hpattern hspace⟩

/-- Behind one space, a hash that begins the text is dropped, and nothing else. -/
theorem nonwhite_dropParts_space (tail : List Char) :
    (((u.characters.parts (' ' :: cutText tail)).take 2 = [[' '], ['#']]) ∧
      (nonwhite (u.characters.dropParts isHeadingMark (' ' :: cutText tail))).Sublist
        (nonwhite (cutText tail)) ∧
      (nonwhite (u.characters.dropParts isHeadingMark (' ' :: cutText tail))).length <
        (nonwhite (cutText tail)).length) ∨
    ((u.characters.parts (' ' :: cutText tail)).take 2 ≠ [[' '], ['#']] ∧
      nonwhite (u.characters.dropParts isHeadingMark (' ' :: cutText tail)) =
        nonwhite (cutText tail)) := by
  obtain ⟨g, more, hparts, hcut⟩ := parts_cons u.characters ' ' (cutText tail)
  cases g with
  | cons d g =>
    have hmark : isHeadingMark (' ' :: d :: g) = false := by simp [isHeadingMark]
    refine .inr ⟨?_, ?_⟩
    · rw [hparts]
      simp
    · rw [Segmentation.dropParts, hparts, List.dropWhile_cons, if_neg (ne_true_of_eq_false hmark),
        ← hparts, u.characters.flatten_parts]
      rfl
  | nil =>
    rw [List.nil_append] at hcut
    cases more with
    | nil =>
      refine .inr ⟨?_, ?_⟩
      · rw [hparts]
        simp
      · rw [Segmentation.dropParts, hparts, hcut]
        rfl
    | cons k more =>
      by_cases hk : k = ['#']
      · have hbehind := dropWhile_flatten_suffix isHeadingMark more
        have hdropped : u.characters.dropParts isHeadingMark (' ' :: cutText tail) =
            (more.dropWhile isHeadingMark).flatten := by
          rw [Segmentation.dropParts, hparts, hk]
          rfl
        have htext : nonwhite (cutText tail) = '#' :: nonwhite more.flatten := by
          rw [hcut, hk]
          rfl
        have hsublist := hbehind.sublist.filter fun c => !isWhitespace c
        rw [← nonwhite, ← nonwhite] at hsublist
        refine .inl ⟨?_, ?_, ?_⟩
        · rw [hparts, hk]
          rfl
        · rw [hdropped, htext]
          exact hsublist.trans (List.sublist_cons_self _ _)
        · rw [hdropped, htext]
          exact Nat.lt_succ_of_le hsublist.length_le
      · have hne : k ≠ [] := u.characters.ne_nil (' ' :: cutText tail) k (by rw [hparts]; simp)
        obtain ⟨c, rest, rfl⟩ := List.exists_cons_of_ne_nil hne
        have hhead : isSpace c = false := cutText_head hcut
        have hmark : isHeadingMark (c :: rest) = false := by
          rw [isHeadingMark, isSpaceMark_cons hhead, Bool.or_false]
          exact beq_false_of_ne hk
        refine .inr ⟨?_, ?_⟩
        · rw [hparts]
          simpa using hk
        · rw [Segmentation.dropParts, hparts, List.dropWhile_cons, if_pos (by decide),
            List.dropWhile_cons, if_neg (ne_true_of_eq_false hmark), ← hcut]

/-- White space other than a space ends what is dropped. -/
theorem nonwhite_dropParts_other {hashes : List Char} (hline : '\n' ∉ tail)
    (hhashes : ∀ c ∈ hashes, c = '#') (hother : ¬ ∀ c ∈ tail.takeWhile isSpace, c = ' ') :
    nonwhite (u.characters.dropParts isHeadingMark
      (hashes ++ (tail.takeWhile isSpace ++ cutText tail))) = nonwhite (cutText tail) := by
  have hsplit := List.takeWhile_append_dropWhile
    (p := fun c => c == ' ') (l := tail.takeWhile isSpace)
  cases hdrop : (tail.takeWhile isSpace).dropWhile fun c => c == ' ' with
  | nil =>
    exact absurd (fun c hc => eq_of_beq (List.dropWhile_eq_nil_iff.mp hdrop c hc)) hother
  | cons d rest =>
    have hback : ∀ c ∈ d :: rest, c ∈ tail.takeWhile isSpace := by
      intro c hc
      rw [← hsplit, hdrop]
      exact List.mem_append_right _ hc
    have hd : isSpace d = true := isSpace_of_mem_gap (hback d List.mem_cons_self)
    have hne : d ≠ ' ' := by
      have hhead := List.head?_dropWhile_not (fun c => c == ' ') (tail.takeWhile isSpace)
      rw [hdrop] at hhead
      exact ne_of_beq_false hhead
    have hnewline : d ≠ '\n' := by
      rintro rfl
      exact hline ((List.takeWhile_prefix isSpace).subset (hback _ List.mem_cons_self))
    have hfront : ∀ c ∈ hashes ++ (tail.takeWhile isSpace).takeWhile (fun c => c == ' '),
        isHeadingMark [c] = true ∧ u.characters.alone c = true := by
      intro c hc
      refine isHeadingMark_of_hash_or_space ?_
      rcases List.mem_append.mp hc with hhash | hspace
      · exact .inl (hhashes c hhash)
      · have heq := List.mem_takeWhile_imp (p := fun c => c == ' ') hspace
        exact .inr (eq_of_beq heq)
    have hfull : hashes ++ (tail.takeWhile isSpace ++ cutText tail) =
        (hashes ++ (tail.takeWhile isSpace).takeWhile fun c => c == ' ') ++
          d :: (rest ++ cutText tail) := by
      rw [hdrop] at hsplit
      conv_lhs => rw [← hsplit]
      simp
    rw [hfull, dropParts_append u.characters (fun c hc => (hfront c hc).2)
        (fun c hc => (hfront c hc).1) (alone_of_isSpace hd hnewline),
      dropParts_of_head u.characters
        (isHeadingMark_cons (ne_of_isSpace hd (by decide)) hne),
      ← List.cons_append, nonwhite_append,
      nonwhite_of_spaces fun c hc => isSpace_of_mem_gap (hback c hc), List.nil_append]

/-- Text is lost when a hash begins it, and only then. -/
theorem nonwhite_dropParts_heading {hashes : List Char} (hline : '\n' ∉ tail)
    (hhashes : ∀ c ∈ hashes, c = '#') (hspace : tail.head?.any isSpace = true) :
    (HashBegins u tail ∧
      (nonwhite (u.characters.dropParts isHeadingMark
        (hashes ++ (tail.takeWhile isSpace ++ cutText tail)))).Sublist (nonwhite (cutText tail)) ∧
      (nonwhite (u.characters.dropParts isHeadingMark
        (hashes ++ (tail.takeWhile isSpace ++ cutText tail)))).length <
        (nonwhite (cutText tail)).length) ∨
    (¬ HashBegins u tail ∧ nonwhite (u.characters.dropParts isHeadingMark
      (hashes ++ (tail.takeWhile isSpace ++ cutText tail))) = nonwhite (cutText tail)) := by
  by_cases hspaces : ∀ c ∈ tail.takeWhile isSpace, c = ' '
  · obtain ⟨gap, w, hgap⟩ := exists_gap hspace
    rw [hgap] at hspaces
    obtain rfl : w = ' ' := hspaces w (by simp)
    have hfront : ∀ c ∈ hashes ++ gap, isHeadingMark [c] = true ∧ u.characters.alone c = true := by
      intro c hc
      refine isHeadingMark_of_hash_or_space ((List.mem_append.mp hc).imp (hhashes c) fun hc => ?_)
      exact hspaces c (List.mem_append_left _ hc)
    have hsame : u.characters.dropParts isHeadingMark
        (hashes ++ (tail.takeWhile isSpace ++ cutText tail)) =
          u.characters.dropParts isHeadingMark (' ' :: cutText tail) := by
      rw [← dropParts_append u.characters (fun c hc => (hfront c hc).2)
        (fun c hc => (hfront c hc).1) (u.alone ' ' (by decide) (.inl (by decide))), hgap]
      simp
    rw [hsame, HashBegins, hgap]
    exact (nonwhite_dropParts_space tail).imp (fun h => ⟨⟨hspaces, h.1⟩, h.2⟩)
      fun h => ⟨fun hbegins => h.1 hbegins.2, h.2⟩
  · exact .inr ⟨fun h => hspaces h.1, nonwhite_dropParts_other hline hhashes hspaces⟩

/-- What a heading keeps of its text, and when that is all. -/
theorem nonwhite_headingText (hline : '\n' ∉ line) (h : headingTail line = some tail)
    (hspace : tail.head?.any isSpace = true) :
    (nonwhite (headingText u ((matched (headingPattern spaceAndText) line).getD []))).Sublist
      (nonwhite (behindSpace tail)) ∧
    (nonwhite (headingText u ((matched (headingPattern spaceAndText) line).getD [])) =
      nonwhite (behindSpace tail) ↔ HeadingKept u tail) := by
  obtain ⟨hashes, hhashes, hsplit, hmatched⟩ := matched_heading h hspace
  have hnewline : '\n' ∉ tail := by
    intro hmem
    exact hline (hsplit ▸ List.mem_append_right hashes hmem)
  rw [hmatched, Option.getD_some, headingText,
    nonwhite_trimmingCharacters fun _ => isWhitespace_of_isInlineSpace, ← cutText_append,
    nonwhite_append, HeadingKept]
  obtain ⟨hbegins, hsublist, hless⟩ | ⟨hbegins, hsame⟩ :=
    @nonwhite_dropParts_heading u tail hashes hnewline hhashes hspace
  · refine ⟨hsublist.trans (List.sublist_append_left _ _), iff_of_false (fun heq => ?_) ?_⟩
    · have hlength := congrArg List.length heq
      rw [List.length_append] at hlength
      omega
    · exact fun hkept => hkept.1 hbegins
  · rw [hsame]
    refine ⟨List.sublist_append_left _ _, ?_⟩
    rw [List.self_eq_append_right]
    exact ⟨fun hrest => ⟨hbegins, hrest⟩, fun hkept => hkept.2⟩

end Headings

section Losses

variable {u : Unicode} {line : Line}

/-- A line inside of a block of code loses something only when it closes the block. -/
theorem kept_inCode_iff (line : Line) :
    (kept u true line).Sublist (nonwhite (lineText u true line)) ∧
      (kept u true line = nonwhite (lineText u true line) ↔ LineKept u true line) := by
  rw [kept_inCode, lineText.eq_def, LineKept.eq_def]
  rcases lineKind_cases u line with h | ⟨h, ⟨t, ht⟩ | ⟨-, ⟨t, ht⟩ | ⟨-, ⟨t, ht⟩ | ⟨-, hplain⟩⟩⟩⟩
  · rw [lineKind_of_fence u h, if_pos h]
    exact ⟨List.nil_sublist _, eq_comm⟩
  · rw [lineKind_of_heading u h ht, h, if_neg (by decide)]
    exact ⟨List.Sublist.refl _, iff_of_true rfl trivial⟩
  · rw [lineKind_of_bullet u ht, h, if_neg (by decide)]
    exact ⟨List.Sublist.refl _, iff_of_true rfl trivial⟩
  · rw [lineKind_of_number u ht, h, if_neg (by decide)]
    exact ⟨List.Sublist.refl _, iff_of_true rfl trivial⟩
  · rw [hplain, h, if_neg (by decide)]
    exact ⟨List.Sublist.refl _, iff_of_true rfl trivial⟩

/-- An item that is not exact counts as a loss, and with an exact one nothing else is lost. -/
theorem item_kept_iff {item : Option (List Char)} {text : List Char} {P : Prop}
    (hsome : item.isSome = true) (h : item = some text ↔ P) :
    ([item.getD []] = [text] → (nonwhite (item.getD [])).Sublist (nonwhite text)) ∧
      (([item.getD []] = [text] ∧ nonwhite (item.getD []) = nonwhite text) ↔ P) := by
  obtain ⟨value, rfl⟩ := Option.isSome_iff_exists.mp hsome
  rw [← h, Option.getD_some, Option.some_inj, List.singleton_inj]
  constructor
  · rintro rfl
    exact List.Sublist.refl _
  · exact ⟨fun heq => heq.1, fun heq => ⟨heq, congrArg nonwhite heq⟩⟩

/-- What a line loses outside of a block of code. -/
theorem kept_outside_iff (hline : '\n' ∉ line) :
    (keptItems u false line = lineItems u false line →
      (kept u false line).Sublist (nonwhite (lineText u false line))) ∧
    ((keptItems u false line = lineItems u false line ∧
      kept u false line = nonwhite (lineText u false line)) ↔ LineKept u false line) := by
  rw [kept.eq_def, keptItems.eq_def, lineText.eq_def, lineItems.eq_def, LineKept.eq_def]
  rcases lineKind_cases u line with h | ⟨h, ⟨t, ht⟩ | ⟨-, ⟨t, ht⟩ | ⟨-, ⟨t, ht⟩ | ⟨-, hplain⟩⟩⟩⟩
  · rw [lineKind_of_fence u h]
    have hsame : nonwhite (fenceLang u line) = nonwhite (fenceInfo u line) :=
      nonwhite_trimmingCharacters (fun _ => isWhitespace_of_isInlineSpace) _
    dsimp only
    rw [hsame]
    exact ⟨fun _ => List.Sublist.refl _, iff_of_true ⟨rfl, rfl⟩ trivial⟩
  · obtain ⟨htail, hspace⟩ := Option.filter_eq_some_iff.mp ht
    obtain ⟨hsublist, hiff⟩ := @nonwhite_headingText u line t hline htail hspace
    rw [lineKind_of_heading u h ht]
    exact ⟨fun _ => hsublist, ⟨fun heq => hiff.mp heq.2, fun hkept => ⟨rfl, hiff.mpr hkept⟩⟩⟩
  · obtain ⟨htail, hspace⟩ := Option.filter_eq_some_iff.mp ht
    have hiff := @extractUl_eq_iff u line t hline htail hspace
    obtain ⟨c, -, -, hextract⟩ := @extractUl_of_bullet u line t htail hspace
    rw [lineKind_of_bullet u ht]
    exact item_kept_iff (Option.isSome_of_eq_some hextract) hiff
  · obtain ⟨htail, hspace⟩ := Option.filter_eq_some_iff.mp ht
    have hiff := @extractOl_eq_iff u line t hline htail hspace
    have hextract := @extractOl_of_number u line t hline htail hspace
    rw [lineKind_of_number u ht]
    exact item_kept_iff (Option.isSome_of_eq_some hextract) hiff
  · rw [hplain]
    exact ⟨fun _ => List.Sublist.refl _, iff_of_true ⟨rfl, rfl⟩ trivial⟩

theorem line_kept_iff (hline : '\n' ∉ line) (inCode : Bool) :
    (keptItems u inCode line = lineItems u inCode line →
      (kept u inCode line).Sublist (nonwhite (lineText u inCode line))) ∧
    ((keptItems u inCode line = lineItems u inCode line ∧
      kept u inCode line = nonwhite (lineText u inCode line)) ↔ LineKept u inCode line) := by
  cases inCode with
  | false => exact kept_outside_iff hline
  | true =>
    obtain ⟨hsublist, hiff⟩ := @kept_inCode_iff u line
    have hitems : keptItems u true line = lineItems u true line := by
      rw [keptItems_inCode, lineItems.eq_def]
    exact ⟨fun _ => hsublist, ⟨fun h => hiff.mp h.2, fun h => ⟨hitems, hiff.mpr h⟩⟩⟩

/-- No line of a message has a newline. -/
theorem newline_notMem_splitOn (s : List Char) : ∀ line ∈ s.splitOn '\n', '\n' ∉ line := by
  induction s with
  | nil => simp
  | cons c s ih =>
    rw [List.splitOn_cons_eq_if_modifyHead]
    cases hs : s.splitOn '\n' with
    | nil => exact absurd hs (List.splitOn_ne_nil _ _)
    | cons first more =>
      rw [hs] at ih
      obtain ⟨hfirst, hmore⟩ := List.forall_mem_cons.mp ih
      split
      · exact List.forall_mem_cons.mpr ⟨List.not_mem_nil, ih⟩
      · next hc =>
        refine List.forall_mem_cons.mpr ⟨fun hmem => ?_, hmore⟩
        obtain heq | hmem := List.mem_cons.mp hmem
        · exact hc (beq_iff_eq.mpr heq.symm)
        · exact hfirst hmem

theorem nonwhite_collect (f : Bool → Line → List Char) (inCode : Bool) (lines : List Line) :
    nonwhite (collect (isFence u) f inCode lines) =
      collect (isFence u) (fun inCode line => nonwhite (f inCode line)) inCode lines := by
  induction lines generalizing inCode with
  | nil => rfl
  | cons line more ih => rw [collect_cons, collect_cons, nonwhite_append, ih]

theorem nonwhite_nonwhite (s : List Char) : nonwhite (nonwhite s) = nonwhite s := by
  rw [nonwhite, nonwhite, List.filter_filter]
  simp

theorem length_items (inCode : Bool) (line : Line) :
    (keptItems u inCode line).length = (lineItems u inCode line).length := by
  rw [keptItems.eq_def, lineItems.eq_def]
  cases inCode with
  | true => rfl
  | false => cases lineKind u line <;> rfl

/-- Nothing of a message is lost exactly when no line loses something. -/
theorem losesNothing_iff (u : Unicode) (markdown : List Char) : LosesNothing u markdown ↔
    Along (isFence u) (LineKept u) false (markdownLines markdown) := by
  obtain ⟨blocks, hreads⟩ := exists_reads (u := u) (markdownLines markdown)
  have hlines : ∀ inCode, ∀ line ∈ markdownLines markdown,
      keptItems u inCode line = lineItems u inCode line ∧
        kept u inCode line = nonwhite (lineText u inCode line) ↔ LineKept u inCode line :=
    fun inCode line hline => (line_kept_iff (newline_notMem_splitOn _ line hline) inCode).2
  have hsublist : Along (isFence u) (fun inCode line =>
      keptItems u inCode line = lineItems u inCode line) false (markdownLines markdown) →
      Along (isFence u) (fun inCode line =>
        (kept u inCode line).Sublist (nonwhite (lineText u inCode line))) false
          (markdownLines markdown) :=
    fun h => h.imp fun inCode line hline =>
      (line_kept_iff (newline_notMem_splitOn _ line hline) inCode).1
  rw [← along_iff hlines, along_and, ← collect_eq_iff length_items, ← hreads.items]
  constructor
  · rintro ⟨found, hfound, htext, hitems⟩
    obtain rfl : found = blocks := by
      have hsame := hreads.returned _ (Nat.le_refl _)
      rw [← parseMdBlocks, hfound _ (Nat.le_refl _)] at hsame
      exact Option.some_inj.mp hsame
    refine ⟨hitems, ?_⟩
    have halong := hsublist ((collect_eq_iff length_items).mp (hreads.items ▸ hitems))
    have hlength := (htext.filter fun c => !isWhitespace c).length_le
    rw [← nonwhite, ← nonwhite, hreads.text, nonwhite_nonwhite, nonwhite_collect] at hlength
    exact halong.collect_length_iff.mp hlength
  · rintro ⟨hitems, htext⟩
    have halong := hsublist ((collect_eq_iff length_items).mp (hreads.items ▸ hitems))
    have hsame := halong.collect_sublist.eq_of_length_le (halong.collect_length_iff.mpr htext)
    refine ⟨blocks, hreads.returned, ?_, hitems⟩
    rw [nonwhite_collect, ← hsame, ← hreads.text]
    exact List.filter_sublist

/-- A bold text at the front of an item loses the marks that open it. -/
theorem losesNothing_bold : ¬ LosesNothing plainUnicode "- **bold**".toList := by
  rintro ⟨blocks, hblocks, -, hitems⟩
  have hparsed : parseMdBlocks plainUnicode 1 "- **bold**".toList =
      some [.list false ["bold**".toList]] := by decide
  have hone := hblocks 1 (by decide)
  rw [hparsed, Option.some_inj] at hone
  subst hone
  revert hitems
  decide

end Losses

end Teleprompter.MarkdownLosses
