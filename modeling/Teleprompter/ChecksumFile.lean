import Teleprompter.FiniteDictionary
import Teleprompter.PairingLink

/-!
# The checksum file of a release

Each line holds a digest and a file name. The parser counts bytes and cuts the
line at a byte where its documentation has a regular expression over
characters. A cut inside a character panics, which is the missing result here.
-/

namespace Teleprompter.ChecksumFile

open FiniteDictionary
open PairingLink (isWhitespace)

/-- Bytes of a text. -/
def byteLen (s : List Char) : ℕ := (s.map Char.utf8Size).sum

/-- The text cut at a byte. A cut inside a character, or behind the end, is none. -/
def splitAtByte : ℕ → List Char → Option (List Char × List Char)
  | 0, s => some ([], s)
  | _ + 1, [] => none
  | n + 1, c :: s =>
    if c.utf8Size ≤ n + 1 then
      (splitAtByte (n + 1 - c.utf8Size) s).map fun cut => (c :: cut.1, cut.2)
    else none

def isCr (c : Char) : Bool := c == '\r'

def isLowerHex (c : Char) : Bool := ('a' ≤ c && c ≤ 'f') || ('0' ≤ c && c ≤ '9')

/-- A space or a tab. -/
def isBlank (c : Char) : Bool := c == ' ' || c == '\t'

/-- One carriage return is removed from the end. -/
def stripCr (line : List Char) : List Char :=
  if line.getLast? = some '\r' then line.dropLast else line

/-- The pieces in front of, between and behind the newlines. -/
def pieces (text : String) : List (List Char) := text.toList.splitOn '\n'

/-- Lines of a text. What stands in front of a newline loses one carriage return.
A last piece that is empty is no line. -/
def lines (text : String) : List (List Char) :=
  (pieces text).dropLast.map stripCr ++ (pieces text).getLast?.toList.filter fun line => line ≠ []

/-- A file name with its digest. -/
abbrev Row := List Char × List Char

/-- What the parser makes of a line: a panic, no row or a row. -/
def parseLine (line : List Char) : Option (Option Row) :=
  let line := line.rdropWhile isCr
  if byteLen line < 66 then some none
  else match splitAtByte 64 line with
    | none => none
    | some (hashPart, rest) =>
      if hashPart.all isLowerHex = true then
        let rest := rest.dropWhile isBlank
        if rest = [] then some none else some (some (rest, hashPart))
      else some none

def insertRow (map : Dict String String) (row : Option Row) : Dict String String :=
  match row with
  | some (name, hash) => map.insert (String.ofList name) (String.ofList hash)
  | none => map

/-- Digests by file name. A later line wins. -/
def parseChecksums (text : String) : Option (Dict String String) :=
  (lines text).foldlM (fun map line => (parseLine line).map (insertRow map)) ∅

/-- The row of a line as it is documented: 64 lower-case hexadecimal digits,
white space and a name, behind the removal of one carriage return. -/
def documentedRow (raw : List Char) : Option Row :=
  let hash := (stripCr raw).take 64
  let rest := (stripCr raw).drop 64
  if hash.length = 64 ∧ hash.all isLowerHex = true ∧ rest.head?.any isWhitespace = true ∧
      rest.dropWhile isWhitespace ≠ [] then
    some (rest.dropWhile isWhitespace, hash)
  else none

/-- The documented rows, a later one in place of an earlier one. -/
def documentedMap (text : String) : Dict String String :=
  ((pieces text).map documentedRow).foldl insertRow ∅

/-- What the parser does with a line is what the documented row says. -/
structure RegularLine (raw : List Char) : Prop where
  /-- The cut behind 64 bytes is not inside a character. -/
  notCut : 66 ≤ byteLen (raw.rdropWhile isCr) → (splitAtByte 64 (raw.rdropWhile isCr)).isSome
  /-- Behind a digest with two more bytes stand blanks only; or blanks, a name that does
  not begin with white space, and one carriage return at most. -/
  separated : ∀ hash rest, raw.rdropWhile isCr = hash ++ rest → hash.length = 64 →
    (∀ c ∈ hash, isLowerHex c = true) → 2 ≤ byteLen rest →
      rest.dropWhile isBlank = [] ∨
        rest.head?.any isBlank = true ∧ (rest.dropWhile isBlank).head?.any isWhitespace = false ∧
          ¬ ['\r', '\r'] <:+ raw

/-- The shape that a documented row has. -/
theorem documentedRow_eq_some {raw name hash : List Char} :
    documentedRow raw = some (name, hash) ↔
      hash.length = 64 ∧ (∀ c ∈ hash, isLowerHex c = true) ∧
        ∃ gap, stripCr raw = hash ++ (gap ++ name) ∧ gap ≠ [] ∧
          (∀ c ∈ gap, isWhitespace c = true) ∧ ∃ c rest, name = c :: rest ∧ isWhitespace c = false := by
  rw [documentedRow]
  constructor
  · intro h
    split at h
    · next hrow =>
      obtain ⟨hlength, hhex, hgap, hname⟩ := hrow
      simp only [Option.some.injEq, Prod.mk.injEq] at h
      obtain ⟨rfl, rfl⟩ := h
      refine ⟨hlength, List.all_eq_true.mp hhex,
        ((stripCr raw).drop 64).takeWhile isWhitespace, ?_, ?_, ?_, ?_⟩
      · rw [List.takeWhile_append_dropWhile, List.take_append_drop]
      · cases hdrop : (stripCr raw).drop 64 with
        | nil => rw [hdrop] at hgap; cases hgap
        | cons c rest =>
          rw [hdrop] at hgap
          simp only [List.head?_cons, Option.any_some] at hgap
          rw [List.takeWhile_cons_of_pos hgap]
          exact List.cons_ne_nil _ _
      · exact fun c hc => List.mem_takeWhile_imp hc
      · have hhead := List.head?_dropWhile_not isWhitespace ((stripCr raw).drop 64)
        cases hdrop : ((stripCr raw).drop 64).dropWhile isWhitespace with
        | nil => exact absurd hdrop hname
        | cons c rest =>
          rw [hdrop, List.head?_cons] at hhead
          exact ⟨c, rest, rfl, hhead⟩
    · cases h
  · rintro ⟨hlength, hhex, gap, hline, hgap, hwhite, c, rest, rfl, hc⟩
    have htake : (stripCr raw).take 64 = hash := by
      rw [hline, ← hlength, List.take_left']
      rfl
    have hdrop : (stripCr raw).drop 64 = gap ++ c :: rest := by
      rw [hline, ← hlength, List.drop_left']
      rfl
    have hname : (gap ++ c :: rest).dropWhile isWhitespace = c :: rest := by
      rw [List.dropWhile_append_of_pos hwhite, List.dropWhile_cons_of_neg (by simp [hc])]
    have hhead : (gap ++ c :: rest).head?.any isWhitespace = true := by
      cases gap with
      | nil => exact absurd rfl hgap
      | cons d gap => exact hwhite d List.mem_cons_self
    rw [htake, hdrop, hname, if_pos ⟨hlength, List.all_eq_true.mpr hhex, hhead, by simp⟩]

section Ends

/-- Elements that fail the test are not dropped from the end. -/
theorem rdropWhile_append {α : Type} {p : α → Bool} {front : List α}
    (h : ∀ c ∈ front, p c = false) (rest : List α) :
    (front ++ rest).rdropWhile p = front ++ rest.rdropWhile p := by
  induction rest using List.reverseRecOn with
  | nil =>
    rw [List.append_nil, List.rdropWhile_nil, List.append_nil, List.rdropWhile_eq_self_iff]
    intro hne
    rw [h _ (List.getLast_mem hne)]
    decide
  | append_singleton rest c ih =>
    rw [← List.append_assoc, List.rdropWhile_concat, List.rdropWhile_concat, ih]
    split
    · rfl
    · rw [List.append_assoc]

/-- One carriage return is removed behind other characters. -/
theorem stripCr_append {front : List Char} (h : '\r' ∉ front) (rest : List Char) :
    stripCr (front ++ rest) = front ++ stripCr rest := by
  cases hrest : rest with
  | nil =>
    have hlast : front.getLast? ≠ some '\r' := fun hlast => h (List.mem_of_getLast? hlast)
    rw [List.append_nil, stripCr, if_neg hlast]
    simp [stripCr]
  | cons c cs =>
    rw [stripCr, stripCr, List.getLast?_append_of_ne_nil front (List.cons_ne_nil c cs),
      List.dropLast_append_of_ne_nil (List.cons_ne_nil c cs)]
    split <;> rfl

/-- A text and the carriage returns at its end. -/
inductive CrEnd : List Char → List Char → ℕ → Prop where
  | mk {body : List Char} (count : ℕ) (h : body.getLast? ≠ some '\r') :
      CrEnd (body ++ List.replicate count '\r') body count

theorem exists_crEnd (raw : List Char) : ∃ body count, CrEnd raw body count := by
  induction raw using List.reverseRecOn with
  | nil => exact ⟨[], 0, @CrEnd.mk [] 0 (by simp)⟩
  | append_singleton cs c ih =>
    by_cases hc : c = '\r'
    · subst hc
      obtain ⟨body, count, ⟨_, h⟩⟩ := ih
      refine ⟨body, count + 1, ?_⟩
      rw [List.append_assoc, ← List.replicate_succ']
      exact .mk (count + 1) h
    · refine ⟨cs ++ [c], 0, ?_⟩
      have hend : (cs ++ [c]).getLast? ≠ some '\r' := by simpa using hc
      simpa using CrEnd.mk 0 hend

variable {raw body : List Char} {count : ℕ}

/-- All carriage returns at the end are dropped. -/
theorem CrEnd.rdropWhile_eq (h : CrEnd raw body count) : raw.rdropWhile isCr = body := by
  obtain ⟨_, h⟩ := h
  induction count with
  | zero =>
    rw [List.replicate_zero, List.append_nil, List.rdropWhile_eq_self_iff]
    intro hne hcr
    rw [List.getLast?_eq_some_getLast hne] at h
    exact h (congrArg some (beq_iff_eq.mp hcr))
  | succ count ih =>
    rw [List.replicate_succ', ← List.append_assoc, List.rdropWhile_concat_pos _ _ _ rfl, ih]

/-- One carriage return at the end is stripped. -/
theorem CrEnd.stripCr_eq (h : CrEnd raw body count) :
    stripCr raw = body ++ List.replicate (count - 1) '\r' := by
  obtain ⟨_, h⟩ := h
  cases count with
  | zero => simp [stripCr, h]
  | succ count => simp [stripCr, List.replicate_succ', ← List.append_assoc]

/-- Two carriage returns are at the end when a single removal leaves one. -/
theorem CrEnd.two_suffix_iff (h : CrEnd raw body count) :
    ['\r', '\r'] <:+ raw ↔ 2 ≤ count := by
  obtain ⟨_, h⟩ := h
  constructor
  · intro hsuffix
    by_contra hcount
    obtain rfl | rfl : count = 0 ∨ count = 1 := by omega
    · rw [List.replicate_zero, List.append_nil] at hsuffix
      obtain ⟨front, rfl⟩ := hsuffix
      simp at h
    · obtain ⟨front, hfront⟩ := hsuffix
      have hbody : front ++ ['\r'] = body :=
        List.append_cancel_right (by simpa using hfront : (front ++ ['\r']) ++ ['\r'] = body ++ ['\r'])
      rw [← hbody] at h
      simp at h
  · intro hcount
    obtain ⟨k, rfl⟩ : ∃ k, count = k + 2 := ⟨count - 2, by omega⟩
    exact ⟨body ++ List.replicate k '\r', by simp [List.replicate_add]⟩

/-- Only carriage returns at the end of the rest count. -/
theorem two_suffix_append_iff {front rest : List Char} (hfront : '\r' ∉ front) :
    ['\r', '\r'] <:+ front ++ rest ↔ ['\r', '\r'] <:+ rest := by
  obtain ⟨body, count, hend⟩ := exists_crEnd rest
  rw [hend.two_suffix_iff]
  obtain ⟨_, hbody⟩ := hend
  have hlast : (front ++ body).getLast? ≠ some '\r' := by
    intro hlast
    cases body with
    | nil =>
      rw [List.append_nil] at hlast
      exact hfront (List.mem_of_getLast? hlast)
    | cons c cs =>
      rw [List.getLast?_append_of_ne_nil front (List.cons_ne_nil c cs)] at hlast
      exact hbody hlast
  rw [← List.append_assoc, (CrEnd.mk count hlast).two_suffix_iff]

/-- A stripped carriage return would be dropped with the others. -/
theorem rdropWhile_stripCr (raw : List Char) :
    (stripCr raw).rdropWhile isCr = raw.rdropWhile isCr := by
  obtain ⟨body, count, h⟩ := exists_crEnd raw
  rw [h.rdropWhile_eq, h.stripCr_eq]
  obtain ⟨_, hend⟩ := h
  exact (CrEnd.mk _ hend).rdropWhile_eq

theorem parseLine_stripCr (raw : List Char) : parseLine (stripCr raw) = parseLine raw := by
  rw [parseLine, parseLine, rdropWhile_stripCr]

end Ends

section Cuts

theorem byteLen_append (s t : List Char) : byteLen (s ++ t) = byteLen s + byteLen t := by
  rw [byteLen, byteLen, byteLen, List.map_append, List.sum_append]

/-- A lower-case hexadecimal digit is one byte and no white space. -/
theorem hex_facts {c : Char} (h : isLowerHex c = true) :
    c.utf8Size = 1 ∧ isWhitespace c = false ∧ c ≠ '\r' := by
  have hbounds : 97 ≤ c.toNat ∧ c.toNat ≤ 102 ∨ 48 ≤ c.toNat ∧ c.toNat ≤ 57 := by
    simp only [isLowerHex, Bool.or_eq_true, Bool.and_eq_true, decide_eq_true_eq] at h
    exact h
  refine ⟨?_, ?_, ?_⟩
  · rw [Char.utf8Size_eq_one_iff]
    have hval : c.toNat ≤ 127 := by omega
    exact hval
  · simp [isWhitespace]
    omega
  · rintro rfl
    exact absurd h (by decide)

/-- One byte for each hexadecimal digit. -/
theorem byteLen_hex {hash : List Char} (h : ∀ c ∈ hash, isLowerHex c = true) :
    byteLen hash = hash.length := by
  induction hash with
  | nil => rfl
  | cons c cs ih =>
    have hcs := ih fun d hd => h d (List.mem_cons_of_mem c hd)
    rw [byteLen, List.map_cons, List.sum_cons, (hex_facts (h c List.mem_cons_self)).1,
      List.length_cons, ← hcs, byteLen, Nat.add_comm]

/-- Hexadecimal digits are cut off by their number. -/
theorem splitAtByte_hex {hash : List Char} (h : ∀ c ∈ hash, isLowerHex c = true)
    (rest : List Char) : splitAtByte hash.length (hash ++ rest) = some (hash, rest) := by
  induction hash with
  | nil => cases rest <;> rfl
  | cons c cs ih =>
    have hsize := (hex_facts (h c List.mem_cons_self)).1
    have hcs := ih fun d hd => h d (List.mem_cons_of_mem c hd)
    rw [List.length_cons, List.cons_append, splitAtByte, hsize, if_pos (by omega),
      Nat.add_sub_cancel, hcs]
    rfl

/-- A cut leaves two texts, the first one of the given size. -/
theorem of_splitAtByte {n : ℕ} {s front rest : List Char}
    (h : splitAtByte n s = some (front, rest)) : s = front ++ rest ∧ byteLen front = n := by
  induction s generalizing n front with
  | nil =>
    cases n with
    | zero => cases h; exact ⟨rfl, rfl⟩
    | succ n => cases h
  | cons c cs ih =>
    cases n with
    | zero => cases h; exact ⟨rfl, rfl⟩
    | succ n =>
      rw [splitAtByte] at h
      split at h
      · next hsize =>
        obtain ⟨⟨front, tail⟩, hcut, heq⟩ := Option.map_eq_some_iff.mp h
        cases heq
        obtain ⟨rfl, hfront⟩ := ih hcut
        refine ⟨rfl, ?_⟩
        rw [byteLen, List.map_cons, List.sum_cons, ← byteLen, hfront]
        omega
      · cases h

end Cuts

section Rows

/-- The name that the parser reads behind the digest. -/
def readName (rest : List Char) : Option (List Char) :=
  if byteLen rest < 2 then none
  else if rest.dropWhile isBlank = [] then none
  else some (rest.dropWhile isBlank)

/-- The documented name behind the digest. -/
def documentedName (rest : List Char) : Option (List Char) :=
  if rest.head?.any isWhitespace = true ∧ rest.dropWhile isWhitespace ≠ [] then
    some (rest.dropWhile isWhitespace)
  else none

theorem hex_not_cr {hash : List Char} (h : ∀ c ∈ hash, isLowerHex c = true) :
    ∀ c ∈ hash, isCr c = false := by
  intro c hc
  exact beq_eq_false_iff_ne.mpr (hex_facts (h c hc)).2.2

/-- Behind a digest only the name decides. -/
theorem parseLine_hex {hash rest : List Char} (hlength : hash.length = 64)
    (h : ∀ c ∈ hash, isLowerHex c = true) :
    parseLine (hash ++ rest) =
      some ((readName (rest.rdropWhile isCr)).map fun name => (name, hash)) := by
  have hcut := splitAtByte_hex h (rest.rdropWhile isCr)
  rw [hlength] at hcut
  rw [parseLine, rdropWhile_append (hex_not_cr h), byteLen_append, byteLen_hex h, hlength, hcut,
    readName]
  by_cases hlen : byteLen (rest.rdropWhile isCr) < 2
  · rw [if_pos (by omega), if_pos hlen, Option.map_none]
  · rw [if_neg (by omega), if_neg hlen]
    simp only [List.all_eq_true.mpr h, if_true]
    split <;> rfl

theorem documentedRow_hex {hash rest : List Char} (hlength : hash.length = 64)
    (h : ∀ c ∈ hash, isLowerHex c = true) :
    documentedRow (hash ++ rest) =
      (documentedName (stripCr rest)).map fun name => (name, hash) := by
  have hcr : '\r' ∉ hash := fun hmem => (hex_facts (h _ hmem)).2.2 rfl
  rw [documentedRow, stripCr_append hcr, List.take_left' hlength, List.drop_left' hlength,
    documentedName]
  simp only [hlength, List.all_eq_true.mpr h, true_and]
  split <;> rfl

/-- A blank is white space. -/
theorem isWhitespace_of_isBlank {c : Char} (h : isBlank c = true) : isWhitespace c = true := by
  rw [isBlank, Bool.or_eq_true, beq_iff_eq, beq_iff_eq] at h
  rcases h with rfl | rfl <;> decide

/-- White space alone has no name. -/
theorem documentedName_white {rest : List Char} (h : ∀ c ∈ rest, isWhitespace c = true) :
    documentedName rest = none := by
  have hdrop : rest.dropWhile isWhitespace = [] := List.dropWhile_eq_nil_iff.mpr h
  rw [documentedName, hdrop]
  simp

/-- A documented name does not begin with white space. -/
theorem head_documentedName {rest tail : List Char} {c : Char}
    (h : documentedName rest = some (c :: tail)) : isWhitespace c = false := by
  rw [documentedName] at h
  split at h
  · have hhead := List.head?_dropWhile_not isWhitespace rest
    rw [Option.some.inj h, List.head?_cons] at hhead
    exact hhead
  · cases h

/-- Behind blanks and in front of carriage returns stands a name. -/
theorem documentedName_append {blanks tail crs : List Char} {c : Char}
    (hblanks : ∀ d ∈ blanks, isBlank d = true) (hc : isWhitespace c = false) :
    documentedName (blanks ++ (c :: tail ++ crs)) =
      if blanks = [] then none else some (c :: tail ++ crs) := by
  have hwhite : ∀ d ∈ blanks, isWhitespace d = true := fun d hd =>
    isWhitespace_of_isBlank (hblanks d hd)
  have hdrop : (blanks ++ (c :: tail ++ crs)).dropWhile isWhitespace = c :: tail ++ crs := by
    rw [List.dropWhile_append_of_pos hwhite, List.cons_append,
      List.dropWhile_cons_of_neg (by simp [hc])]
  rw [documentedName, hdrop]
  cases blanks with
  | nil => simp [hc]
  | cons d ds => simp [hwhite d List.mem_cons_self]

/-- A text of less than two bytes has no name. -/
theorem documentedName_short {body crs : List Char} (hlen : byteLen body < 2)
    (hcrs : ∀ c ∈ crs, isWhitespace c = true) : documentedName (body ++ crs) = none := by
  have hpos (c : Char) : 1 ≤ c.utf8Size := c.utf8Size_pos
  match body, hlen with
  | [], _ => exact documentedName_white hcrs
  | [c], _ =>
    cases hc : isWhitespace c with
    | false => simp [documentedName, hc]
    | true =>
      refine documentedName_white fun d hd => ?_
      rcases List.mem_append.mp hd with hd | hd
      · rw [List.mem_singleton.mp hd, hc]
      · exact hcrs d hd
  | c :: d :: tail, hlen =>
    have hc := hpos c
    have hd := hpos d
    simp only [byteLen, List.map_cons, List.sum_cons] at hlen
    omega

/-- When the name behind a digest is read as documented. -/
theorem readName_eq_documented_iff (rest : List Char) :
    readName (rest.rdropWhile isCr) = documentedName (stripCr rest) ↔
      (2 ≤ byteLen (rest.rdropWhile isCr) → (rest.rdropWhile isCr).dropWhile isBlank = [] ∨
        (rest.rdropWhile isCr).head?.any isBlank = true ∧
          ((rest.rdropWhile isCr).dropWhile isBlank).head?.any isWhitespace = false ∧
            ¬ ['\r', '\r'] <:+ rest) := by
  obtain ⟨body, count, hend⟩ := exists_crEnd rest
  rw [hend.rdropWhile_eq, hend.stripCr_eq, hend.two_suffix_iff]
  have hcrs : ∀ c ∈ List.replicate (count - 1) '\r', isWhitespace c = true := by
    intro c hc
    rw [List.eq_of_mem_replicate hc]
    decide
  by_cases hlen : byteLen body < 2
  · rw [documentedName_short hlen hcrs, readName, if_pos hlen]
    exact iff_of_true rfl fun h => absurd h (by omega)
  · have hcut := List.takeWhile_append_dropWhile (p := isBlank) (l := body)
    have hblanks : ∀ d ∈ body.takeWhile isBlank, isBlank d = true := fun d hd =>
      List.mem_takeWhile_imp hd
    have hstop := List.head?_dropWhile_not isBlank body
    rw [readName, if_neg hlen, forall_prop_of_true (by omega)]
    generalize body.takeWhile isBlank = blanks at hcut hblanks
    cases hname : body.dropWhile isBlank with
    | nil =>
      rw [hname, List.append_nil] at hcut
      subst hcut
      rw [if_pos rfl, documentedName_white]
      · simp
      · intro c hc
        rcases List.mem_append.mp hc with hc | hc
        · exact isWhitespace_of_isBlank (hblanks c hc)
        · exact hcrs c hc
    | cons c tail =>
      rw [hname, List.head?_cons] at hstop
      rw [hname] at hcut
      subst hcut
      rw [if_neg (List.cons_ne_nil c tail), List.append_assoc, or_iff_right (List.cons_ne_nil c tail)]
      cases hc : isWhitespace c with
      | true =>
        refine iff_of_false (fun h => ?_) (by simp [hc])
        rw [head_documentedName h.symm] at hc
        cases hc
      | false =>
        rw [documentedName_append hblanks hc]
        cases blanks with
        | nil =>
          have hblank : isBlank c = false := hstop
          exact iff_of_false (by simp) (by simp [hblank])
        | cons d ds =>
          have hone : c :: tail = c :: tail ++ List.replicate (count - 1) '\r' ↔ ¬ 2 ≤ count := by
            rw [List.self_eq_append_right, List.replicate_eq_nil_iff]
            omega
          rw [if_neg (List.cons_ne_nil d ds), Option.some.injEq, hone]
          simp [hc, hblanks d List.mem_cons_self]

/-- A line without a digest in front is skipped, or the cut panics. -/
theorem parseLine_of_no_hash {raw : List Char}
    (h : ∀ hash rest, raw.rdropWhile isCr = hash ++ rest → hash.length = 64 →
      ¬ ∀ c ∈ hash, isLowerHex c = true) :
    parseLine raw = some none ↔
      (66 ≤ byteLen (raw.rdropWhile isCr) → (splitAtByte 64 (raw.rdropWhile isCr)).isSome) := by
  rw [parseLine]
  by_cases hlen : byteLen (raw.rdropWhile isCr) < 66
  · rw [if_pos hlen]
    exact iff_of_true rfl fun h => absurd h (by omega)
  · rw [if_neg hlen, forall_prop_of_true (by omega)]
    cases hcut : splitAtByte 64 (raw.rdropWhile isCr) with
    | none => simp
    | some cut =>
      obtain ⟨hashPart, rest⟩ := cut
      obtain ⟨hraw, hbytes⟩ := of_splitAtByte hcut
      have hnot : ¬ hashPart.all isLowerHex = true := by
        intro hall
        have hhex := List.all_eq_true.mp hall
        rw [byteLen_hex hhex] at hbytes
        exact h hashPart rest hraw hbytes hhex
      simp [hnot]

theorem documentedRow_of_no_hash {raw : List Char}
    (h : ∀ hash rest, raw.rdropWhile isCr = hash ++ rest → hash.length = 64 →
      ¬ ∀ c ∈ hash, isLowerHex c = true) : documentedRow raw = none := by
  cases hrow : documentedRow raw with
  | none => rfl
  | some row =>
    obtain ⟨hlength, hhex, gap, hline, -⟩ := (@documentedRow_eq_some raw row.1 row.2).mp hrow
    have hdrop := rdropWhile_stripCr raw
    rw [hline, rdropWhile_append (hex_not_cr hhex)] at hdrop
    exact absurd hhex (h _ _ hdrop.symm hlength)

/-- The parser treats a line as documented exactly when the line is regular. -/
theorem parseLine_eq_documented_iff (raw : List Char) :
    parseLine raw = some (documentedRow raw) ↔ RegularLine raw := by
  by_cases hhash : ∃ hash rest, raw.rdropWhile isCr = hash ++ rest ∧ hash.length = 64 ∧
      ∀ c ∈ hash, isLowerHex c = true
  · obtain ⟨hash, body, hbody, hlength, hhex⟩ := hhash
    obtain ⟨rest, hraw, hrest⟩ : ∃ rest, raw = hash ++ rest ∧ rest.rdropWhile isCr = body := by
      refine ⟨body ++ raw.rtakeWhile isCr, ?_, ?_⟩
      · rw [← List.append_assoc, ← hbody, List.rdropWhile_append_rtakeWhile]
      · have hself : raw.rdropWhile isCr = hash ++ (body ++ raw.rtakeWhile isCr).rdropWhile isCr := by
          rw [← rdropWhile_append (hex_not_cr hhex), ← List.append_assoc, ← hbody,
            List.rdropWhile_append_rtakeWhile]
        rw [hbody] at hself
        exact (List.append_cancel_left hself).symm
    have hname : parseLine raw = some (documentedRow raw) ↔
        readName (rest.rdropWhile isCr) = documentedName (stripCr rest) := by
      rw [hraw, parseLine_hex hlength hhex, documentedRow_hex hlength hhex, Option.some.injEq]
      refine ⟨fun h => ?_, fun h => by rw [h]⟩
      exact Option.map_injective (fun a b hab => (Prod.mk.inj hab).1) h
    have hsuffix : ['\r', '\r'] <:+ raw ↔ ['\r', '\r'] <:+ rest := by
      rw [hraw]
      exact two_suffix_append_iff fun hmem => (hex_facts (hhex _ hmem)).2.2 rfl
    rw [hname, readName_eq_documented_iff, hrest, ← hsuffix]
    constructor
    · intro h
      refine ⟨fun _ => ?_, ?_⟩
      · have hcut := splitAtByte_hex hhex body
        rw [hlength] at hcut
        rw [hbody, hcut]
        rfl
      · intro hash' body' hbody' hlength' _ hlen
        obtain ⟨rfl, rfl⟩ := List.append_inj (hbody.symm.trans hbody') (by rw [hlength, hlength'])
        exact h hlen
    · exact fun h hlen => h.separated hash body hbody hlength hhex hlen
  · have hno : ∀ hash rest, raw.rdropWhile isCr = hash ++ rest → hash.length = 64 →
        ¬ ∀ c ∈ hash, isLowerHex c = true := fun hash rest hraw hlength hhex =>
      hhash ⟨hash, rest, hraw, hlength, hhex⟩
    rw [documentedRow_of_no_hash hno, parseLine_of_no_hash hno]
    constructor
    · intro hcut
      exact ⟨hcut, fun hash rest hraw hlength hhex _ => absurd hhex (hno hash rest hraw hlength)⟩
    · exact fun h => h.notCut

end Rows

section Files

/-- Lines that are all treated as given add their rows in order. -/
theorem foldlM_parseLine {row : List Char → Option Row} {ls : List (List Char)}
    (h : ∀ line ∈ ls, parseLine line = some (row line)) (map : Dict String String) :
    ls.foldlM (fun map line => (parseLine line).map (insertRow map)) map =
      some ((ls.map row).foldl insertRow map) := by
  induction ls generalizing map with
  | nil => rfl
  | cons line ls ih =>
    rw [List.foldlM_cons, h line List.mem_cons_self, Option.map_some, Option.bind_eq_bind,
      Option.bind_some, ih fun l hl => h l (List.mem_cons_of_mem line hl), List.map_cons,
      List.foldl_cons]

/-- The rows of the lines are those of the pieces between the newlines. -/
theorem parseChecksums_of_rows {text : String}
    (h : ∀ raw ∈ pieces text, parseLine raw = some (documentedRow raw)) :
    parseChecksums text = some (documentedMap text) := by
  rw [parseChecksums, documentedMap, lines]
  have hfront {front : List (List Char)} (hrows : ∀ raw ∈ front, parseLine raw =
      some (documentedRow raw)) (map : Dict String String) :
      (front.map stripCr).foldlM (fun map line => (parseLine line).map (insertRow map)) map =
        some ((front.map documentedRow).foldl insertRow map) := by
    rw [← foldlM_parseLine hrows, List.foldlM_map]
    simp only [parseLine_stripCr]
  induction hpieces : pieces text using List.reverseRecOn with
  | nil => rfl
  | append_singleton front last _ =>
    rw [hpieces] at h
    have hrows := hfront (fun raw hraw => h raw (List.mem_append_left [last] hraw)) ∅
    have hlast := h last (List.mem_append_right front List.mem_cons_self)
    rw [List.dropLast_concat, List.getLast?_concat, List.foldlM_append, hrows, List.map_append,
      List.foldl_append]
    by_cases hempty : last = []
    · subst hempty
      have hnone : documentedRow [] = none := by decide
      simp [hnone, insertRow]
    · simp [hempty, hlast]

/-- The parser returns the documented rows of all lines, the later ones in place
of the earlier ones, exactly when every line is regular. -/
theorem parseChecksums_eq_documented_iff (text : String) :
    (parseChecksums text = some (documentedMap text) ∧
      ∀ raw ∈ pieces text, parseLine raw = some (documentedRow raw)) ↔
        ∀ raw ∈ pieces text, RegularLine raw := by
  have hlines : (∀ raw ∈ pieces text, parseLine raw = some (documentedRow raw)) ↔
      ∀ raw ∈ pieces text, RegularLine raw :=
    forall₂_congr fun raw _ => parseLine_eq_documented_iff raw
  rw [← hlines]
  exact and_iff_right_of_imp parseChecksums_of_rows

/-- A digest of 64 zeros. -/
def zeros : String := String.ofList (List.replicate 64 '0')

/-- A name directly behind the digest is entered, and a character across the cut panics. -/
theorem parseChecksums_irregular :
    (parseChecksums (zeros ++ "tp")).map (fun map => map.lookup "tp") = some (some zeros) ∧
      (documentedMap (zeros ++ "tp")).lookup "tp" = none ∧
      parseChecksums (String.ofList (List.replicate 63 'x') ++ "é tp") = none := by
  decide +kernel

end Files

end Teleprompter.ChecksumFile
