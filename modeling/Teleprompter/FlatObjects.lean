import Teleprompter.JsonLiterals
import Mathlib.Data.List.TakeWhile

/-!
# Flat JSON objects

Objects whose values are texts and natural numbers, written without blanks in
the order of their fields, with a library for the string literals. A reader takes
such an object apart again: a literal ends at its first quote that is not escaped,
and a number at the first character that is no digit.
-/

namespace Teleprompter.FlatObjects

open JsonLiterals

section Texts

/-- Value of a field. -/
inductive FieldValue where
  | str (s : List Char)
  | num (n : ℕ)
  deriving DecidableEq

/-- A field with its name. -/
abbrev Field := List Char × FieldValue

variable (json : LiteralWriter)

/-- A value as it is written. -/
def valueText : FieldValue → List Char
  | .str s => json.write s
  | .num n => Nat.toDigits 10 n

/-- A field as it is written. -/
def fieldText (field : Field) : List Char := json.write field.1 ++ ':' :: valueText json field.2

/-- Fields with commas between them, and the closing brace. -/
def membersText : List Field → List Char
  | [] => ['}']
  | [field] => fieldText json field ++ ['}']
  | field :: fields => fieldText json field ++ ',' :: membersText fields

/-- An object. -/
def writeObject (fields : List Field) : List Char := '{' :: membersText json fields

/-- What stands before the closing quote of a literal, and what stands behind it. -/
def splitLiteral : List Char → Option (List Char × List Char)
  | [] => none
  | c :: rest =>
    if c = '"' then some ([], rest)
    else if c = '\\' then
      match rest with
      | [] => none
      | e :: rest => (splitLiteral rest).map fun p => (c :: e :: p.1, p.2)
    else (splitLiteral rest).map fun p => (c :: p.1, p.2)

/-- A literal in front of a text. -/
def readString : List Char → Option (List Char × List Char)
  | '"' :: rest =>
    (splitLiteral rest).bind fun p => (readContent (p.1 ++ ['"'])).map fun s => (s, p.2)
  | _ => none

/-- A number in front of a text. -/
def readNumber (text : List Char) : Option (ℕ × List Char) :=
  let digits := text.takeWhile Char.isDigit
  if digits = [] then none
  else some (Nat.ofDigitChars 10 digits 0, text.dropWhile Char.isDigit)

/-- A value in front of a text. -/
def readValue (text : List Char) : Option (FieldValue × List Char) :=
  match readString text with
  | some (s, rest) => some (.str s, rest)
  | none => (readNumber text).map fun p => (.num p.1, p.2)

/-- A field in front of a text. -/
def readField (text : List Char) : Option (Field × List Char) :=
  match readString text with
  | some (name, ':' :: rest) => (readValue rest).map fun p => ((name, p.1), p.2)
  | _ => none

/-- At least one field and the closing brace, with so many fields at most. -/
def readMembers : ℕ → List Char → Option (List Field)
  | 0, _ => none
  | n + 1, text =>
    match readField text with
    | some (field, ',' :: rest) => (readMembers n rest).map fun fields => field :: fields
    | some (field, ['}']) => some [field]
    | _ => none

/-- The fields of an object. -/
def readObject : List Char → Option (List Field)
  | '{' :: rest => if rest = ['}'] then some [] else readMembers rest.length rest
  | _ => none

end Texts

section Literals

theorem splitLiteral_plain {c : Char} (hquote : c ≠ '"') (hescape : c ≠ '\\') (rest : List Char) :
    splitLiteral (c :: rest) = (splitLiteral rest).map fun p => (c :: p.1, p.2) := by
  rw [splitLiteral.eq_def]
  dsimp only
  rw [if_neg hquote, if_neg hescape]

theorem splitLiteral_escaped (e : Char) (rest : List Char) :
    splitLiteral ('\\' :: e :: rest) = (splitLiteral rest).map fun p => ('\\' :: e :: p.1, p.2) := by
  rw [splitLiteral.eq_def]
  dsimp only
  rw [if_neg (by decide), if_pos rfl]

/-- A text ends with a quote that closes it, and does so whatever follows. -/
def Ends (text : List Char) : Prop :=
  ∃ content, text = content ++ ['"'] ∧ ∀ rest, splitLiteral (text ++ rest) = some (content, rest)

theorem ends_quote : Ends ['"'] := by
  refine ⟨[], rfl, fun rest => ?_⟩
  rw [List.singleton_append, splitLiteral.eq_def]
  rfl

variable {text : List Char}

theorem Ends.plain {c : Char} (hquote : c ≠ '"') (hescape : c ≠ '\\') (h : Ends text) :
    Ends (c :: text) := by
  obtain ⟨content, rfl, hsplit⟩ := h
  refine ⟨c :: content, rfl, fun rest => ?_⟩
  rw [List.cons_append, splitLiteral_plain hquote hescape, hsplit rest, Option.map_some]

theorem Ends.escaped (e : Char) (h : Ends text) : Ends ('\\' :: e :: text) := by
  obtain ⟨content, rfl, hsplit⟩ := h
  refine ⟨'\\' :: e :: content, rfl, fun rest => ?_⟩
  rw [List.cons_append, List.cons_append, splitLiteral_escaped, hsplit rest, Option.map_some]

/-- Hexadecimal digits neither close nor escape. -/
theorem Ends.digit {c : Char} (hdigit : (hexValue c).isSome = true) (h : Ends text) :
    Ends (c :: text) := by
  refine h.plain ?_ ?_
  · rintro rfl
    exact absurd hdigit (by decide)
  · rintro rfl
    exact absurd hdigit (by decide)

/-- Neither does a code unit. -/
theorem Ends.unit {a b c d : Char} (hunit : (codeUnit a b c d).isSome = true) (h : Ends text) :
    Ends ('\\' :: 'u' :: a :: b :: c :: d :: text) := by
  obtain ⟨n, hn⟩ := Option.isSome_iff_exists.mp hunit
  rw [codeUnit] at hn
  obtain ⟨_, ha, hn⟩ := Option.bind_eq_some_iff.mp hn
  obtain ⟨_, hb, hn⟩ := Option.bind_eq_some_iff.mp hn
  obtain ⟨_, hc, hn⟩ := Option.bind_eq_some_iff.mp hn
  obtain ⟨_, hd, -⟩ := Option.bind_eq_some_iff.mp hn
  exact ((((h.digit (Option.isSome_of_mem hd)).digit (Option.isSome_of_mem hc)).digit
    (Option.isSome_of_mem hb)).digit (Option.isSome_of_mem ha)).escaped 'u'

/-- What reads as the end of a literal ends where it is read. -/
theorem ends_of_readContent {s : List Char} : readContent text = some s → Ends text := by
  fun_induction readContent text generalizing s with
  | case1 | case3 | case4 | case7 | case8 | case10 | case11 => exact nofun
  | case2 => exact fun _ => ends_quote
  | case5 a b c d rest char hchar _ _ ih =>
    intro h
    obtain ⟨content, hcontent, -⟩ := Option.map_eq_some_iff.mp h
    obtain ⟨unit, hunit, -⟩ := Option.bind_eq_some_iff.mp hchar
    exact (ih hcontent).unit (Option.isSome_of_mem hunit)
  | case6 a b c d _ e f g h rest char hchar _ _ ih =>
    intro hread
    obtain ⟨content, hcontent, -⟩ := Option.map_eq_some_iff.mp hread
    obtain ⟨high, hhigh, hpair⟩ := Option.bind_eq_some_iff.mp hchar
    obtain ⟨low, hlow, -⟩ := Option.bind_eq_some_iff.mp hpair
    exact ((ih hcontent).unit (Option.isSome_of_mem hlow)).unit (Option.isSome_of_mem hhigh)
  | case9 e rest _ char _ _ _ ih =>
    intro h
    obtain ⟨content, hcontent, -⟩ := Option.map_eq_some_iff.mp h
    exact (ih hcontent).escaped e
  | case12 c rest hquote _ hescape ih =>
    intro h
    obtain ⟨content, hcontent, -⟩ := Option.map_eq_some_iff.mp h
    exact (ih hcontent).plain hquote hescape

/-- A literal is read back in front of any text. -/
theorem readString_append (json : LiteralWriter) (s rest : List Char) :
    readString (json.write s ++ rest) = some (s, rest) := by
  have hread := json.readLiteral_write s
  rw [readLiteral.eq_def] at hread
  split at hread
  · next text htext =>
    obtain ⟨content, rfl, hsplit⟩ := ends_of_readContent hread
    rw [htext, List.cons_append, readString, hsplit, Option.bind_some]
    dsimp only
    rw [hread]
    rfl
  · cases hread

end Literals

section Objects

variable (json : LiteralWriter)

/-- The text does not go on with a digit. -/
def Undigited (rest : List Char) : Prop := ∀ c ∈ rest.head?, c.isDigit = false

theorem takeWhile_digits {digits rest : List Char} (h : ∀ c ∈ digits, c.isDigit = true)
    (hrest : Undigited rest) :
    (digits ++ rest).takeWhile Char.isDigit = digits ∧
      (digits ++ rest).dropWhile Char.isDigit = rest := by
  have hstop : rest.takeWhile Char.isDigit = [] ∧ rest.dropWhile Char.isDigit = rest := by
    cases rest with
    | nil => exact ⟨rfl, rfl⟩
    | cons c rest =>
      have hc : c.isDigit = false := hrest c rfl
      exact ⟨List.takeWhile_cons_of_neg (by simp [hc]), List.dropWhile_cons_of_neg (by simp [hc])⟩
  rw [List.takeWhile_append_of_pos h, List.dropWhile_append_of_pos h, hstop.1, hstop.2,
    List.append_nil]
  exact ⟨rfl, rfl⟩

/-- A number is no literal. -/
theorem readString_digits {digits : List Char} (h : ∀ c ∈ digits, c.isDigit = true)
    (hne : digits ≠ []) (rest : List Char) : readString (digits ++ rest) = none := by
  cases digits with
  | nil => exact absurd rfl hne
  | cons c digits =>
    have hquote : c ≠ '"' := by
      intro heq
      have hdigit := h c List.mem_cons_self
      rw [heq] at hdigit
      exact absurd hdigit (by decide)
    rw [List.cons_append, readString.eq_def]
    split
    · next heq => exact absurd (List.cons.inj heq).1 hquote
    · rfl

theorem readValue_append (v : FieldValue) {rest : List Char} (hrest : Undigited rest) :
    readValue (valueText json v ++ rest) = some (v, rest) := by
  cases v with
  | str s => rw [readValue, valueText, readString_append]
  | num n =>
    have hdigits : ∀ c ∈ Nat.toDigits 10 n, c.isDigit = true := fun c hc =>
      Nat.isDigit_of_mem_toDigits (by decide) (by decide) hc
    have hne : Nat.toDigits 10 n ≠ [] := Nat.toDigits_ne_nil
    obtain ⟨htake, hdrop⟩ := takeWhile_digits hdigits hrest
    rw [readValue, valueText, readString_digits hdigits hne]
    dsimp only
    rw [readNumber, htake, hdrop, if_neg hne, Nat.ofDigitChars_ten_toDigits]
    rfl

theorem readField_append (field : Field) {rest : List Char} (hrest : Undigited rest) :
    readField (fieldText json field ++ rest) = some (field, rest) := by
  rw [readField, fieldText, List.append_assoc, readString_append, List.cons_append]
  change (readValue (valueText json field.2 ++ rest)).map _ = _
  rw [readValue_append json field.2 hrest]
  rfl

theorem length_le_membersText json (fields : List Field) :
    fields.length ≤ (membersText json fields).length := by
  induction fields using membersText.induct with
  | case1 => exact Nat.zero_le _
  | case2 field =>
    rw [membersText, List.length_append, List.length_singleton, List.length_singleton]
    omega
  | case3 field fields _ ih =>
    rw [membersText, List.length_append, List.length_cons, List.length_cons]
    · omega
    · assumption

/-- Fields are read back, if the reader expects enough of them. -/
theorem readMembers_membersText {fields : List Field} (hne : fields ≠ []) {n : ℕ}
    (hn : fields.length ≤ n) : readMembers n (membersText json fields) = some fields := by
  have hcomma (rest : List Char) : Undigited (',' :: rest) := fun c hc => by
    obtain rfl : ',' = c := Option.some.inj hc
    decide
  have hbrace : Undigited ['}'] := fun c hc => by
    obtain rfl : '}' = c := Option.some.inj hc
    decide
  induction fields using membersText.induct generalizing n with
  | case1 => exact absurd rfl hne
  | case2 field =>
    cases n with
    | zero => exact absurd hn (by simp)
    | succ n =>
      rw [membersText, readMembers, readField_append json field hbrace]
      rfl
  | case3 field fields hmore ih =>
    cases n with
    | zero => exact absurd hn (by simp)
    | succ n =>
      have hlen : fields.length ≤ n := by
        rw [List.length_cons] at hn
        omega
      rw [membersText, readMembers, readField_append json field (hcomma _)]
      · change (readMembers n (membersText json fields)).map _ = _
        rw [ih hmore hlen]
        rfl
      · exact hmore

/-- An object is read back. -/
theorem readObject_writeObject (fields : List Field) :
    readObject (writeObject json fields) = some fields := by
  rw [writeObject, readObject]
  cases fields with
  | nil => rfl
  | cons field fields =>
    have hne : membersText json (field :: fields) ≠ ['}'] := by
      intro heq
      have hfirst : ∃ rest, membersText json (field :: fields) = json.write field.1 ++ rest := by
        cases fields with
        | nil => exact ⟨_, List.append_assoc _ _ _⟩
        | cons => exact ⟨_, List.append_assoc _ _ _⟩
      obtain ⟨rest, hrest⟩ := hfirst
      have hread := readString_append json field.1 rest
      rw [← hrest, heq] at hread
      cases hread
    rw [if_neg hne]
    exact readMembers_membersText json (List.cons_ne_nil _ _) (length_le_membersText json _)

end Objects

end Teleprompter.FlatObjects
