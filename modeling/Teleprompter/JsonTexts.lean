import Teleprompter.JsonValues
import Teleprompter.StableReaders

/-!
# JSON texts

A reader of JSON texts as byte strings. Which byte strings stand for a number
or for the content of a string is left to two functions, the rest is the
grammar with a limit on nesting. An object marks its own end, so the reader
finds the same object however much of the text behind it is there.
-/

namespace Teleprompter.JsonTexts

open JsonValues StableReaders

/-- The byte of an ASCII character. -/
def ascii (c : Char) : UInt8 := UInt8.ofNat c.toNat

def isJsonWhite (b : UInt8) : Bool :=
  b == ascii ' ' || b == ascii '\t' || b == ascii '\n' || b == ascii '\r'

def isDigitByte (b : UInt8) : Bool := ascii '0' ≤ b && b ≤ ascii '9'

/-- What the text of a number and the content of a string stand for. -/
structure Contents where
  /-- The number that a text stands for, if it is one. -/
  toNumber : List UInt8 → Option Number
  /-- The text between the quotes, when its escapes are valid. -/
  toText : List UInt8 → Option String

section Readers

variable (c : Contents)

/-- A part that is there when the next byte says so. -/
def optionalPart (start : UInt8 → Bool) (part : Reader UInt8 (List UInt8)) :
    Reader UInt8 (List UInt8) := do
  let b ← peek
  if b.any start = true then part else pure []

/-- One byte of a kind. -/
def oneByte (p : UInt8 → Bool) : Reader UInt8 (List UInt8) := do
  let b ← satisfy p
  pure [b]

/-- One digit or more. -/
def readDigits : Reader UInt8 (List UInt8) := do
  let d ← satisfy isDigitByte
  let ds ← takeAll isDigitByte
  pure (d :: ds)

/-- The digits behind the first one. Nothing belongs to a zero. -/
def laterDigits (d : UInt8) : Reader UInt8 (List UInt8) :=
  if d = ascii '0' then pure [] else takeAll isDigitByte

/-- A zero, or digits that do not begin with one. -/
def readInteger : Reader UInt8 (List UInt8) := do
  let d ← satisfy isDigitByte
  let ds ← laterDigits d
  pure (d :: ds)

def readFraction : Reader UInt8 (List UInt8) := do
  let dot ← oneByte fun b => b == ascii '.'
  let ds ← readDigits
  pure (dot ++ ds)

def readExponent : Reader UInt8 (List UInt8) := do
  let e ← oneByte fun b => b == ascii 'e' || b == ascii 'E'
  let sign ← optionalPart (fun b => b == ascii '+' || b == ascii '-') (oneByte fun _ => true)
  let ds ← readDigits
  pure (e ++ sign ++ ds)

/-- The converted value, or a failure. -/
def ofOption {α : Type} : Option α → Reader UInt8 α
  | some a => pure a
  | none => failure

def readNumber : Reader UInt8 Json := do
  let minus ← optionalPart (fun b => b == ascii '-') (oneByte fun _ => true)
  let int ← readInteger
  let frac ← optionalPart (fun b => b == ascii '.') readFraction
  let exp ← optionalPart (fun b => b == ascii 'e' || b == ascii 'E') readExponent
  let n ← ofOption (c.toNumber (minus ++ int ++ frac ++ exp))
  pure (.number n)

/-- The content of a string up to the quote that ends it. The byte behind a
backslash does not end it, and control characters do not occur. -/
def scanString : List UInt8 → Option (List UInt8 × List UInt8)
  | [] => none
  | b :: rest =>
    if b = ascii '"' then some ([], rest)
    else if b < 0x20 then none
    else if b = ascii '\\' then
      match rest with
      | [] => none
      | escaped :: rest => (scanString rest).map fun r => (b :: escaped :: r.1, r.2)
    else (scanString rest).map fun r => (b :: r.1, r.2)

def readString : Reader UInt8 String := do
  let _ ← satisfy fun b => b == ascii '"'
  let content ← (scanString : Reader UInt8 (List UInt8))
  ofOption (c.toText content)

/-- The bytes of a word. -/
def literal : List UInt8 → Reader UInt8 Unit
  | [] => pure ()
  | b :: bs => do
    let _ ← satisfy fun d => d == b
    literal bs

/-- Items up to a closing byte. The fuel is enough for an item of each byte. -/
def readItems {α σ : Type} (close : UInt8) (item : Reader UInt8 α) (add : σ → α → σ) (acc : σ) :
    Reader UInt8 σ :=
  fun inp => items isJsonWhite close (ascii ',') item add (inp.length + 1) true acc inp

/-- A field of an object. -/
def readField (value : Reader UInt8 Json) : Reader UInt8 (String × Json) := do
  let _ ← takeAll isJsonWhite
  let key ← readString c
  let _ ← takeAll isJsonWhite
  let _ ← satisfy fun b => b == ascii ':'
  let v ← value
  pure (key, v)

/-- A later field of a name replaces an earlier one. -/
def addField (fields : Object) (field : String × Json) : Object :=
  if (fields.get field.1).isSome = true then
    fields.map fun old => if old.1 = field.1 then field else old
  else fields ++ [field]

def readObject (value : Reader UInt8 Json) : Reader UInt8 Json := do
  let _ ← satisfy fun b => b == ascii '{'
  let fields ← readItems (ascii '}') (readField c value) addField []
  pure (.object fields)

def readArray (value : Reader UInt8 Json) : Reader UInt8 Json := do
  let _ ← satisfy fun b => b == ascii '['
  let values ← readItems (ascii ']') value (fun values v => values ++ [v]) []
  pure (.array values)

/-- A value whose first byte is known, with the levels of nesting that are left. -/
def readKind (value : Reader UInt8 Json) (depth : ℕ) (b : Option UInt8) : Reader UInt8 Json :=
  if b = some (ascii '{') then if depth = 0 then failure else readObject c value
  else if b = some (ascii '[') then if depth = 0 then failure else readArray value
  else if b = some (ascii '"') then do
    let s ← readString c
    pure (.string s)
  else if b = some (ascii 't') then do
    literal ("true".toList.map ascii)
    pure (.bool true)
  else if b = some (ascii 'f') then do
    literal ("false".toList.map ascii)
    pure (.bool false)
  else if b = some (ascii 'n') then do
    literal ("null".toList.map ascii)
    pure .null
  else readNumber c

/-- A value behind white space. -/
def readValue : ℕ → Reader UInt8 Json
  | 0 => failure
  | depth + 1 => do
    let _ ← takeAll isJsonWhite
    let b ← peek
    readKind c (readValue depth) depth b

/-- Levels of nesting that a text may have. -/
def recursionLimit : ℕ := 128

/-- The value of a text, with nothing but white space around it. -/
def fromSlice (text : List UInt8) : Option Json :=
  (readValue c recursionLimit text).bind fun r =>
    if r.2.all isJsonWhite = true then some r.1 else none

end Readers

section Stability

variable {c : Contents} {value : Reader UInt8 Json}

/-- Giving a value that is there or failing reads nothing. -/
theorem closed_ofOption {α : Type} (a : Option α) : Closed (ofOption a) := by
  cases a with
  | none => exact .failure
  | some a => exact .pure a

/-- A part that may be left out is stable when the part is. -/
theorem stable_optionalPart {start : UInt8 → Bool} {part : Reader UInt8 (List UInt8)}
    (h : Stable part) : Stable (optionalPart start part) := by
  refine Stable.peek.bind fun b => ?_
  split
  · exact h
  · exact (Closed.pure _).stable

/-- One byte is read whatever follows it. -/
theorem closed_oneByte (p : UInt8 → Bool) : Closed (oneByte p) :=
  (Closed.satisfy p).bind fun _ => .pure _

/-- Digits end at the first other byte. -/
theorem stable_readDigits : Stable readDigits :=
  (Closed.satisfy _).stable.bind fun _ => (Stable.takeAll _).bind fun _ => (Closed.pure _).stable

/-- The integer part ends at the first byte that is not a digit. -/
theorem stable_readInteger : Stable readInteger := by
  refine (Closed.satisfy _).stable.bind fun d => Stable.bind ?_ fun _ => (Closed.pure _).stable
  rw [laterDigits]
  split
  · exact (Closed.pure _).stable
  · exact .takeAll _

/-- The fraction ends at the first byte that is not a digit. -/
theorem stable_readFraction : Stable readFraction :=
  (closed_oneByte _).stable.bind fun _ => stable_readDigits.bind fun _ => (Closed.pure _).stable

/-- The exponent ends at the first byte that is not a digit. -/
theorem stable_readExponent : Stable readExponent :=
  (closed_oneByte _).stable.bind fun _ =>
    (stable_optionalPart (closed_oneByte _).stable).bind fun _ =>
      stable_readDigits.bind fun _ => (Closed.pure _).stable

/-- A number does not mark its own end. -/
theorem stable_readNumber : Stable (readNumber c) :=
  (stable_optionalPart (closed_oneByte _).stable).bind fun _ => stable_readInteger.bind fun _ =>
    (stable_optionalPart stable_readFraction).bind fun _ =>
      (stable_optionalPart stable_readExponent).bind fun _ =>
        (closed_ofOption _).stable.bind fun _ => (Closed.pure _).stable

/-- A quote ends the string. -/
theorem scanString_quote (rest : List UInt8) :
    scanString (ascii '"' :: rest) = some ([], rest) := by
  rw [scanString.eq_def]
  exact if_pos rfl

/-- A backslash takes the next byte along. -/
theorem scanString_escape (escaped : UInt8) (rest : List UInt8) :
    scanString (ascii '\\' :: escaped :: rest) =
      (scanString rest).map fun r => (ascii '\\' :: escaped :: r.1, r.2) := by
  rw [scanString.eq_def]
  dsimp only
  rw [if_neg (by decide), if_neg (by decide), if_pos rfl]

/-- Any other byte belongs to the string. -/
theorem scanString_plain {b : UInt8} (hquote : b ≠ ascii '"') (hcontrol : ¬ b < 0x20)
    (hescape : b ≠ ascii '\\') (rest : List UInt8) :
    scanString (b :: rest) = (scanString rest).map fun r => (b :: r.1, r.2) := by
  rw [scanString.eq_def]
  dsimp only
  rw [if_neg hquote, if_neg hcontrol, if_neg hescape]

/-- The content of a string ends at its quote, whatever follows. -/
theorem scanString_spec {inp content rest : List UInt8}
    (h : scanString inp = some (content, rest)) :
    rest <:+ inp ∧ ∀ more, scanString (inp ++ more) = some (content, rest ++ more) := by
  induction inp using scanString.induct generalizing content with
  | case1 => cases h
  | case2 tail =>
    rw [scanString_quote] at h
    cases h
    exact ⟨List.suffix_cons _ _, fun more => scanString_quote _⟩
  | case3 b tail hquote hcontrol =>
    rw [scanString.eq_def] at h
    dsimp only at h
    rw [if_neg hquote, if_pos hcontrol] at h
    cases h
  | case4 => cases h
  | case5 escaped tail _ _ ih =>
    rw [scanString_escape] at h
    obtain ⟨⟨inner, rest'⟩, hinner, heq⟩ := Option.map_eq_some_iff.mp h
    cases heq
    obtain ⟨hsuffix, hmore⟩ := ih hinner
    refine ⟨(hsuffix.trans (List.suffix_cons _ _)).trans (List.suffix_cons _ _), fun more => ?_⟩
    rw [List.cons_append, List.cons_append, scanString_escape, hmore more, Option.map_some]
  | case6 b tail hquote hcontrol hescape ih =>
    rw [scanString_plain hquote hcontrol hescape] at h
    obtain ⟨⟨inner, rest'⟩, hinner, heq⟩ := Option.map_eq_some_iff.mp h
    cases heq
    obtain ⟨hsuffix, hmore⟩ := ih hinner
    refine ⟨hsuffix.trans (List.suffix_cons _ _), fun more => ?_⟩
    rw [List.cons_append, scanString_plain hquote hcontrol hescape, hmore more, Option.map_some]

/-- The content of a string ends at its quote. -/
theorem closed_scanString : Closed (scanString : Reader UInt8 (List UInt8)) :=
  ⟨fun h => (scanString_spec h).1, fun more h => (scanString_spec h).2 more⟩

/-- A string marks its own end. -/
theorem closed_readString : Closed (readString c) :=
  (Closed.satisfy _).bind fun _ => closed_scanString.bind fun _ => closed_ofOption _

/-- A literal is read whatever follows it. -/
theorem closed_literal (bs : List UInt8) : Closed (literal bs) := by
  induction bs with
  | nil => exact .pure ()
  | cons b bs ih => exact (Closed.satisfy _).bind fun _ => ih

/-- Items that are stable make a closed list. -/
theorem closed_readItems {α σ : Type} {item : Reader UInt8 α} (hitem : Stable item)
    (close : UInt8) (add : σ → α → σ) (acc : σ) : Closed (readItems close item add acc) := by
  constructor
  · intro inp x rest h
    exact items_suffix hitem h
  · intro inp x rest more h
    refine items_extend hitem ?_ more h
    rw [List.length_append]
    omega

/-- A field is stable when its value is. -/
theorem stable_readField (h : Stable value) : Stable (readField c value) :=
  (Stable.takeAll _).bind fun _ => closed_readString.stable.bind fun _ =>
    (Stable.takeAll _).bind fun _ => (Closed.satisfy _).stable.bind fun _ =>
      h.bind fun _ => (Closed.pure _).stable

/-- An object marks its own end. -/
theorem closed_readObject (h : Stable value) : Closed (readObject c value) :=
  (Closed.satisfy _).bind fun _ =>
    (closed_readItems (stable_readField h) _ _ _).bind fun _ => .pure _

/-- An array marks its own end. -/
theorem closed_readArray (h : Stable value) : Closed (readArray value) :=
  (Closed.satisfy _).bind fun _ => (closed_readItems h _ _ _).bind fun _ => .pure _

/-- A value of each kind is stable when the values inside of it are. -/
theorem stable_readKind (h : Stable value) (depth : ℕ) (b : Option UInt8) :
    Stable (readKind c value depth b) := by
  unfold readKind
  split_ifs
  · exact Closed.failure.stable
  · exact (closed_readObject h).stable
  · exact Closed.failure.stable
  · exact (closed_readArray h).stable
  · exact (closed_readString.bind fun _ => .pure _).stable
  · exact ((closed_literal _).bind fun _ => .pure _).stable
  · exact ((closed_literal _).bind fun _ => .pure _).stable
  · exact ((closed_literal _).bind fun _ => .pure _).stable
  · exact stable_readNumber

/-- A value is stable at every depth. -/
theorem stable_readValue (c : Contents) (depth : ℕ) : Stable (readValue c depth) := by
  induction depth with
  | zero => exact Closed.failure.stable
  | succ depth ih =>
    exact (Stable.takeAll _).bind fun _ => Stable.peek.bind fun b => stable_readKind ih depth b

end Stability

section Prefixes

variable {c : Contents} {value : Reader UInt8 Json} {depth : ℕ} {inp rest : List UInt8} {v w : Json}

/-- A value is read behind its white space, by its first byte. -/
theorem readValue_succ (c : Contents) (depth : ℕ) (inp : List UInt8) :
    readValue c (depth + 1) inp =
      readKind c (readValue c depth) depth (inp.dropWhile isJsonWhite).head?
        (inp.dropWhile isJsonWhite) := rfl

/-- Only what begins with a brace is an object. -/
theorem head?_of_object {fields : Object} {b : Option UInt8}
    (h : readKind c value depth b inp = some (.object fields, rest)) : b = some (ascii '{') := by
  by_contra hb
  unfold readKind at h
  rw [if_neg hb] at h
  split_ifs at h
  · cases h
  · obtain ⟨_, _, -, h⟩ := bind_eq_some.mp h
    obtain ⟨_, _, -, h⟩ := bind_eq_some.mp h
    cases h
  · obtain ⟨_, _, -, h⟩ := bind_eq_some.mp h
    cases h
  · obtain ⟨_, _, -, h⟩ := bind_eq_some.mp h
    cases h
  · obtain ⟨_, _, -, h⟩ := bind_eq_some.mp h
    cases h
  · obtain ⟨_, _, -, h⟩ := bind_eq_some.mp h
    cases h
  · obtain ⟨_, _, -, h⟩ := bind_eq_some.mp h
    obtain ⟨_, _, -, h⟩ := bind_eq_some.mp h
    obtain ⟨_, _, -, h⟩ := bind_eq_some.mp h
    obtain ⟨_, _, -, h⟩ := bind_eq_some.mp h
    obtain ⟨_, _, -, h⟩ := bind_eq_some.mp h
    cases h

/-- What begins with a brace marks its own end. -/
theorem readValue_extend_of_brace (hbrace : (inp.dropWhile isJsonWhite).head? = some (ascii '{'))
    (h : readValue c (depth + 1) inp = some (v, rest)) (more : List UInt8) :
    readValue c (depth + 1) (inp ++ more) = some (v, rest ++ more) := by
  have hne : inp.dropWhile isJsonWhite ≠ [] := by
    intro hnil
    rw [hnil] at hbrace
    cases hbrace
  have hdrop : (inp ++ more).dropWhile isJsonWhite = inp.dropWhile isJsonWhite ++ more := by
    rw [List.dropWhile_append, if_neg (by simpa using hne)]
  rw [readValue_succ, hbrace, readKind, if_pos rfl] at h
  rw [readValue_succ, hdrop, List.head?_append_of_ne_nil _ hne, hbrace, readKind, if_pos rfl]
  split at h
  · cases h
  · next hdepth =>
    rw [if_neg hdepth]
    exact (closed_readObject (stable_readValue c depth)).extend more h

/-- The part of an object's text that reads as a text reads as the same object. -/
theorem fromSlice_prefix {front more : List UInt8} {fields : Object}
    (htext : fromSlice c (front ++ more) = some (.object fields))
    (hfront : fromSlice c front = some w) : w = .object fields := by
  obtain ⟨⟨v, rest⟩, hvalue, hend⟩ := Option.bind_eq_some_iff.mp htext
  obtain ⟨⟨w', rest'⟩, hvalue', hend'⟩ := Option.bind_eq_some_iff.mp hfront
  have hv : v = .object fields := by
    split at hend
    · exact Option.some.inj hend
    · cases hend
  have hw : w' = w := by
    split at hend'
    · exact Option.some.inj hend'
    · cases hend'
  subst hv hw
  have hbrace : ((front ++ more).dropWhile isJsonWhite).head? = some (ascii '{') := by
    rw [recursionLimit, readValue_succ] at hvalue
    exact head?_of_object hvalue
  have hnotWhite : front.dropWhile isJsonWhite ≠ [] := by
    intro hnil
    have hnone : readValue c recursionLimit front = none := by
      rw [recursionLimit, readValue_succ, hnil]
      rfl
    rw [hnone] at hvalue'
    cases hvalue'
  have hhead : (front.dropWhile isJsonWhite).head? = some (ascii '{') := by
    rwa [List.dropWhile_append, if_neg (by simpa using hnotWhite),
      List.head?_append_of_ne_nil _ hnotWhite] at hbrace
  have hsame := readValue_extend_of_brace hhead hvalue' more
  rw [recursionLimit] at hvalue
  rw [hsame] at hvalue
  exact (Prod.mk.inj (Option.some.inj hvalue)).1

end Prefixes

section Library

/-- A library that reads JSON texts, with what is relied on. -/
structure SliceReader where
  /-- The value of a text. -/
  fromSlice : List UInt8 → Option Json
  /-- The empty text has none. -/
  fromSlice_nil : fromSlice [] = none
  /-- The part of an object's text that reads as a text reads as the same object. -/
  fromSlice_prefix : ∀ {front more : List UInt8} {fields : Object} {w : Json},
    fromSlice (front ++ more) = some (.object fields) → fromSlice front = some w →
      w = .object fields

/-- The reader of the grammar. -/
def grammarReader (c : Contents) : SliceReader := ⟨fromSlice c, rfl, fromSlice_prefix⟩

end Library

end Teleprompter.JsonTexts
