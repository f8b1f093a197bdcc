import Mathlib.Data.Nat.Notation
import Mathlib.Order.Nat

/-!
# JSON string literals

Writing a text as a JSON string literal and reading one. The writer escapes
quotes, backslashes and control characters and nothing else; the reader knows
every escape of the grammar, surrogate pairs included.
-/

namespace Teleprompter.JsonLiterals

/-- A character as it is written in a literal. -/
def escapeChar (c : Char) : List Char :=
  if c = '"' then ['\\', '"']
  else if c = '\\' then ['\\', '\\']
  else if c.toNat = 8 then ['\\', 'b']
  else if c.toNat = 9 then ['\\', 't']
  else if c.toNat = 10 then ['\\', 'n']
  else if c.toNat = 12 then ['\\', 'f']
  else if c.toNat = 13 then ['\\', 'r']
  else if c.toNat < 32 then
    ['\\', 'u', '0', '0', Nat.digitChar (c.toNat / 16), Nat.digitChar (c.toNat % 16)]
  else [c]

/-- The literal of a text. -/
def writeLiteral (s : List Char) : List Char := '"' :: (s.flatMap escapeChar ++ ['"'])

/-- The character of an escape of one letter. -/
def simpleEscape (c : Char) : Option Char :=
  if c = '"' ∨ c = '\\' ∨ c = '/' then some c
  else if c = 'b' then some (Char.ofNat 8)
  else if c = 'f' then some (Char.ofNat 12)
  else if c = 'n' then some (Char.ofNat 10)
  else if c = 'r' then some (Char.ofNat 13)
  else if c = 't' then some (Char.ofNat 9)
  else none

/-- Value of a hexadecimal digit in either case. -/
def hexValue (c : Char) : Option ℕ :=
  if '0' ≤ c ∧ c ≤ '9' then some (c.toNat - 48)
  else if 'a' ≤ c ∧ c ≤ 'f' then some (c.toNat - 87)
  else if 'A' ≤ c ∧ c ≤ 'F' then some (c.toNat - 55)
  else none

/-- The code unit of four hexadecimal digits. -/
def codeUnit (a b c d : Char) : Option ℕ := do
  let a ← hexValue a
  let b ← hexValue b
  let c ← hexValue c
  let d ← hexValue d
  some (4096 * a + 256 * b + 16 * c + d)

/-- The character of a code unit that is no surrogate. -/
def plainUnit (n : ℕ) : Option Char :=
  if n < 0xd800 ∨ 0xdfff < n then some (Char.ofNat n) else none

/-- The character of a surrogate pair. -/
def surrogatePair (high low : ℕ) : Option Char :=
  if 0xd800 ≤ high ∧ high < 0xdc00 ∧ 0xdc00 ≤ low ∧ low ≤ 0xdfff then
    some (Char.ofNat (0x10000 + 1024 * (high - 0xd800) + (low - 0xdc00)))
  else none

/-- The text behind the opening quote of a literal, up to a quote at its end. -/
def readContent : List Char → Option (List Char)
  | [] => none
  | c :: rest =>
    if c = '"' then if rest = [] then some [] else none
    else if c.toNat < 32 then none
    else if c = '\\' then
      match rest with
      | 'u' :: a :: b :: c :: d :: rest =>
        match (codeUnit a b c d).bind plainUnit with
        | some char => (readContent rest).map fun s => char :: s
        | none =>
          match rest with
          | '\\' :: 'u' :: e :: f :: g :: h :: rest =>
            match (codeUnit a b c d).bind fun high => (codeUnit e f g h).bind (surrogatePair high) with
            | some char => (readContent rest).map fun s => char :: s
            | none => none
          | _ => none
      | e :: rest =>
        match simpleEscape e with
        | some char => (readContent rest).map fun s => char :: s
        | none => none
      | [] => none
    else (readContent rest).map fun s => c :: s

/-- The text of a literal. -/
def readLiteral : List Char → Option (List Char)
  | '"' :: rest => readContent rest
  | _ => none

/-- A letter escape is read as its character. -/
theorem readContent_simple {e char : Char} (h : simpleEscape e = some char) (rest : List Char) :
    readContent ('\\' :: e :: rest) = (readContent rest).map fun s => char :: s := by
  have hu : e ≠ 'u' := by
    rintro rfl
    have hnone : simpleEscape 'u' = none := by decide
    rw [hnone] at h
    cases h
  rw [readContent.eq_def]
  dsimp only
  rw [if_neg (by decide), if_neg (by decide), if_pos rfl]
  split
  · next heq => exact absurd (List.cons.inj heq).1 hu
  · next e' rest' _ heq =>
    obtain ⟨rfl, rfl⟩ := List.cons.inj heq
    rw [h]
  · next heq => cases heq

/-- A control character is read back from its code. -/
theorem readContent_control {n : ℕ} (h : n < 32) (rest : List Char) :
    readContent ('\\' :: 'u' :: '0' :: '0' :: Nat.digitChar (n / 16) :: Nat.digitChar (n % 16) ::
      rest) = (readContent rest).map fun s => Char.ofNat n :: s := by
  have hunit : ∀ n : Fin 32, (codeUnit '0' '0' (Nat.digitChar (n.val / 16))
      (Nat.digitChar (n.val % 16))).bind plainUnit = some (Char.ofNat n.val) := by decide
  have hn := hunit ⟨n, h⟩
  rw [readContent.eq_def]
  dsimp only
  rw [if_neg (by decide), if_neg (by decide), if_pos rfl]
  dsimp only at hn
  simp only [hn]

theorem readContent_plain {c : Char} (hquote : c ≠ '"') (hcontrol : ¬ c.toNat < 32)
    (hescape : c ≠ '\\') (rest : List Char) :
    readContent (c :: rest) = (readContent rest).map fun s => c :: s := by
  rw [readContent.eq_def]
  dsimp only
  rw [if_neg hquote, if_neg hcontrol, if_neg hescape]

/-- Each character is read back from what was written for it. -/
theorem readContent_escapeChar (c : Char) (rest : List Char) :
    readContent (escapeChar c ++ rest) = (readContent rest).map fun s => c :: s := by
  have hofNat {n : ℕ} (h : c.toNat = n) : Char.ofNat n = c := by rw [← h, Char.ofNat_toNat]
  unfold escapeChar
  split_ifs with h₁ h₂ h₃ h₄ h₅ h₆ h₇ h₈
  · exact readContent_simple (by rw [h₁]; decide) rest
  · exact readContent_simple (by rw [h₂]; decide) rest
  · exact readContent_simple (by rw [← hofNat h₃]; decide) rest
  · exact readContent_simple (by rw [← hofNat h₄]; decide) rest
  · exact readContent_simple (by rw [← hofNat h₅]; decide) rest
  · exact readContent_simple (by rw [← hofNat h₆]; decide) rest
  · exact readContent_simple (by rw [← hofNat h₇]; decide) rest
  · have hread := readContent_control h₈ rest
    rwa [Char.ofNat_toNat] at hread
  · exact readContent_plain h₁ h₈ h₂ rest

/-- A literal denotes the text that it was written for. -/
theorem readLiteral_writeLiteral (s : List Char) : readLiteral (writeLiteral s) = some s := by
  rw [writeLiteral, readLiteral]
  induction s with
  | nil => rfl
  | cons c s ih =>
    rw [List.flatMap_cons, List.append_assoc, readContent_escapeChar, ih, Option.map_some]

/-- A library that writes literals, with what is relied on. -/
structure LiteralWriter where
  /-- The literal of a text. -/
  write : List Char → List Char
  /-- It denotes the text. -/
  readLiteral_write : ∀ s, readLiteral (write s) = some s

/-- The writer that escapes only what it must. -/
def plainWriter : LiteralWriter := ⟨writeLiteral, readLiteral_writeLiteral⟩

example : readLiteral "\"a\\ud83d\\ude00\\/\"".toList = some "a😀/".toList := by decide +kernel

end Teleprompter.JsonLiterals
