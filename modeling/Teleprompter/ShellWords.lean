import Mathlib.Data.List.Basic

/-!
# Words of a shell command

The words of a simple command by the quoting rules of a POSIX shell: single
quotes, double quotes, backslashes and blanks. Whatever would make the shell do
more than split the command is refused, so a command that splits is a simple
command with literal words. A text is quoted for a shell by single quotes.
-/

namespace Teleprompter.ShellWords

/-- What the reader is inside of. -/
inductive Mode where
  | plain
  | single
  | double
  deriving DecidableEq

def isShellBlank (c : Char) : Bool := c == ' ' || c == '\t' || c == '\n'

/-- Characters that are no part of a literal word unless they are quoted. -/
def isSpecial (c : Char) : Bool := "|&;<>()$`*?[]#~=%!{}".toList.contains c

/-- What a backslash quotes between double quotes. -/
def isDoubleEscaped (c : Char) : Bool := "$`\"\\\n".toList.contains c

/-- The words of the rest of a command, behind a word in progress if there is one. -/
def splitWords : Mode → Option (List Char) → List Char → Option (List (List Char))
  | .plain, word, [] => some word.toList
  | .single, _, [] => none
  | .double, _, [] => none
  | .single, word, c :: rest =>
    if c = '\'' then splitWords .plain word rest
    else splitWords .single (some (word.getD [] ++ [c])) rest
  | .plain, word, c :: rest =>
    if c = '\'' then splitWords .single (some (word.getD [])) rest
    else if c = '"' then splitWords .double (some (word.getD [])) rest
    else if c = '\\' then
      match rest with
      | [] => none
      | d :: rest =>
        if d = '\n' then splitWords .plain word rest
        else splitWords .plain (some (word.getD [] ++ [d])) rest
    else if isShellBlank c = true then
      (splitWords .plain none rest).map fun words => word.toList ++ words
    else if isSpecial c = true then none
    else splitWords .plain (some (word.getD [] ++ [c])) rest
  | .double, word, c :: rest =>
    if c = '"' then splitWords .plain word rest
    else if c = '\\' then
      match rest with
      | [] => none
      | d :: rest =>
        if d = '\n' then splitWords .double word rest
        else if isDoubleEscaped d = true then splitWords .double (some (word.getD [] ++ [d])) rest
        else splitWords .double (some (word.getD [] ++ [c, d])) rest
    else if c = '$' ∨ c = '`' then none
    else splitWords .double (some (word.getD [] ++ [c])) rest

/-- The words of a command. -/
def shellWords (command : List Char) : Option (List (List Char)) := splitWords .plain none command

/-- A character between single quotes. A quote leaves them, is quoted by a
backslash and enters them again. -/
def singleEscape (c : Char) : List Char := if c = '\'' then "'\\''".toList else [c]

/-- A character between single quotes belongs to the word. -/
theorem splitWords_singleEscape (c : Char) (word rest : List Char) :
    splitWords .single (some word) (singleEscape c ++ rest) =
      splitWords .single (some (word ++ [c])) rest := by
  rw [singleEscape]
  split
  · next hc =>
    have hquote : "'\\''".toList = ['\'', '\\', '\'', '\''] := by decide
    subst hc
    have hopen (word : List Char) : splitWords .plain (some word) ('\'' :: rest) =
        splitWords .single (some word) rest := by
      rw [splitWords.eq_def]
      simp
    rw [hquote]
    simp [splitWords, hopen]
  · next hc => simp [splitWords, hc]

/-- A quoted text belongs to the word as it is. -/
theorem splitWords_quoted (s word rest : List Char) :
    splitWords .single (some word) (s.flatMap singleEscape ++ '\'' :: rest) =
      splitWords .plain (some (word ++ s)) rest := by
  induction s generalizing word with
  | nil => simp [splitWords]
  | cons c s ih =>
    rw [List.flatMap_cons, List.append_assoc, splitWords_singleEscape, ih, List.append_assoc]
    rfl

/-- A letter of an unquoted word. -/
theorem splitWords_plain {c : Char} (hquote : c ≠ '\'' ∧ c ≠ '"' ∧ c ≠ '\\')
    (hblank : isShellBlank c = false) (hspecial : isSpecial c = false) (word : Option (List Char))
    (rest : List Char) :
    splitWords .plain word (c :: rest) = splitWords .plain (some (word.getD [] ++ [c])) rest := by
  rw [splitWords.eq_def]
  simp [hquote, hblank, hspecial]

end Teleprompter.ShellWords
