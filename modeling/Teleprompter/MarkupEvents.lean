import Mathlib.Data.Nat.Notation
import Mathlib.Data.List.Basic
import Mathlib.Tactic.SplitIfs

/-!
# Markup as a sequence of events

A document is read character by character: a tag begins at an angle bracket and
ends at the closing one that stands outside of quotes, everything else is text.
Text without an opening bracket gives text events only. Five characters can be
written as entities; replacing them one after the other is replacing them at
once, and the entities are read back.
-/

namespace Teleprompter.MarkupEvents

section Scanner

/-- What a reader finds. -/
inductive Event where
  | char (c : Char)
  /-- A tag, without its brackets. -/
  | tag (content : List Char)
  deriving DecidableEq

/-- Where a reader stands. -/
inductive Mode where
  | text
  /-- In a tag, perhaps in quotes. -/
  | tag (quoted : Bool) (content : List Char)
  deriving DecidableEq

/-- One character. -/
def scanStep : Mode → Char → List Event × Mode
  | .text, c => if c = '<' then ([], .tag false []) else ([.char c], .text)
  | .tag quoted content, c =>
    if c = '>' ∧ quoted = false then ([.tag content], .text)
    else ([], .tag (if c = '"' then !quoted else quoted) (content ++ [c]))

/-- What is found in a text. -/
def events : Mode → List Char → List Event
  | _, [] => []
  | m, c :: s => (scanStep m c).1 ++ events (scanStep m c).2 s

/-- Where a text leads. -/
def modeAfter : Mode → List Char → Mode
  | m, [] => m
  | m, c :: s => modeAfter (scanStep m c).2 s

theorem events_append (m : Mode) (s s' : List Char) :
    events m (s ++ s') = events m s ++ events (modeAfter m s) s' := by
  induction s generalizing m with
  | nil => rfl
  | cons c s ih => rw [List.cons_append, events, events, modeAfter, ih, List.append_assoc]

theorem modeAfter_append (m : Mode) (s s' : List Char) :
    modeAfter m (s ++ s') = modeAfter (modeAfter m s) s' := by
  induction s generalizing m with
  | nil => rfl
  | cons c s ih => rw [List.cons_append, modeAfter, modeAfter, ih]

/-- A piece that begins and ends in the text. -/
def Closed (s : List Char) : Prop := modeAfter .text s = .text

instance (s : List Char) : Decidable (Closed s) := inferInstanceAs (Decidable (_ = _))

/-- Pieces are read one after the other. -/
theorem Closed.events_append {s : List Char} (h : Closed s) (s' : List Char) :
    events .text (s ++ s') = events .text s ++ events .text s' := by
  rw [MarkupEvents.events_append, h]

theorem Closed.append {s s' : List Char} (h : Closed s) (h' : Closed s') : Closed (s ++ s') := by
  rw [Closed, modeAfter_append, h, h']

theorem Closed.flatMap {α : Type} {f : α → List Char} {l : List α} (h : ∀ a ∈ l, Closed (f a)) :
    Closed (l.flatMap f) ∧ events .text (l.flatMap f) = l.flatMap fun a => events .text (f a) := by
  induction l with
  | nil => exact ⟨rfl, rfl⟩
  | cons a l ih =>
    have ha := h a List.mem_cons_self
    obtain ⟨hclosed, hevents⟩ := ih fun b hb => h b (List.mem_cons_of_mem a hb)
    rw [List.flatMap_cons, List.flatMap_cons, ha.events_append, hevents]
    exact ⟨ha.append hclosed, rfl⟩

/-- Text without an opening bracket. -/
theorem closed_of_notMem {s : List Char} (h : '<' ∉ s) :
    Closed s ∧ events .text s = s.map .char := by
  induction s with
  | nil => exact ⟨rfl, rfl⟩
  | cons c s ih =>
    have hc : c ≠ '<' := fun heq => h (heq ▸ List.mem_cons_self)
    have hstep : scanStep .text c = ([.char c], .text) := if_neg hc
    obtain ⟨hclosed, hevents⟩ := ih fun hmem => h (List.mem_cons_of_mem c hmem)
    rw [Closed, modeAfter, events, hstep]
    exact ⟨hclosed, by rw [hevents]; rfl⟩

/-- The tags alone. -/
def tags : List Event → List (List Char)
  | [] => []
  | .char _ :: es => tags es
  | .tag content :: es => content :: tags es

theorem tags_append (es es' : List Event) : tags (es ++ es') = tags es ++ tags es' := by
  induction es with
  | nil => rfl
  | cons e es ih =>
    cases e with
    | char c => exact ih
    | tag content => exact congrArg (content :: ·) ih

theorem tags_chars (s : List Char) : tags (s.map .char) = [] := by
  induction s with
  | nil => rfl
  | cons c s ih => exact ih

theorem tags_flatMap {α : Type} (f : α → List Event) (l : List α) :
    tags (l.flatMap f) = l.flatMap fun a => tags (f a) := by
  induction l with
  | nil => rfl
  | cons a l ih => rw [List.flatMap_cons, List.flatMap_cons, tags_append, ih]

end Scanner

section Entities

/-- Replace every occurrence of a character. -/
def replaceChar (c : Char) (text s : List Char) : List Char :=
  s.flatMap fun d => if d = c then text else [d]

/-- A character as an entity, if it needs one. -/
def entity (c : Char) : List Char :=
  if c = '&' then ['&', 'a', 'm', 'p', ';']
  else if c = '<' then ['&', 'l', 't', ';']
  else if c = '>' then ['&', 'g', 't', ';']
  else if c = '"' then ['&', 'q', 'u', 'o', 't', ';']
  else if c = '\'' then ['&', '#', '3', '9', ';']
  else [c]

/-- Read the entities of a text. -/
def unescape : List Char → List Char
  | '&' :: 'a' :: 'm' :: 'p' :: ';' :: s => '&' :: unescape s
  | '&' :: 'l' :: 't' :: ';' :: s => '<' :: unescape s
  | '&' :: 'g' :: 't' :: ';' :: s => '>' :: unescape s
  | '&' :: 'q' :: 'u' :: 'o' :: 't' :: ';' :: s => '"' :: unescape s
  | '&' :: '#' :: '3' :: '9' :: ';' :: s => '\'' :: unescape s
  | c :: s => c :: unescape s
  | [] => []

/-- Replacements one after the other work on each character. -/
theorem replaceChar_flatMap (c : Char) (text : List Char) (f : Char → List Char) (s : List Char) :
    replaceChar c text (s.flatMap f) = s.flatMap fun d => replaceChar c text (f d) := by
  rw [replaceChar, List.flatMap_assoc]
  rfl

theorem unescape_plain {c : Char} (h : c ≠ '&') (s : List Char) :
    unescape (c :: s) = c :: unescape s := by
  rw [unescape.eq_def]
  split
  all_goals first
    | (next heq => exact absurd (List.cons.inj heq).1 h)
    | skip
  · next heq =>
    obtain ⟨rfl, rfl⟩ := List.cons.inj heq
    rfl
  · next heq => cases heq

/-- Each character is read back from its entity. -/
theorem unescape_entity (c : Char) (s : List Char) : unescape (entity c ++ s) = c :: unescape s := by
  rw [entity]
  split_ifs with hamp hlt hgt hquot hapos
  · rw [hamp]
    rfl
  · rw [hlt]
    rfl
  · rw [hgt]
    rfl
  · rw [hquot]
    rfl
  · rw [hapos]
    rfl
  · exact unescape_plain hamp s

theorem unescape_flatMap (s : List Char) : unescape (s.flatMap entity) = s := by
  induction s with
  | nil => rfl
  | cons c s ih => rw [List.flatMap_cons, unescape_entity, ih]

/-- Reading goes on behind an escaped text. -/
theorem unescape_flatMap_append (s s' : List Char) :
    unescape (s.flatMap entity ++ s') = s ++ unescape s' := by
  induction s with
  | nil => rfl
  | cons c s ih => rw [List.flatMap_cons, List.append_assoc, unescape_entity, ih, List.cons_append]

/-- Text without an ampersand is read as it stands. -/
theorem unescape_of_notMem {s : List Char} (h : '&' ∉ s) : unescape s = s := by
  induction s with
  | nil => rfl
  | cons c s ih =>
    have hc : c ≠ '&' := fun heq => h (heq ▸ List.mem_cons_self)
    rw [unescape_plain hc, ih fun hmem => h (List.mem_cons_of_mem c hmem)]

/-- No bracket is left in an escaped text. -/
theorem notMem_flatMap_entity (s : List Char) : '<' ∉ s.flatMap entity := by
  intro hmem
  obtain ⟨c, -, hc⟩ := List.mem_flatMap.mp hmem
  rw [entity] at hc
  split_ifs at hc with _ hlt
  · exact absurd hc (by decide)
  · exact absurd hc (by decide)
  · exact absurd hc (by decide)
  · exact absurd hc (by decide)
  · exact absurd hc (by decide)
  · exact hlt (List.mem_singleton.mp hc).symm

end Entities

end Teleprompter.MarkupEvents
