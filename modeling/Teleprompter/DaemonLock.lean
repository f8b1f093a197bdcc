import Teleprompter.StepRuns
import Mathlib.Algebra.Order.Ring.Int
import Mathlib.Algebra.Order.Ring.Nat
import Mathlib.Logic.Function.Basic

/-!
# The lock file of the daemon

A starting daemon creates the lock file exclusively and writes its pid into it. A file
that is there is read, its pid is probed, and a stale file is removed before a second
try. A daemon that ends removes the file if its own pid is in it. Any number of
processes do this on one path, and each may end at any point.
-/

namespace Teleprompter.DaemonLock

open StepRuns

section Text

/-- White space at the ends of a text is trimmed. -/
def isWhiteSpace (c : Char) : Bool :=
  let n := c.toNat
  (9 ≤ n && n ≤ 13) || n = 32 || n = 0x85 || n = 0xA0 || n = 0x1680 || (0x2000 ≤ n && n ≤ 0x200A) ||
    n = 0x2028 || n = 0x2029 || n = 0x202F || n = 0x205F || n = 0x3000

def trim (text : List Char) : List Char :=
  ((text.dropWhile isWhiteSpace).reverse.dropWhile isWhiteSpace).reverse

/-- At least one digit and nothing else. -/
def decimal (text : List Char) : Option ℕ :=
  if text ≠ [] ∧ text.all Char.isDigit then some (Nat.ofDigitChars 10 text 0) else none

def parseI32 (text : List Char) : Option ℤ :=
  (match text with
    | '-' :: digits => (decimal digits).map fun n => -(n : ℤ)
    | '+' :: digits => (decimal digits).map Int.ofNat
    | digits => (decimal digits).map Int.ofNat).filter fun n => -2 ^ 31 ≤ n ∧ n < 2 ^ 31

def parseU32 (text : List Char) : Option ℕ :=
  (match text with
    | '+' :: digits => decimal digits
    | digits => decimal digits).filter fun n => n < 2 ^ 32

end Text

section Model

abbrev Pid := ℕ

/-- What a holder writes. -/
def pidText (pid : Pid) : List Char := Nat.toDigits 10 pid ++ [Char.ofNat 10]

/-- Where a process is. A file is known by a number of its own: a process writes into
the file it created, whatever the path names by then. -/
inductive Proc where
  | unborn
  /-- It runs outside of the lock's functions and holds nothing. -/
  | idle
  /-- About to create the file; a second try allows no further one. -/
  | creating (allowRetry : Bool)
  | reading (allowRetry : Bool)
  | probing (allowRetry : Bool) (existing : ℤ)
  /-- The file that it read is stale and is about to be removed. -/
  | removing
  /-- It created the file and is about to write its pid. -/
  | writing (file : ℕ)
  /-- Acquire returned its pid. -/
  | holding (file : ℕ)
  /-- About to read the file in order to release it. -/
  | releasing (held : Option ℕ)
  /-- It read its own pid and is about to remove the file. -/
  | unlinking (held : Option ℕ)
  | dead
  deriving DecidableEq

/-- The processes and the files. -/
structure System where
  /-- The processes. -/
  procs : Pid → Proc
  /-- The text of each file; some bytes are no text. -/
  files : ℕ → Option (List Char)
  /-- The file at the lock's path. -/
  path : Option ℕ
  /-- The number of the file that is created next. -/
  next : ℕ

/-- No process runs, and some file may be at the path. -/
def System.start (file : Option (Option (List Char))) : System :=
  ⟨fun _ => .unborn, fun _ => file.join, file.map fun _ => 0, 1⟩

/-- A process is somewhere else. -/
def System.goto (s : System) (p : Pid) (proc : Proc) : System :=
  { s with procs := Function.update s.procs p proc }

@[simp] theorem goto_self (s : System) (p : Pid) (proc : Proc) : (s.goto p proc).procs p = proc := by
  simp [System.goto]

@[simp] theorem goto_of_ne {p q : Pid} (hqp : q ≠ p) (s : System) (proc : Proc) :
    (s.goto p proc).procs q = s.procs q := by
  simp [System.goto, hqp]

/-- The text at the path. -/
def System.content (s : System) : Option (List Char) := s.path.bind s.files

/-- A process exists. The probe is taken as exact, and a number that is not positive
names no process; the system call takes minus one for every process. -/
def System.isPidAlive (s : System) (pid : ℤ) : Bool :=
  0 < pid ∧ s.procs pid.toNat ≠ .unborn ∧ s.procs pid.toNat ≠ .dead

/-- A file without a live holder: it is removed before the second try. -/
def System.stale (s : System) (p : Pid) (allowRetry : Bool) : System :=
  s.goto p (if allowRetry then .removing else .idle)

/-- One operation of one process. -/
inductive Event where
  | start (p : Pid)
  | acquire (p : Pid)
  | create (p : Pid)
  /-- The directory or the file cannot be created. -/
  | createFails (p : Pid)
  | read (p : Pid)
  | readFails (p : Pid)
  | probe (p : Pid)
  | remove (p : Pid)
  | removeFails (p : Pid)
  /-- Some of the bytes are written. -/
  | writePart (p : Pid) (count : ℕ)
  | write (p : Pid)
  | writeFails (p : Pid)
  | release (p : Pid)
  /-- A crash, or an end of its own. -/
  | exit (p : Pid)

/-- One step. An operation of a process that is elsewhere changes nothing. A pid is
used once. -/
def step (s : System) : Event → System
  | .start p => if s.procs p = .unborn ∧ 0 < p ∧ p < 2 ^ 31 then s.goto p .idle else s
  | .acquire p => if s.procs p = .idle then s.goto p (.creating true) else s
  | .create p =>
    match s.procs p with
    | .creating allowRetry =>
      match s.path with
      | some _ => s.goto p (.reading allowRetry)
      | none =>
        { s.goto p (.writing s.next) with
          files := Function.update s.files s.next (some [])
          path := some s.next
          next := s.next + 1 }
    | _ => s
  | .createFails p =>
    match s.procs p with
    | .creating _ => s.goto p .idle
    | _ => s
  | .read p =>
    match s.procs p with
    | .reading allowRetry =>
      match s.content.bind fun text => parseI32 (trim text) with
      | some existing => s.goto p (.probing allowRetry existing)
      | none => s.stale p allowRetry
    | .releasing held =>
      if (s.content.bind fun text => parseU32 (trim text)) = some p then s.goto p (.unlinking held)
      else s.goto p .idle
    | _ => s
  | .readFails p =>
    match s.procs p with
    | .reading allowRetry => s.stale p allowRetry
    | .releasing _ => s.goto p .idle
    | _ => s
  | .probe p =>
    match s.procs p with
    | .probing allowRetry existing =>
      if s.isPidAlive existing then s.goto p .idle else s.stale p allowRetry
    | _ => s
  | .remove p =>
    match s.procs p with
    | .removing => { s.goto p (.creating false) with path := none }
    | .unlinking _ => { s.goto p .idle with path := none }
    | _ => s
  | .removeFails p =>
    match s.procs p with
    | .removing => s.goto p (.creating false)
    | .unlinking _ => s.goto p .idle
    | _ => s
  | .writePart p count =>
    match s.procs p with
    | .writing file =>
      { s with files := Function.update s.files file (some ((pidText p).take count)) }
    | _ => s
  | .write p =>
    match s.procs p with
    | .writing file =>
      { s.goto p (.holding file) with files := Function.update s.files file (some (pidText p)) }
    | _ => s
  | .writeFails p =>
    match s.procs p with
    | .writing _ => s.goto p .idle
    | _ => s
  | .release p =>
    match s.procs p with
    | .holding file => s.goto p (.releasing (some file))
    | .idle => s.goto p (.releasing none)
    | _ => s
  | .exit p => if s.procs p = .unborn then s else s.goto p .dead

/-- The file that a process created and has not released. -/
def Proc.file : Proc → Option ℕ
  | .writing file => some file
  | .holding file => some file
  | .releasing held => held
  | .unlinking held => held
  | _ => none

/-- Acquire returned the pid of this process, and its release has not returned. -/
def Proc.holds : Proc → Bool
  | .holding _ => true
  | .releasing held => held.isSome
  | .unlinking held => held.isSome
  | _ => false

end Model

section Statement

/-- At most one live process holds the lock. -/
def AtMostOne (s : System) : Prop :=
  ∀ p q, (s.procs p).holds → (s.procs q).holds → p = q

/-- The process is about to remove what is at the path. -/
def Removes (s : System) (p : Pid) : Prop :=
  s.procs p = .removing ∨ ∃ held, s.procs p = .unlinking held

/-- What is removed is not a file that another live process created and has not released. -/
def Spares (s : System) : Event → Prop
  | .remove p => Removes s p → ∀ file, s.path = some file → ∀ q, q ≠ p →
      (s.procs q).file ≠ some file
  | _ => True

end Statement

section Reading

end Reading

section Steps

variable {s s' : System}

/-- A step that leaves the path alone and gives no process a file. -/
structure Quiet (s s' : System) : Prop where
  /-- The path stays. -/
  path : s'.path = s.path
  /-- No file is created. -/
  next : s'.next = s.next
  /-- No process gets a file. -/
  file : ∀ q, (s'.procs q).file = (s.procs q).file ∨ (s'.procs q).file = none

theorem Quiet.refl {s : System} : Quiet s s := ⟨rfl, rfl, fun _ => .inl rfl⟩

theorem quiet_goto {p : Pid} {proc : Proc} (h : proc.file = (s.procs p).file ∨ proc.file = none) :
    Quiet s (s.goto p proc) := by
  refine ⟨rfl, rfl, fun q => ?_⟩
  by_cases hq : q = p
  · rw [hq, goto_self]
    exact h
  · rw [goto_of_ne hq]
    exact .inl rfl

theorem quiet_stale (p : Pid) (allowRetry : Bool) : Quiet s (s.stale p allowRetry) := by
  cases allowRetry
  · exact quiet_goto (.inr rfl)
  · exact quiet_goto (.inr rfl)

/-- A process creates the file at the free path. -/
structure Creates (s s' : System) (p : Pid) : Prop where
  /-- Nothing was at the path. -/
  free : s.path = none
  /-- The new file is. -/
  path : s'.path = some s.next
  /-- Its number is used up. -/
  next : s'.next = s.next + 1
  /-- It belongs to its creator. -/
  creator : (s'.procs p).file = some s.next
  /-- No other process changes. -/
  others : ∀ q, q ≠ p → s'.procs q = s.procs q

/-- A process removes what is at the path. -/
structure Unlinks (s s' : System) (p : Pid) : Prop where
  /-- It was about to. -/
  removes : Removes s p
  /-- Nothing is at the path. -/
  path : s'.path = none
  /-- No file is created. -/
  next : s'.next = s.next
  /-- The process has no file. -/
  remover : (s'.procs p).file = none
  /-- It tries once more or is done. -/
  turns : s'.procs p = .creating false ∨ s'.procs p = .idle
  /-- No other process changes. -/
  others : ∀ q, q ≠ p → s'.procs q = s.procs q

theorem step_create (s : System) (p : Pid) :
    Quiet s (step s (.create p)) ∨ Creates s (step s (.create p)) p := by
  rw [step]
  split
  · split
    · exact .inl (quiet_goto (.inr rfl))
    · rename_i hfree
      refine .inr ⟨hfree, rfl, rfl, ?_, fun q hq => goto_of_ne hq s _⟩
      dsimp only
      rw [goto_self, Proc.file]
  · exact .inl Quiet.refl

theorem step_remove (s : System) (p : Pid) :
    step s (.remove p) = s ∧ ¬Removes s p ∨ Unlinks s (step s (.remove p)) p := by
  rw [step]
  split
  · rename_i hremoving
    refine .inr ⟨.inl hremoving, rfl, rfl, ?_, .inl ?_, fun q hq => goto_of_ne hq s _⟩
    · dsimp only
      rw [goto_self, Proc.file]
      all_goals nofun
    · exact goto_self s p _
  · rename_i held hunlinking
    refine .inr ⟨.inr ⟨held, hunlinking⟩, rfl, rfl, ?_, .inr ?_,
      fun q hq => goto_of_ne hq s _⟩
    · dsimp only
      rw [goto_self, Proc.file]
      all_goals nofun
    · exact goto_self s p _
  · rename_i hremoving hunlinking
    exact .inl ⟨rfl, fun h => h.elim hremoving fun ⟨held, hheld⟩ => hunlinking held hheld⟩

/-- Every other operation leaves the path alone. -/
theorem step_quiet (s : System) {e : Event} (hcreate : ∀ p, e ≠ .create p)
    (hremove : ∀ p, e ≠ .remove p) : Quiet s (step s e) := by
  cases e with
  | create p => exact absurd rfl (hcreate p)
  | remove p => exact absurd rfl (hremove p)
  | start p =>
    rw [step]
    split
    · exact quiet_goto (.inr rfl)
    · exact Quiet.refl
  | acquire p =>
    rw [step]
    split
    · exact quiet_goto (.inr rfl)
    · exact Quiet.refl
  | createFails p =>
    rw [step]
    split
    · exact quiet_goto (.inr rfl)
    · exact Quiet.refl
  | read p =>
    rw [step]
    split
    · split
      · exact quiet_goto (.inr rfl)
      · exact quiet_stale p _
    · rename_i held hreleasing
      split
      · refine quiet_goto (.inl ?_)
        rw [hreleasing, Proc.file, Proc.file]
      · exact quiet_goto (.inr rfl)
    · exact Quiet.refl
  | readFails p =>
    rw [step]
    split
    · exact quiet_stale p _
    · exact quiet_goto (.inr rfl)
    · exact Quiet.refl
  | probe p =>
    rw [step]
    split
    · split
      · exact quiet_goto (.inr rfl)
      · exact quiet_stale p _
    · exact Quiet.refl
  | removeFails p =>
    rw [step]
    split
    · exact quiet_goto (.inr rfl)
    · exact quiet_goto (.inr rfl)
    · exact Quiet.refl
  | writePart p count =>
    rw [step]
    split
    · exact ⟨rfl, rfl, fun _ => .inl rfl⟩
    · exact Quiet.refl
  | write p =>
    rw [step]
    split
    · rename_i file hwriting
      have hgoto : Quiet s (s.goto p (.holding file)) := by
        refine quiet_goto (.inl ?_)
        rw [hwriting, Proc.file, Proc.file]
      exact ⟨hgoto.path, hgoto.next, hgoto.file⟩
    · exact Quiet.refl
  | writeFails p =>
    rw [step]
    split
    · exact quiet_goto (.inr rfl)
    · exact Quiet.refl
  | release p =>
    rw [step]
    split
    · rename_i file hholding
      refine quiet_goto (.inl ?_)
      rw [hholding, Proc.file, Proc.file]
    · exact quiet_goto (.inr rfl)
    · exact Quiet.refl
  | exit p =>
    rw [step]
    split
    · exact Quiet.refl
    · exact quiet_goto (.inr rfl)

/-- What a step does to the path and to the files of the processes. -/
theorem step_cases (s : System) (e : Event) :
    Quiet s (step s e) ∧ (∀ p, e = .remove p → ¬Removes s p) ∨
      (∃ p, e = .create p ∧ Creates s (step s e) p) ∨
      ∃ p, e = .remove p ∧ Unlinks s (step s e) p := by
  by_cases hcreate : ∃ p, e = .create p
  · obtain ⟨p, rfl⟩ := hcreate
    rcases step_create s p with hquiet | hcreates
    · exact .inl ⟨hquiet, nofun⟩
    · exact .inr (.inl ⟨p, rfl, hcreates⟩)
  by_cases hremove : ∃ p, e = .remove p
  · obtain ⟨p, rfl⟩ := hremove
    rcases step_remove s p with ⟨hstays, hnot⟩ | hunlinks
    · refine .inl ⟨hstays.symm ▸ Quiet.refl, ?_⟩
      rintro p' ⟨⟩
      exact hnot
    · exact .inr (.inr ⟨p, rfl, hunlinks⟩)
  · refine .inl ⟨step_quiet s (fun p h => hcreate ⟨p, h⟩) fun p h => hremove ⟨p, h⟩, fun p h => ?_⟩
    exact absurd ⟨p, h⟩ hremove

end Steps

section Ownership

variable {s s' : System}

/-- Files are numbered as they are created, so none has two creators. -/
structure Fresh (s : System) : Prop where
  /-- The file at the path has a used number. -/
  path : ∀ file, s.path = some file → file < s.next
  /-- So have the files of processes. -/
  file : ∀ p file, (s.procs p).file = some file → file < s.next
  /-- A file belongs to one process. -/
  creator : ∀ p q file, (s.procs p).file = some file → (s.procs q).file = some file → p = q

/-- The file of every process is the one at the path. -/
def Linked (s : System) : Prop :=
  ∀ p file, (s.procs p).file = some file → s.path = some file

theorem Quiet.file_of_some (h : Quiet s s') {p : Pid} {file : ℕ}
    (hfile : (s'.procs p).file = some file) : (s.procs p).file = some file := by
  rcases h.file p with hsame | hnone
  · rw [← hsame, hfile]
  · rw [hfile] at hnone
    cases hnone

theorem Fresh.quiet (h : Fresh s) (hquiet : Quiet s s') : Fresh s' where
  path := fun file hpath => by
    rw [hquiet.next]
    exact h.path file (hquiet.path ▸ hpath)
  file := fun p file hfile => by
    rw [hquiet.next]
    exact h.file p file (hquiet.file_of_some hfile)
  creator := fun p q file hp hq =>
    h.creator p q file (hquiet.file_of_some hp) (hquiet.file_of_some hq)

/-- The number of a new file is above those of all other processes. -/
theorem Fresh.creates (h : Fresh s) {p : Pid} (hcreates : Creates s s' p) : Fresh s' where
  path := fun file hpath => by
    rw [hcreates.path] at hpath
    cases hpath
    rw [hcreates.next]
    exact Nat.lt_succ_self _
  file := fun q file hfile => by
    rw [hcreates.next]
    by_cases hq : q = p
    · rw [hq, hcreates.creator] at hfile
      cases hfile
      exact Nat.lt_succ_self _
    · rw [hcreates.others q hq] at hfile
      exact Nat.lt_succ_of_lt (h.file q file hfile)
  creator := by
    have hnew : ∀ q, q ≠ p → ∀ file, (s'.procs p).file = some file →
        (s'.procs q).file ≠ some file := by
      intro q hq file hp hfile
      rw [hcreates.creator] at hp
      cases hp
      rw [hcreates.others q hq] at hfile
      exact lt_irrefl _ (h.file q _ hfile)
    intro q r file hq hr
    by_cases hqp : q = p
    · by_contra hqr
      exact hnew r (fun hrp => hqr (hqp.trans hrp.symm)) file (hqp ▸ hq) hr
    · by_cases hrp : r = p
      · exact absurd hq (hnew q hqp file (hrp ▸ hr))
      · rw [hcreates.others q hqp] at hq
        rw [hcreates.others r hrp] at hr
        exact h.creator q r file hq hr

theorem Fresh.unlinks (h : Fresh s) {p : Pid} (hunlinks : Unlinks s s' p) : Fresh s' := by
  have hold : ∀ q file, (s'.procs q).file = some file → (s.procs q).file = some file := by
    intro q file hfile
    by_cases hq : q = p
    · rw [hq, hunlinks.remover] at hfile
      cases hfile
    · rw [← hunlinks.others q hq, hfile]
  refine ⟨fun file hpath => ?_, fun q file hfile => ?_, fun q r file hq hr => ?_⟩
  · rw [hunlinks.path] at hpath
    cases hpath
  · rw [hunlinks.next]
    exact h.file q file (hold q file hfile)
  · exact h.creator q r file (hold q file hq) (hold r file hr)

theorem fresh_step (s : System) (e : Event) (h : Fresh s) : Fresh (step s e) := by
  rcases step_cases s e with ⟨hquiet, -⟩ | ⟨p, -, hcreates⟩ | ⟨p, -, hunlinks⟩
  · exact h.quiet hquiet
  · exact h.creates hcreates
  · exact h.unlinks hunlinks

/-- A removal leaves every file linked exactly when it takes away no one's. -/
theorem linked_unlinks_iff (h : Linked s) {p : Pid} (hunlinks : Unlinks s s' p) :
    Linked s' ↔ Spares s (.remove p) := by
  constructor
  · intro hlinked _ file _ q hq hfile
    have hpath := hlinked q file (by rw [hunlinks.others q hq, hfile])
    rw [hunlinks.path] at hpath
    cases hpath
  · intro hspares q file hfile
    by_cases hq : q = p
    · rw [hq, hunlinks.remover] at hfile
      cases hfile
    · rw [hunlinks.others q hq] at hfile
      exact absurd hfile (hspares hunlinks.removes file (h q file hfile) q hq)

/-- A step keeps every file at the path exactly when it spares the files of others: a
file is created only where the path is free, and then no one else has one. -/
theorem linked_step_iff (s : System) (e : Event) (_ : Fresh s) (h : Linked s) :
    Linked (step s e) ↔ Spares s e := by
  rcases step_cases s e with ⟨hquiet, hstays⟩ | ⟨p, rfl, hcreates⟩ | ⟨p, rfl, hunlinks⟩
  · refine ⟨fun _ => ?_, fun _ p file hfile => ?_⟩
    · cases e with
      | remove p => exact fun hremoves => absurd hremoves (hstays p rfl)
      | _ => trivial
    · rw [hquiet.path]
      exact h p file (hquiet.file_of_some hfile)
  · refine ⟨fun _ => trivial, fun _ q file hfile => ?_⟩
    by_cases hq : q = p
    · rw [hcreates.path, ← hfile, hq, hcreates.creator]
    · rw [hcreates.others q hq] at hfile
      have hnoFile := h q file hfile
      rw [hcreates.free] at hnoFile
      cases hnoFile
  · exact linked_unlinks_iff h hunlinks

theorem file_of_holds {proc : Proc} (h : proc.holds) : ∃ file, proc.file = some file := by
  cases proc with
  | holding file => exact ⟨file, rfl⟩
  | releasing held => exact Option.isSome_iff_exists.mp h
  | unlinking held => exact Option.isSome_iff_exists.mp h
  | _ => cases h

/-- The path names one file, and one process created it. -/
theorem atMostOne_of_linked (hfresh : Fresh s) (h : Linked s) : AtMostOne s := by
  intro p q hp hq
  obtain ⟨file, hfile⟩ := file_of_holds hp
  obtain ⟨file', hfile'⟩ := file_of_holds hq
  have hsame : some file = some file' := (h p file hfile).symm.trans (h q file' hfile')
  rw [← hsame] at hfile'
  exact hfresh.creator p q file hfile hfile'

end Ownership

section Contest

variable {s : System} {p q : Pid}

theorem acquire_turns (hp : s.procs p = .creating false ∨ s.procs p = .idle) (hq : q ≠ p) :
    (∃ allowRetry, (step s (.acquire p)).procs p = .creating allowRetry) ∧
      (step s (.acquire p)).path = s.path ∧ (step s (.acquire p)).procs q = s.procs q := by
  rw [step]
  split
  · exact ⟨⟨true, goto_self s p _⟩, rfl, goto_of_ne hq s _⟩
  · rename_i hother
    exact ⟨⟨false, hp.resolve_right hother⟩, rfl, rfl⟩

theorem create_free {allowRetry : Bool} (hp : s.procs p = .creating allowRetry)
    (hfree : s.path = none) (hq : q ≠ p) :
    (step s (.create p)).procs p = .writing s.next ∧
      (step s (.create p)).procs q = s.procs q := by
  rw [step, hp]
  dsimp only
  rw [hfree]
  exact ⟨goto_self s p _, goto_of_ne hq s _⟩

theorem write_holds {file : ℕ} (hp : s.procs p = .writing file) :
    (step s (.write p)).procs p = .holding file := by
  rw [step, hp]
  exact goto_self s p _

theorem write_others (hq : q ≠ p) : (step s (.write p)).procs q = s.procs q := by
  rw [step]
  split
  · exact goto_of_ne hq s _
  · rfl

/-- A process with a file holds it once it has written its pid. -/
theorem write_file (hq : (s.procs q).file ≠ none) : ((step s (.write q)).procs q).holds := by
  cases hproc : s.procs q with
  | writing file =>
    rw [step, hproc]
    dsimp only
    rw [goto_self]
    rfl
  | holding file =>
    rw [step, hproc]
    dsimp only
    rw [hproc]
    rfl
  | releasing held =>
    rw [hproc] at hq
    rw [step, hproc]
    dsimp only
    rw [hproc]
    exact Option.isSome_iff_ne_none.mpr hq
  | unlinking held =>
    rw [hproc] at hq
    rw [step, hproc]
    dsimp only
    rw [hproc]
    exact Option.isSome_iff_ne_none.mpr hq
  | _ =>
    rw [hproc] at hq
    exact absurd rfl hq

/-- Once the path is free beside a process with a file, another one gets the lock too,
and nothing more is removed. -/
theorem contested (hfree : s.path = none)
    (hp : s.procs p = .creating false ∨ s.procs p = .idle) (hq : q ≠ p)
    (hfile : (s.procs q).file ≠ none) :
    ¬AtMostOne (runFrom step s [.acquire p, .create p, .write p, .write q]) := by
  obtain ⟨⟨allowRetry, hcreating⟩, hfree', hacquire⟩ := acquire_turns hp hq
  obtain ⟨hwriting, hcreate⟩ := create_free hcreating (hfree'.trans hfree) hq
  have hholding := write_holds hwriting
  simp only [runFrom_cons, runFrom_nil]
  intro hone
  refine hq (hone q p (write_file ?_) ?_)
  · rw [write_others hq, hcreate, hacquire]
    exact hfile
  · rw [write_others hq.symm, hholding]
    rfl

/-- A removal that takes away the file of another process opens a contest. -/
theorem contested_of_not_spares {e : Event} (hspares : ¬Spares s e) :
    ∃ after, (∀ e' ∈ after, ∀ r, e' ≠ .remove r) ∧
      ¬AtMostOne (runFrom step (step s e) after) := by
  cases e with
  | remove p =>
    simp only [Spares, Classical.not_imp, not_forall, not_not] at hspares
    obtain ⟨hremoves, file, -, q, hq, hfile⟩ := hspares
    rcases step_remove s p with ⟨-, hnot⟩ | hunlinks
    · exact absurd hremoves hnot
    · refine ⟨_, ?_, contested hunlinks.path hunlinks.turns hq ?_⟩
      · simp
      · rw [hunlinks.others q hq, hfile]
        exact Option.some_ne_none file
  | _ => exact absurd trivial hspares

end Contest

section Results

/-- No process has a file at the start. -/
theorem fresh_start (file : Option (Option (List Char))) : Fresh (System.start file) where
  path := fun i hpath => by
    cases file with
    | none => cases hpath
    | some text =>
      cases hpath
      exact Nat.zero_lt_one
  file := nofun
  creator := nofun

/-- At every moment of a run, and however it goes on without a further removal, at most
one live process holds the lock, exactly when no removal of the run takes away a file
that another live process created and has not released. -/
theorem at_most_one_iff_spares (file : Option (Option (List Char))) (events : List Event) :
    (∀ before, before <+: events → ∀ after : List Event, (∀ e ∈ after, ∀ p, e ≠ .remove p) →
      AtMostOne (runFrom step (System.start file) (before ++ after))) ↔
      Meets step Spares (System.start file) events := by
  have hlinked : Linked (System.start file) := nofun
  rw [← forall_prefix_iff_meets fresh_step linked_step_iff (fresh_start file) hlinked events]
  have hfresh : ∀ run, Fresh (runFrom step (System.start file) run) :=
    runFrom_induction fresh_step (fresh_start file)
  simp only [runFrom_append]
  constructor
  · intro hone before
    induction before using List.reverseRecOn with
    | nil => exact fun _ => hlinked
    | append_singleton before e ih =>
      intro hprefix
      have hbefore := ih ((List.prefix_append before [e]).trans hprefix)
      rw [runFrom_append, runFrom_cons, runFrom_nil,
        linked_step_iff _ e (hfresh before) hbefore]
      by_contra hspares
      obtain ⟨after, hquiet, htwo⟩ := contested_of_not_spares hspares
      have hafter := hone (before ++ [e]) hprefix after hquiet
      rw [runFrom_append, runFrom_cons, runFrom_nil] at hafter
      exact htwo hafter
  · intro h before hprefix after hquiet
    have hspares : Meets step Spares (runFrom step (System.start file) before) after := by
      refine meets_of_forall_mem (fun e he s => ?_) _
      cases e with
      | remove p => exact absurd rfl (hquiet _ he p)
      | _ => trivial
    have hrun := (forall_prefix_iff_meets fresh_step linked_step_iff (hfresh before)
      (h before hprefix) after).mpr hspares after (List.prefix_refl after)
    exact atMostOne_of_linked (runFrom_induction fresh_step (hfresh before) after) hrun

/-- Two daemons start at once; the second one reads the file before the pid of the
first one is in it. -/
def overlappingRun : List Event :=
  [.start 1, .start 2, .acquire 1, .create 1, .acquire 2, .create 2, .read 2, .remove 2, .create 2,
    .write 2, .write 1]

/-- Both get the lock. -/
theorem two_daemons_hold :
    ¬∀ file events, AtMostOne (runFrom step (System.start file) events) := by
  intro h
  have hone := h none overlappingRun 1 2 rfl rfl
  exact absurd hone (by decide)

end Results

end Teleprompter.DaemonLock
