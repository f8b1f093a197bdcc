import Mathlib.Data.Finset.Insert
import Mathlib.Data.Nat.Digits.Defs
import Teleprompter.PairingLink
import Teleprompter.WorktreePaths

/-!
# Creation of a worktree with its session

A request to create a worktree checks the branch names and the path, adds the
worktree with git, asks for its head and starts a session in it. When the session
cannot be started, the worktree is removed again; when the head cannot be read,
or git fails after it has registered the worktree, it is not. Results of the git
commands are inputs; git registers a worktree at the place that the kernel finds
under the text it was given.
-/

namespace Teleprompter.WorktreeCreate

open LinkedPaths WorktreePaths
open PairingLink (trim)

section Names

/-- Characters that a session id may hold. -/
def isSidChar (c : Char) : Bool :=
  ('a' ≤ c && c ≤ 'z') || ('A' ≤ c && c ≤ 'Z') || ('0' ≤ c && c ≤ '9') || c == '_' || c == '-'

/-- A label with every other character replaced, hyphens collapsed and trimmed. -/
def sanitizeForSid (label : List Char) : List Char :=
  let cleaned := label.foldl (fun cleaned c =>
    if isSidChar c then cleaned ++ [c]
    else if cleaned.getLast? = some '-' then cleaned else cleaned ++ ['-']) []
  let collapsed := cleaned.foldl (fun collapsed c =>
    if c = '-' ∧ collapsed.getLast? = some '-' then collapsed else collapsed ++ [c]) []
  let trimmed := (collapsed.dropWhile (· = '-')).rdropWhile (· = '-')
  if trimmed = [] then "wt".toList else trimmed

/-- A digit to base 36. -/
def digit36 (n : ℕ) : Char :=
  "0123456789abcdefghijklmnopqrstuvwxyz".toList.getD n '0'

/-- A number to base 36. -/
def toBase36 (n : ℕ) : List Char :=
  if n = 0 then ['0'] else (Nat.digits 36 n).reverse.map digit36

example : toBase36 1751940000000 = "mctvubk0".toList := by decide +kernel

end Names

section Git

/-- What became of a git command. -/
inductive Outcome where
  | finished (stdout : List Char)
  /-- The exit code is missing when a signal ended it. -/
  | failed (status : Option ℤ) (stderr : List Char)
  | notRun (message : List Char)
  deriving DecidableEq

/-- The command ran and succeeded. -/
def Outcome.ok : Outcome → Bool
  | .finished _ => true
  | _ => false

/-- A git command whose output is read. -/
def gitOutput (arg0 : List Char) : Outcome → Except (List Char) (List Char)
  | .finished stdout => .ok stdout
  | .failed status stderr =>
    let code := ((status.map toString).getD "null").toList
    if trim stderr = [] then .error ("git ".toList ++ arg0 ++ " exited ".toList ++ code)
    else .error ("git ".toList ++ arg0 ++ " exited ".toList ++ code ++ ": ".toList ++ trim stderr)
  | .notRun message => .error ("git ".toList ++ arg0 ++ " could not run: ".toList ++ message)

/-- A git command whose output is not read. -/
def gitRun (arg0 : List Char) : Outcome → Except (List Char) Unit
  | .finished _ => .ok ()
  | .failed _ stderr => .error ("git ".toList ++ arg0 ++ " failed: ".toList ++ trim stderr)
  | .notRun message => .error ("git ".toList ++ arg0 ++ " could not run: ".toList ++ message)

/-- Ask git whether a branch name is well formed. -/
def validateBranchName (branch : List Char) : Outcome → Except (List Char) Unit
  | .finished _ => .ok ()
  | .failed _ _ =>
    .error ("Invalid branch name: '".toList ++ branch ++
      "'. Branch names cannot contain spaces, '..', '~', '^', ':', control characters, or start/end with '.' or '/'.".toList)
  | .notRun message =>
    .error ("cannot validate branch name (git could not run): ".toList ++ message)

end Git

section Creation

/-- Worktrees that the repository has registered, by their places. -/
abbrev Worktrees := Finset Path

/-- What a request meets on its way: files, results of the commands and of the
start of the session. -/
structure Surroundings where
  /-- Files while the worktree is added. -/
  tree : FileTree
  /-- Directories marked read-only. -/
  readonly : Path → Bool
  branchCheck : Outcome
  baseBranchCheck : Outcome
  verify : Outcome
  add : Outcome
  /-- A failing addition leaves the worktree registered, as when a hook fails. -/
  addLeaves : Bool
  head : Outcome
  createSession : Except (List Char) Unit
  /-- Files when the worktree is removed again. -/
  treeAfter : FileTree
  remove : Outcome

/-- A request to create a worktree. -/
structure CreateRequest where
  branch : List Char
  baseBranch : Option (List Char)
  path : Option (List Char)
  /-- Clock reading in milliseconds. -/
  now : ℕ

/-- The worktree that was made. -/
structure WorktreeInfo where
  path : List Char
  branch : Option (List Char)
  head : List Char
  isMain : Bool
  deriving DecidableEq

/-- What a request leaves behind. -/
structure CreateReport where
  answer : Except (List Char) (WorktreeInfo × List Char)
  worktrees : Worktrees
  /-- The result of the rollback, when there was one. -/
  rollback : Option (Except (List Char) Unit)

variable (manager : WorktreeManager) (maxLinks : ℕ)

/-- The parent of a path must be a directory that can be written. -/
def validatePathPermissions (tree : FileTree) (readonly : Path → Bool) (path : Path) :
    Except (List Char) Unit :=
  let usable :=
    path ≠ [] ∧ ∃ parent ∈ realpath tree maxLinks path.dropLast,
      (parent = [] ∨ tree parent = some .directory) ∧ readonly parent = false
  if usable then .ok ()
  else .error ("Cannot create worktree at '".toList ++ display path ++ "': parent directory '".toList ++
    (if path = [] then [] else display path.dropLast) ++
    "' does not exist or is not writable.".toList)

/-- What is checked before git adds the worktree. -/
def validateAdd (around : Surroundings) (path branch : List Char) (baseBranch : Option (List Char)) :
    Except (List Char) Unit := do
  validateBranchName branch around.branchCheck
  match baseBranch with
  | some base => validateBranchName base around.baseBranchCheck
  | none => pure ()
  manager.validatePathContainment around.tree maxLinks path
  validatePathPermissions maxLinks around.tree around.readonly (resolveAgainst manager.repoRoot path)

/-- The words of the command that adds a worktree: for an existing branch, a new
one from a base, or a new one. -/
def addWords (around : Surroundings) (path branch : List Char) (baseBranch : Option (List Char)) :
    List (List Char) :=
  if around.verify.ok then ["worktree".toList, "add".toList, "--".toList, path, branch]
  else
    match baseBranch with
    | some base =>
      ["worktree".toList, "add".toList, "-b".toList, branch, "--".toList, path, base]
    | none => ["worktree".toList, "add".toList, "-b".toList, branch, "--".toList, path]

/-- Worktrees after git has run to add one: registered when it succeeds, and
possibly when it fails. -/
def afterAdd (around : Surroundings) (path : List Char) (worktrees : Worktrees) : Worktrees :=
  if around.add.ok ∨ around.addLeaves = true then
    match manager.actsOn around.tree maxLinks path with
    | some place => insert place worktrees
    | none => worktrees
  else worktrees

/-- Add a worktree and read its head. -/
def add (around : Surroundings) (path branch : List Char) (baseBranch : Option (List Char))
    (worktrees : Worktrees) : Except (List Char) WorktreeInfo × Worktrees :=
  match validateAdd manager maxLinks around path branch baseBranch with
  | .error message => (.error message, worktrees)
  | .ok _ =>
    let arg0 := (addWords around path branch baseBranch).headD []
    let added := afterAdd manager maxLinks around path worktrees
    match gitRun arg0 around.add with
    | .error message => (.error message, added)
    | .ok _ =>
      match gitOutput "rev-parse".toList around.head with
      | .error message => (.error message, added)
      | .ok head =>
        (.ok ⟨display (resolveAgainst manager.repoRoot path), some branch, trim head, false⟩, added)

/-- Remove a worktree again. -/
def remove (around : Surroundings) (path : List Char) (worktrees : Worktrees) :
    Except (List Char) Unit × Worktrees :=
  match manager.validatePathContainment around.treeAfter maxLinks path with
  | .error message => (.error message, worktrees)
  | .ok _ =>
    match gitRun "worktree".toList around.remove with
    | .error message => (.error message, worktrees)
    | .ok _ =>
      match manager.actsOn around.treeAfter maxLinks path with
      | some place => (.ok (), worktrees.erase place)
      | none => (.ok (), worktrees)

/-- The path of a request: its own, or one from the branch and the clock. -/
def CreateRequest.worktreePath (request : CreateRequest) : List Char :=
  request.path.getD (sanitizeForSid request.branch ++ "-".toList ++ toBase36 request.now)

/-- An empty message is answered with the fallback text. -/
def answerText (message : List Char) : List Char :=
  if message = [] then "Failed to create worktree".toList else message

/-- Serve a request. The rollback does not replace the error of the session. -/
def handleRelayWorktreeCreate (around : Surroundings) (request : CreateRequest)
    (worktrees : Worktrees) : CreateReport :=
  let sid := sanitizeForSid request.branch ++ "-".toList ++ toBase36 request.now
  match add manager maxLinks around request.worktreePath request.branch request.baseBranch
      worktrees with
  | (.error message, added) => ⟨.error (answerText message), added, none⟩
  | (.ok info, added) =>
    match around.createSession with
    | .ok _ => ⟨.ok (info, sid), added, none⟩
    | .error message =>
      let rolledBack := remove manager maxLinks around info.path added
      ⟨.error (answerText message), rolledBack.2, some rolledBack.1⟩

/-- Git registers a worktree only where there is none yet. -/
def AddsFresh (around : Surroundings) (path : List Char) (worktrees : Worktrees) : Prop :=
  around.add.ok = true ∨ around.addLeaves = true →
    ∃ place, manager.actsOn around.tree maxLinks path = some place ∧ place ∉ worktrees

/-- A failed request leaves the worktrees as they were, unless its rollback failed. -/
def FailsCleanly (report : CreateReport) (worktrees : Worktrees) : Prop :=
  ∀ message, report.answer = .error message →
    report.worktrees = worktrees ∨ ∃ failure, report.rollback = some (.error failure)

/-- Where git is run and registers the worktree, it succeeds, the head can be read,
and a session that cannot be started meets a rollback that fails or whose path,
shortened in the text, names the same place. -/
def RollsBack (around : Surroundings) (request : CreateRequest) : Prop :=
  let path := request.worktreePath
  let absolute := display (resolveAgainst manager.repoRoot path)
  validateAdd manager maxLinks around path request.branch request.baseBranch = .ok () →
    around.add.ok = true ∨ around.addLeaves = true →
      around.add.ok = true ∧ around.head.ok = true ∧
        (around.createSession = .ok () ∨
          manager.validatePathContainment around.treeAfter maxLinks absolute ≠ .ok () ∨
          around.remove.ok = false ∨
          manager.actsOn around.treeAfter maxLinks absolute =
            manager.actsOn around.tree maxLinks path)

end Creation

section Atomicity

variable {manager : WorktreeManager} {maxLinks : ℕ} {around : Surroundings}
  {request : CreateRequest} {worktrees : Worktrees}

/-- A command that succeeds gives no error. -/
theorem gitRun_of_ok (arg0 : List Char) {outcome : Outcome} (h : outcome.ok = true) :
    gitRun arg0 outcome = .ok () := by
  cases outcome with
  | finished stdout => rfl
  | failed status stderr => cases h
  | notRun message => cases h

/-- A command that does not succeed gives an error. -/
theorem gitRun_of_not_ok (arg0 : List Char) {outcome : Outcome} (h : outcome.ok = false) :
    ∃ message, gitRun arg0 outcome = .error message := by
  cases outcome with
  | finished stdout => cases h
  | failed status stderr => exact ⟨_, rfl⟩
  | notRun message => exact ⟨_, rfl⟩

/-- Output can be read exactly when the command succeeds. -/
theorem gitOutput_cases (arg0 : List Char) (outcome : Outcome) :
    (outcome.ok = true ∧ ∃ stdout, gitOutput arg0 outcome = .ok stdout) ∨
      outcome.ok = false ∧ ∃ message, gitOutput arg0 outcome = .error message := by
  cases outcome with
  | finished stdout => exact .inl ⟨rfl, stdout, rfl⟩
  | failed status stderr =>
    refine .inr ⟨rfl, ?_⟩
    rw [gitOutput]
    split
    · exact ⟨_, rfl⟩
    · exact ⟨_, rfl⟩
  | notRun message => exact .inr ⟨rfl, _, rfl⟩

/-- How an addition can end: refused before git runs, failed in git, without a
head, or done. -/
theorem add_cases (manager : WorktreeManager) (maxLinks : ℕ) (around : Surroundings)
    (path branch : List Char) (baseBranch : Option (List Char)) (worktrees : Worktrees) :
    ((validateAdd manager maxLinks around path branch baseBranch ≠ .ok ()) ∧
        ∃ message, add manager maxLinks around path branch baseBranch worktrees =
          (.error message, worktrees)) ∨
      validateAdd manager maxLinks around path branch baseBranch = .ok () ∧
        ((around.add.ok = true ∧ around.head.ok = true ∧ ∃ head,
            add manager maxLinks around path branch baseBranch worktrees =
              (.ok ⟨display (resolveAgainst manager.repoRoot path), some branch, head, false⟩,
                afterAdd manager maxLinks around path worktrees)) ∨
          ¬(around.add.ok = true ∧ around.head.ok = true) ∧ ∃ message,
            add manager maxLinks around path branch baseBranch worktrees =
              (.error message, afterAdd manager maxLinks around path worktrees)) := by
  rw [add]
  cases hvalid : validateAdd manager maxLinks around path branch baseBranch with
  | error message => exact .inl ⟨by simp, message, rfl⟩
  | ok _ =>
    refine .inr ⟨rfl, ?_⟩
    dsimp only
    cases hadd : around.add.ok with
    | false =>
      obtain ⟨message, hrun⟩ :=
        gitRun_of_not_ok ((addWords around path branch baseBranch).headD []) hadd
      rw [hrun]
      exact .inr ⟨by simp, message, rfl⟩
    | true =>
      rw [gitRun_of_ok _ hadd]
      dsimp only
      rcases gitOutput_cases "rev-parse".toList around.head with
        ⟨hhead, stdout, hread⟩ | ⟨hhead, message, hread⟩
      · rw [hread, hhead]
        exact .inl ⟨rfl, rfl, trim stdout, rfl⟩
      · rw [hread, hhead]
        exact .inr ⟨by simp, message, rfl⟩

/-- How a rollback can end: failed with the worktrees as they are, or done. -/
theorem remove_cases (manager : WorktreeManager) (maxLinks : ℕ) (around : Surroundings)
    (path : List Char) (worktrees : Worktrees) :
    ((manager.validatePathContainment around.treeAfter maxLinks path ≠ .ok () ∨
          around.remove.ok = false) ∧
        ∃ message, (remove manager maxLinks around path worktrees).1 = .error message) ∨
      (manager.validatePathContainment around.treeAfter maxLinks path = .ok () ∧
          around.remove.ok = true) ∧
        remove manager maxLinks around path worktrees =
          (.ok (), match manager.actsOn around.treeAfter maxLinks path with
            | some place => worktrees.erase place
            | none => worktrees) := by
  rw [remove]
  cases hvalid : manager.validatePathContainment around.treeAfter maxLinks path with
  | error message => exact .inl ⟨.inl (by simp), message, rfl⟩
  | ok _ =>
    dsimp only
    cases hremove : around.remove.ok with
    | false =>
      obtain ⟨message, hrun⟩ := gitRun_of_not_ok "worktree".toList hremove
      rw [hrun]
      exact .inl ⟨.inr rfl, message, rfl⟩
    | true =>
      rw [gitRun_of_ok _ hremove]
      refine .inr ⟨⟨rfl, rfl⟩, ?_⟩
      dsimp only
      cases manager.actsOn around.treeAfter maxLinks path with
      | none => rfl
      | some place => rfl

/-- An addition that registers a fresh worktree changes the worktrees. -/
theorem afterAdd_ne {path : List Char} (hfresh : AddsFresh manager maxLinks around path worktrees)
    (hregisters : around.add.ok = true ∨ around.addLeaves = true) :
    afterAdd manager maxLinks around path worktrees ≠ worktrees := by
  obtain ⟨place, hplace, hnew⟩ := hfresh hregisters
  rw [afterAdd, if_pos hregisters, hplace]
  intro heq
  exact hnew (heq ▸ Finset.mem_insert_self place worktrees)

/-- Removing a place from the worktrees after the addition restores them exactly
when it is the place that was added. -/
theorem erase_afterAdd_iff {path : List Char} (place : Option Path)
    (hfresh : AddsFresh manager maxLinks around path worktrees)
    (hregisters : around.add.ok = true ∨ around.addLeaves = true) :
    (match place with
      | some found => (afterAdd manager maxLinks around path worktrees).erase found
      | none => afterAdd manager maxLinks around path worktrees) = worktrees ↔
      place = manager.actsOn around.tree maxLinks path := by
  have hne := afterAdd_ne hfresh hregisters
  obtain ⟨added, hadded, hnew⟩ := hfresh hregisters
  rw [afterAdd, if_pos hregisters, hadded] at hne ⊢
  cases place with
  | none => simpa using hne
  | some found =>
    dsimp only
    constructor
    · intro heq
      by_contra hother
      have hfound : added ≠ found := fun h => hother (h ▸ rfl)
      have hmem : added ∈ (insert added worktrees).erase found :=
        Finset.mem_erase.mpr ⟨hfound, Finset.mem_insert_self added worktrees⟩
      exact hnew (heq ▸ hmem)
    · intro heq
      rw [Option.some.inj heq]
      exact Finset.erase_insert hnew

/-- With the worktree added and its head read, a failing session is answered
cleanly exactly when the rollback fails or removes the place that was added. -/
theorem failsCleanly_rollback_iff {path absolute message : List Char}
    (hfresh : AddsFresh manager maxLinks around path worktrees) (hok : around.add.ok = true) :
    FailsCleanly
        ⟨.error message,
          (remove manager maxLinks around absolute
            (afterAdd manager maxLinks around path worktrees)).2,
          some (remove manager maxLinks around absolute
            (afterAdd manager maxLinks around path worktrees)).1⟩ worktrees ↔
      manager.validatePathContainment around.treeAfter maxLinks absolute ≠ .ok () ∨
        around.remove.ok = false ∨
        manager.actsOn around.treeAfter maxLinks absolute =
          manager.actsOn around.tree maxLinks path := by
  have hrestores := erase_afterAdd_iff (manager.actsOn around.treeAfter maxLinks absolute) hfresh
    (.inl hok)
  rcases remove_cases manager maxLinks around absolute
      (afterAdd manager maxLinks around path worktrees) with
    ⟨hfails, failure, hremove⟩ | ⟨⟨hvalid, hran⟩, hremove⟩
  · constructor
    · intro _
      rcases hfails with hfails | hfails
      · exact .inl hfails
      · exact .inr (.inl hfails)
    · intro _ _ _
      exact .inr ⟨failure, by rw [hremove]⟩
  · rw [hremove]
    constructor
    · intro hclean
      rcases hclean message rfl with hsame | ⟨failure, hfailure⟩
      · exact .inr (.inr (hrestores.mp hsame))
      · cases hfailure
    · rintro (hinvalid | hfails | hplace)
      · exact absurd hvalid hinvalid
      · rw [hran] at hfails
        cases hfails
      · exact fun _ _ => .inl (hrestores.mpr hplace)

/-- A request fails cleanly exactly when every worktree that git registers for it
is rolled back. -/
theorem fails_cleanly_iff_rolls_back
    (hfresh : AddsFresh manager maxLinks around request.worktreePath worktrees) :
    FailsCleanly (handleRelayWorktreeCreate manager maxLinks around request worktrees) worktrees ↔
      RollsBack manager maxLinks around request := by
  rw [handleRelayWorktreeCreate, RollsBack]
  dsimp only
  rcases add_cases manager maxLinks around request.worktreePath request.branch request.baseBranch
      worktrees with ⟨hvalid, message, hadd⟩ |
      ⟨hvalid, ⟨hok, hhead, head, hadd⟩ | ⟨hfails, message, hadd⟩⟩
  · rw [hadd]
    exact ⟨fun _ h => absurd h hvalid, fun _ _ _ => .inl rfl⟩
  · rw [hadd]
    dsimp only
    cases hsession : around.createSession with
    | ok _ =>
      constructor
      · exact fun _ _ _ => ⟨hok, hhead, .inl rfl⟩
      · intro _ message hanswer
        cases hanswer
    | error message =>
      dsimp only
      rw [failsCleanly_rollback_iff hfresh hok]
      constructor
      · exact fun hrolls _ _ => ⟨hok, hhead, .inr hrolls⟩
      · intro hrolls
        obtain ⟨-, -, hrolls⟩ := hrolls hvalid (.inl hok)
        exact hrolls.resolve_left (by simp)
  · rw [hadd]
    constructor
    · intro hclean _ hregisters
      rcases hclean _ rfl with hsame | ⟨failure, hfailure⟩
      · exact absurd hsame (afterAdd_ne hfresh hregisters)
      · cases hfailure
    · intro hrolls _ _
      left
      by_cases hregisters : around.add.ok = true ∨ around.addLeaves = true
      · obtain ⟨hok, hhead, -⟩ := hrolls hvalid hregisters
        exact absurd ⟨hok, hhead⟩ hfails
      · exact if_neg hregisters

/-- Every command succeeds; what the head query and the session give is left open. -/
def smoothExcept (head : Outcome) (createSession : Except (List Char) Unit) : Surroundings where
  tree := linkedRepository
  readonly := fun _ => false
  branchCheck := .finished []
  baseBranchCheck := .finished []
  verify := .failed (some 128) []
  add := .finished []
  addLeaves := false
  head := head
  createSession := createSession
  treeAfter := linkedRepository
  remove := .finished []

/-- A request for a branch at a sibling of the repository. -/
def siblingRequest : CreateRequest := ⟨"topic".toList, none, some "../wt".toList, 0⟩

/-- A session that cannot be started is rolled back. -/
theorem fails_cleanly_sibling :
    FailsCleanly
      (handleRelayWorktreeCreate ⟨["w".toList, "repo".toList]⟩ 40
        (smoothExcept (.finished "abc".toList) (.error "spawn failed".toList)) siblingRequest ∅) ∅ := by
  refine (fails_cleanly_iff_rolls_back ?_).mpr ?_
  · exact fun _ => ⟨["w".toList, "wt".toList], by decide +kernel, by decide +kernel⟩
  · exact fun _ _ => ⟨rfl, rfl, .inr (.inr (.inr (by decide +kernel)))⟩

/-- When the head of the new worktree cannot be read, the request is answered with
an error and the worktree stays. -/
theorem head_failure_leaves_worktree :
    AddsFresh ⟨["w".toList, "repo".toList]⟩ 40 (smoothExcept (.failed (some 128) []) (.ok ()))
        siblingRequest.worktreePath ∅ ∧
      ¬FailsCleanly
        (handleRelayWorktreeCreate ⟨["w".toList, "repo".toList]⟩ 40
          (smoothExcept (.failed (some 128) []) (.ok ())) siblingRequest ∅) ∅ := by
  refine ⟨fun _ => ⟨["w".toList, "wt".toList], by decide +kernel, by decide +kernel⟩, ?_⟩
  intro hclean
  have hanswer : (handleRelayWorktreeCreate ⟨["w".toList, "repo".toList]⟩ 40
      (smoothExcept (.failed (some 128) []) (.ok ())) siblingRequest ∅).answer =
        .error "git rev-parse exited 128".toList := by decide +kernel
  rcases hclean _ hanswer with hsame | ⟨failure, hfailure⟩
  · have hworktrees : (handleRelayWorktreeCreate ⟨["w".toList, "repo".toList]⟩ 40
        (smoothExcept (.failed (some 128) []) (.ok ())) siblingRequest ∅).worktrees =
          {["w".toList, "wt".toList]} := by decide +kernel
    rw [hworktrees] at hsame
    exact absurd hsame (Finset.singleton_ne_empty _)
  · have hnone : (handleRelayWorktreeCreate ⟨["w".toList, "repo".toList]⟩ 40
        (smoothExcept (.failed (some 128) []) (.ok ())) siblingRequest ∅).rollback = none := by
      decide +kernel
    rw [hnone] at hfailure
    cases hfailure

end Atomicity

end Teleprompter.WorktreeCreate
