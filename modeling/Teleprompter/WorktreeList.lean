import Teleprompter.WorktreeCreate

/-!
# The list of worktrees that git prints

Git prints a record for each worktree: its path, then its head with the branch
or a mark that the head is detached, or a mark that it is bare, then whether it
is locked or can be pruned, and an empty line. The lines are collected into
entries one at a time. An entry counts as complete only with a head, which a
bare worktree does not have, so it is left out and the next one is called the
main worktree.
-/

namespace Teleprompter.WorktreeList

open WorktreeCreate (WorktreeInfo Outcome gitOutput)
open PairingLink (isWhitespace trim)

section Model

/-- What follows a prefix. -/
def stripPrefix (front line : List Char) : Option (List Char) :=
  if front <+: line then some (line.drop front.length) else none

/-- An entry that is being collected. -/
structure PartialWorktree where
  path : Option (List Char)
  /-- Known to be on no branch, once the path is there. -/
  branch : Option (Option (List Char))
  head : Option (List Char)
  isMain : Bool
  deriving DecidableEq

/-- Nothing is known. -/
def PartialWorktree.unset : PartialWorktree := ⟨none, none, none, false⟩

/-- The entry, if it is complete. -/
def PartialWorktree.intoWorktreeInfo (current : PartialWorktree) : Option WorktreeInfo :=
  match current.path, current.branch, current.head with
  | some path, some branch, some head => some ⟨path, branch, head, current.isMain⟩
  | _, _, _ => none

/-- Entries so far, and the one being collected. -/
structure Collected where
  worktrees : List WorktreeInfo
  current : PartialWorktree

/-- Take over the current entry if it is complete. -/
def Collected.pushed (collected : Collected) : List WorktreeInfo :=
  collected.worktrees ++ collected.current.intoWorktreeInfo.toList

/-- Take in one line. Other lines are passed over. -/
def collectLine (collected : Collected) (line : List Char) : Collected :=
  match stripPrefix "worktree ".toList line with
  | some path => ⟨collected.pushed, ⟨some path, some none, none, false⟩⟩
  | none =>
    match stripPrefix "HEAD ".toList line with
    | some head => { collected with current := { collected.current with head := some head } }
    | none =>
      match stripPrefix "branch ".toList line with
      | some reference =>
        let branch := (stripPrefix "refs/heads/".toList reference).getD reference
        { collected with current := { collected.current with branch := some (some branch) } }
      | none =>
        if line = "detached".toList then collected
        else if line = "bare".toList then
          { collected with current := { collected.current with isMain := true } }
        else if line = [] then ⟨collected.pushed, .unset⟩
        else collected

/-- Call the first entry the main worktree unless one is. -/
def markMain : List WorktreeInfo → List WorktreeInfo
  | [] => []
  | first :: others =>
    if (first :: others).any WorktreeInfo.isMain then first :: others
    else { first with isMain := true } :: others

/-- The worktrees of a repository, none when git fails. -/
def list (outcome : Outcome) : List WorktreeInfo :=
  match gitOutput "worktree".toList outcome with
  | .error _ => []
  | .ok result =>
    if trim result = [] then []
    else markMain ((result.splitOn '\n').foldl collectLine ⟨[], .unset⟩).pushed

end Model

section Printing

/-- A text on one line. -/
abbrev Line := {text : List Char // '\n' ∉ text}

/-- What a worktree has checked out. -/
inductive Checkout where
  | branch (head reference : Line)
  | detached (head : Line)
  | bare

/-- A worktree as git knows it. -/
structure WorktreeRecord where
  path : Line
  checkout : Checkout
  /-- Why it is locked, if it is; the reason may be empty. -/
  locked : Option Line
  /-- Why it can be pruned, if it can. -/
  prunable : Option Line

/-- Lines about the head. -/
def Checkout.lines : Checkout → List (List Char)
  | .branch head reference => ["HEAD ".toList ++ head, "branch ".toList ++ reference]
  | .detached head => ["HEAD ".toList ++ head, "detached".toList]
  | .bare => ["bare".toList]

/-- The line about a lock. -/
def lockedLine (reason : List Char) : List Char :=
  if reason = [] then "locked".toList else "locked ".toList ++ reason

/-- The lines of a record, without the empty one. -/
def WorktreeRecord.lines (record : WorktreeRecord) : List (List Char) :=
  ("worktree ".toList ++ record.path) :: (record.checkout.lines ++
    ((record.locked.map fun reason => lockedLine reason.1).toList ++
      (record.prunable.map fun reason => "prunable ".toList ++ reason.1).toList))

/-- Lines with their ends. -/
def printLines (lines : List (List Char)) : List Char := lines.flatMap (· ++ ['\n'])

/-- What git prints. -/
def porcelain (records : List WorktreeRecord) : List Char :=
  printLines (records.flatMap fun record => record.lines ++ [[]])

end Printing

section Statements

/-- Name of the branch of a reference. -/
def branchName (reference : List Char) : List Char :=
  if "refs/heads/".toList <+: reference then reference.drop "refs/heads/".toList.length
  else reference

/-- The branch, if one is checked out. -/
def Checkout.branchName : Checkout → Option (List Char)
  | .branch _ reference => some (WorktreeList.branchName reference)
  | _ => none

/-- The head, if there is one. -/
def Checkout.head : Checkout → Option (List Char)
  | .branch head _ => some head
  | .detached head => some head
  | .bare => none

/-- An entry shows what a record says. -/
structure Shows (record : WorktreeRecord) (info : WorktreeInfo) : Prop where
  path : info.path = record.path
  branch : info.branch = record.checkout.branchName
  head : ∀ head, record.checkout.head = some head → info.head = head

/-- There is one entry for each record, in order, and the first one only is the main
worktree. -/
structure ShowsAll (records : List WorktreeRecord) (infos : List WorktreeInfo) : Prop where
  each : List.Forall₂ Shows records infos
  main : ∀ i info, infos[i]? = some info → (info.isMain = true ↔ i = 0)

/-- The record is that of a bare worktree. -/
def IsBare (record : WorktreeRecord) : Prop := record.checkout = .bare

end Statements

section Lines

variable {collected : Collected} {front line rest : List Char}

theorem stripPrefix_append (front rest : List Char) : stripPrefix front (front ++ rest) = some rest := by
  rw [stripPrefix, if_pos (List.prefix_append front rest), List.drop_left]

/-- A line that starts with another character does not have a prefix. -/
theorem stripPrefix_of_head {c c' : Char} (hfront : front.head? = some c)
    (hline : line.head? = some c') (hne : c ≠ c') : stripPrefix front line = none := by
  refine if_neg fun hprefix => hne ?_
  obtain ⟨rest, rfl⟩ := hprefix
  rw [List.head?_append, hfront] at hline
  exact Option.some.inj hline

theorem head?_append_of_some {c : Char} (h : front.head? = some c) (rest : List Char) :
    (front ++ rest).head? = some c := by
  rw [List.head?_append, h]
  rfl

theorem collectLine_worktree (path : List Char) : collectLine collected ("worktree ".toList ++ path) =
    ⟨collected.pushed, ⟨some path, some none, none, false⟩⟩ := by
  rw [collectLine, stripPrefix_append]

theorem collectLine_head (head : List Char) : collectLine collected ("HEAD ".toList ++ head) =
    { collected with current := { collected.current with head := some head } } := by
  have hfirst : ("HEAD ".toList ++ head).head? = some 'H' := head?_append_of_some rfl head
  rw [collectLine, stripPrefix_of_head rfl hfirst (by decide), stripPrefix_append]

theorem collectLine_branch (reference : List Char) :
    collectLine collected ("branch ".toList ++ reference) =
      { collected with
        current := { collected.current with branch := some (some (branchName reference)) } } := by
  have hfirst : ("branch ".toList ++ reference).head? = some 'b' := head?_append_of_some rfl reference
  have hname : (stripPrefix "refs/heads/".toList reference).getD reference = branchName reference := by
    unfold stripPrefix branchName
    split
    · rfl
    · rfl
  rw [collectLine, stripPrefix_of_head rfl hfirst (by decide),
    stripPrefix_of_head rfl hfirst (by decide), stripPrefix_append]
  dsimp only
  rw [hname]

theorem collectLine_detached : collectLine collected "detached".toList = collected := by
  have hno : ∀ front ∈ ["worktree ".toList, "HEAD ".toList, "branch ".toList],
      stripPrefix front "detached".toList = none := by decide
  rw [collectLine, hno _ (by decide), hno _ (by decide), hno _ (by decide)]
  exact if_pos rfl

theorem collectLine_bare : collectLine collected "bare".toList =
    { collected with current := { collected.current with isMain := true } } := by
  have hno : ∀ front ∈ ["worktree ".toList, "HEAD ".toList, "branch ".toList],
      stripPrefix front "bare".toList = none := by decide
  rw [collectLine, hno _ (by decide), hno _ (by decide), hno _ (by decide)]
  dsimp only
  rw [if_neg (by decide), if_pos rfl]

theorem collectLine_empty : collectLine collected [] = ⟨collected.pushed, .unset⟩ := by
  have hno : ∀ front ∈ ["worktree ".toList, "HEAD ".toList, "branch ".toList],
      stripPrefix front [] = none := by decide
  rw [collectLine, hno _ (by decide), hno _ (by decide), hno _ (by decide)]
  dsimp only
  rw [if_neg (by decide), if_neg (by decide), if_pos rfl]

/-- A line that starts like none of these is passed over. -/
theorem collectLine_other {c : Char} (hline : line.head? = some c) (hc : c ∉ ['w', 'H', 'b', 'd']) :
    collectLine collected line = collected := by
  rw [List.mem_cons, List.mem_cons, List.mem_cons, List.mem_singleton, not_or, not_or, not_or] at hc
  obtain ⟨hw, hh, hb, hd⟩ := hc
  have hne : ∀ text : List Char, text.head? ≠ some c → line ≠ text := by
    rintro text htext rfl
    exact htext hline
  rw [collectLine, stripPrefix_of_head rfl hline (Ne.symm hw),
    stripPrefix_of_head rfl hline (Ne.symm hh), stripPrefix_of_head rfl hline (Ne.symm hb)]
  dsimp only
  rw [if_neg (hne "detached".toList fun h => hd (Option.some.inj h).symm),
    if_neg (hne "bare".toList fun h => hb (Option.some.inj h).symm),
    if_neg (hne [] (Option.some_ne_none c).symm)]

end Lines

section Records

variable {worktrees : List WorktreeInfo}

/-- The entry that a record leaves. -/
def entry (record : WorktreeRecord) : Option WorktreeInfo :=
  match record.checkout with
  | .branch head reference => some ⟨record.path, some (branchName reference), head, false⟩
  | .detached head => some ⟨record.path, none, head, false⟩
  | .bare => none

theorem foldl_lockedLine (reason : Option Line) (collected : Collected) :
    (reason.map fun reason => lockedLine reason.1).toList.foldl collectLine collected = collected := by
  cases reason with
  | none => rfl
  | some reason =>
    have hfirst : (lockedLine reason.1).head? = some 'l' := by
      unfold lockedLine
      split
      · rfl
      · exact head?_append_of_some rfl reason.1
    exact collectLine_other hfirst (by decide)

theorem foldl_prunable (reason : Option Line) (collected : Collected) :
    (reason.map fun reason => "prunable ".toList ++ reason.1).toList.foldl collectLine collected =
      collected := by
  cases reason with
  | none => rfl
  | some reason =>
    have hfirst : ("prunable ".toList ++ reason.1).head? = some 'p' :=
      head?_append_of_some rfl reason.1
    exact collectLine_other hfirst (by decide)

/-- What the lines about the head make of an entry. -/
def Checkout.collected : Checkout → PartialWorktree → PartialWorktree
  | .branch head reference, current =>
    { current with head := some head, branch := some (some (WorktreeList.branchName reference)) }
  | .detached head, current => { current with head := some head }
  | .bare, current => { current with isMain := true }

theorem foldl_checkout (checkout : Checkout) (current : PartialWorktree) :
    checkout.lines.foldl collectLine ⟨worktrees, current⟩ =
      ⟨worktrees, checkout.collected current⟩ := by
  cases checkout with
  | branch head reference =>
    rw [Checkout.lines, List.foldl_cons, List.foldl_cons, List.foldl_nil, collectLine_head,
      collectLine_branch]
    rfl
  | detached head =>
    rw [Checkout.lines, List.foldl_cons, List.foldl_cons, List.foldl_nil, collectLine_head,
      collectLine_detached]
    rfl
  | bare =>
    rw [Checkout.lines, List.foldl_cons, List.foldl_nil, collectLine_bare]
    rfl

/-- The lines of a record leave its entry. -/
theorem foldl_record (record : WorktreeRecord) :
    (record.lines ++ [[]]).foldl collectLine ⟨worktrees, .unset⟩ =
      ⟨worktrees ++ (entry record).toList, .unset⟩ := by
  have hlines : record.lines.foldl collectLine ⟨worktrees, .unset⟩ =
      ⟨worktrees, record.checkout.collected ⟨some record.path, some none, none, false⟩⟩ := by
    have hnone : (⟨worktrees, .unset⟩ : Collected).pushed = worktrees := List.append_nil worktrees
    rw [WorktreeRecord.lines, List.foldl_cons, collectLine_worktree, hnone, List.foldl_append,
      List.foldl_append, foldl_checkout, foldl_lockedLine, foldl_prunable]
  rw [List.foldl_append, hlines, List.foldl_cons, List.foldl_nil, collectLine_empty, entry]
  cases record.checkout with
  | _ => rfl

/-- The lines of all records leave their entries. -/
theorem foldl_records (records : List WorktreeRecord) :
    (records.flatMap fun record => record.lines ++ [[]]).foldl collectLine ⟨worktrees, .unset⟩ =
      ⟨worktrees ++ records.filterMap entry, .unset⟩ := by
  induction records generalizing worktrees with
  | nil => rw [List.flatMap_nil, List.foldl_nil, List.filterMap_nil, List.append_nil]
  | cons record records ih =>
    rw [List.flatMap_cons, List.foldl_append, foldl_record, ih, List.append_assoc]
    cases hentry : entry record with
    | none => rw [List.filterMap_cons_none hentry, Option.toList_none, List.nil_append]
    | some info => rw [List.filterMap_cons_some hentry, Option.toList_some, List.singleton_append]

/-- Lines that were printed are split again, with an empty one behind them. -/
theorem splitOn_printLines {lines : List (List Char)} (h : ∀ line ∈ lines, '\n' ∉ line) :
    (printLines lines).splitOn '\n' = lines ++ [[]] := by
  induction lines with
  | nil => rfl
  | cons line lines ih =>
    have hcons : printLines (line :: lines) = line ++ '\n' :: printLines lines := by
      rw [printLines, List.flatMap_cons, List.append_assoc]
      rfl
    rw [hcons, List.splitOn_append_cons_self_of_not_mem (h line List.mem_cons_self),
      ih fun other hother => h other (List.mem_cons_of_mem line hother), List.cons_append]

theorem notMem_append {front rest : List Char} (hfront : '\n' ∉ front) (hrest : '\n' ∉ rest) :
    '\n' ∉ front ++ rest := by
  rw [List.mem_append, not_or]
  exact ⟨hfront, hrest⟩

/-- No line of a record holds a line end. -/
theorem notMem_of_mem_lines {record : WorktreeRecord} {line : List Char}
    (h : line ∈ record.lines) : '\n' ∉ line := by
  rw [WorktreeRecord.lines, List.mem_cons, List.mem_append, List.mem_append] at h
  rcases h with rfl | hcheckout | hlocked | hprunable
  · exact notMem_append (by decide) record.path.2
  · cases hc : record.checkout with
    | branch head reference =>
      rw [hc, Checkout.lines, List.mem_cons, List.mem_singleton] at hcheckout
      rcases hcheckout with rfl | rfl
      · exact notMem_append (by decide) head.2
      · exact notMem_append (by decide) reference.2
    | detached head =>
      rw [hc, Checkout.lines, List.mem_cons, List.mem_singleton] at hcheckout
      rcases hcheckout with rfl | rfl
      · exact notMem_append (by decide) head.2
      · decide
    | bare =>
      rw [hc, Checkout.lines, List.mem_singleton] at hcheckout
      rw [hcheckout]
      decide
  · rw [Option.mem_toList, Option.map_eq_some_iff] at hlocked
    obtain ⟨reason, -, rfl⟩ := hlocked
    unfold lockedLine
    split
    · decide
    · exact notMem_append (by decide) reason.2
  · rw [Option.mem_toList, Option.map_eq_some_iff] at hprunable
    obtain ⟨reason, -, rfl⟩ := hprunable
    exact notMem_append (by decide) reason.2

/-- What is printed for a worktree is not blank. -/
theorem trim_porcelain_ne_nil (record : WorktreeRecord) (records : List WorktreeRecord) :
    trim (porcelain (record :: records)) ≠ [] := by
  obtain ⟨rest, hrest⟩ : ∃ rest, porcelain (record :: records) = 'w' :: rest := ⟨_, rfl⟩
  rw [hrest, trim, List.dropWhile_cons_of_neg (by decide)]
  intro hnil
  have hwhite := List.rdropWhile_eq_nil_iff.mp hnil 'w' List.mem_cons_self
  exact absurd hwhite (by decide)

/-- The list holds the entries of the records. -/
theorem list_porcelain (records : List WorktreeRecord) :
    list (.finished (porcelain records)) = markMain (records.filterMap entry) := by
  cases records with
  | nil => rfl
  | cons record others =>
    have hlines : ∀ line ∈ (record :: others).flatMap fun record => record.lines ++ [[]],
        '\n' ∉ line := by
      intro line hline
      obtain ⟨found, -, hfound⟩ := List.mem_flatMap.mp hline
      rcases List.mem_append.mp hfound with hmem | hempty
      · exact notMem_of_mem_lines hmem
      · rw [List.mem_singleton.mp hempty]
        exact List.not_mem_nil
    rw [list, gitOutput]
    dsimp only
    rw [if_neg (trim_porcelain_ne_nil record others), porcelain, splitOn_printLines hlines,
      List.foldl_append, foldl_records, List.foldl_cons, List.foldl_nil, collectLine_empty]
    have hnone : PartialWorktree.unset.intoWorktreeInfo.toList = [] := rfl
    rw [Collected.pushed, Collected.pushed, hnone, List.append_nil, List.append_nil, List.nil_append]

theorem entry_isSome (record : WorktreeRecord) : (entry record).isSome = true ↔ ¬IsBare record := by
  unfold entry IsBare
  cases record.checkout with
  | branch head reference => exact iff_of_true rfl Checkout.noConfusion
  | detached head => exact iff_of_true rfl Checkout.noConfusion
  | bare => exact iff_of_false Bool.false_ne_true fun h => h rfl

theorem shows_entry {record : WorktreeRecord} {info : WorktreeInfo} (h : entry record = some info) :
    Shows record info ∧ info.isMain = false := by
  unfold entry at h
  cases hc : record.checkout with
  | branch head reference =>
    rw [hc] at h
    obtain rfl := Option.some.inj h
    exact ⟨⟨rfl, by rw [hc]; rfl, fun other hother => by rw [hc] at hother; exact Option.some.inj hother⟩, rfl⟩
  | detached head =>
    rw [hc] at h
    obtain rfl := Option.some.inj h
    exact ⟨⟨rfl, by rw [hc]; rfl, fun other hother => by rw [hc] at hother; exact Option.some.inj hother⟩, rfl⟩
  | bare =>
    rw [hc] at h
    contradiction

/-- Without bare worktrees each record has its entry. -/
theorem shows_filterMap {records : List WorktreeRecord} (h : ∀ record ∈ records, ¬IsBare record) :
    List.Forall₂ Shows records (records.filterMap entry) := by
  induction records with
  | nil => exact List.Forall₂.nil
  | cons record records ih =>
    obtain ⟨info, hinfo⟩ := Option.isSome_iff_exists.mp
      ((entry_isSome record).mpr (h record List.mem_cons_self))
    rw [List.filterMap_cons_some hinfo]
    exact .cons (shows_entry hinfo).1 (ih fun other hother => h other (List.mem_cons_of_mem record hother))

theorem length_markMain (infos : List WorktreeInfo) : (markMain infos).length = infos.length := by
  cases infos with
  | nil => rfl
  | cons first others =>
    rw [markMain]
    split
    · rfl
    · rfl

/-- Entries of which none is the main worktree show it when the first is marked. -/
theorem showsAll_markMain {records : List WorktreeRecord} {infos : List WorktreeInfo}
    (heach : List.Forall₂ Shows records infos) (hnone : ∀ info ∈ infos, info.isMain = false) :
    ShowsAll records (markMain infos) := by
  cases heach with
  | nil => exact ⟨.nil, fun i info hinfo => absurd hinfo (Option.some_ne_none info).symm⟩
  | @cons record first records others hfirst hothers =>
    have hany : ¬(first :: others).any WorktreeInfo.isMain = true := by
      rw [List.any_eq_true]
      rintro ⟨info, hinfo, hmain⟩
      exact Bool.false_ne_true ((hnone info hinfo).symm.trans hmain)
    rw [markMain, if_neg hany]
    refine ⟨.cons ⟨hfirst.path, hfirst.branch, hfirst.head⟩ hothers, fun i info hinfo => ?_⟩
    cases i with
    | zero =>
      obtain rfl := Option.some.inj hinfo
      exact iff_of_true rfl rfl
    | succ i =>
      have hother := hnone info (List.mem_cons_of_mem first (List.mem_of_getElem? hinfo))
      exact iff_of_false (hother ▸ Bool.false_ne_true) (Nat.succ_ne_zero i)

/-- The list shows every worktree exactly when none is bare. -/
theorem list_shows_all_iff (records : List WorktreeRecord) :
    ShowsAll records (list (.finished (porcelain records))) ↔ ∀ record ∈ records, ¬IsBare record := by
  rw [list_porcelain]
  constructor
  · intro h record hrecord
    have hlength := h.each.length_eq
    rw [length_markMain] at hlength
    exact (entry_isSome record).mp (List.filterMap_length_eq_length.mp hlength.symm record hrecord)
  · intro h
    have heach := shows_filterMap h
    have hnone : ∀ info ∈ records.filterMap entry, info.isMain = false := by
      intro info hinfo
      obtain ⟨record, -, hentry⟩ := List.mem_filterMap.mp hinfo
      exact (shows_entry hentry).2
    exact showsAll_markMain heach hnone

/-- A linked worktree on a branch. -/
def linkedRecord : WorktreeRecord :=
  ⟨⟨"/w/wt".toList, by decide⟩,
    .branch ⟨"0a1b".toList, by decide⟩ ⟨"refs/heads/topic".toList, by decide⟩, none, none⟩

/-- The record of a bare repository. -/
def bareRecord : WorktreeRecord := ⟨⟨"/w/repo.git".toList, by decide⟩, .bare, none, none⟩

/-- A bare repository is left out, and its linked worktree is called the main one. -/
theorem list_drops_bare :
    list (.finished (porcelain [bareRecord, linkedRecord])) =
        [⟨"/w/wt".toList, some "topic".toList, "0a1b".toList, true⟩] ∧
      ¬ShowsAll [bareRecord, linkedRecord]
        (list (.finished (porcelain [bareRecord, linkedRecord]))) := by
  have hlist : list (.finished (porcelain [bareRecord, linkedRecord])) =
      [⟨"/w/wt".toList, some "topic".toList, "0a1b".toList, true⟩] := by decide +kernel
  refine ⟨hlist, fun h => ?_⟩
  have hlength := h.each.length_eq
  rw [hlist] at hlength
  contradiction

end Records

end Teleprompter.WorktreeList
