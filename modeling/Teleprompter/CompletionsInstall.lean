import Teleprompter.MarkedTexts
import Teleprompter.StepRuns

/-!
# Completion blocks in shell startup files

Installing writes a marked block behind the user's lines, and stripping takes out
from the first start marker to the next stop marker behind it, with one newline on
each side. It keeps the other lines where these are the markers of one block and
the newlines are the block's own.
-/

namespace Teleprompter.CompletionsInstall

open TextLines MarkedTexts MarkedTexts.Markers StepRuns

section Model

def markerStart : List Char :=
  "# >>> tp completions (managed by `tp completions install`) >>>".toList

def markerEnd : List Char := "# <<< tp completions <<<".toList

/-- The shells whose startup file holds the block. -/
inductive Shell where
  | bash
  | zsh

def Shell.name : Shell → String
  | bash => "bash"
  | zsh => "zsh"

structure InstallOpts where
  shell : Shell
  home : String
  force : Bool
  dryRun : Bool

inductive InstallResult where
  | installed (file : String)
  | alreadyInstalled (file : String)
  | dryRun (plan : String)
  deriving DecidableEq

inductive UninstallResult where
  | uninstalled (file : String)
  | notInstalled
  | dryRun (plan : String)
  deriving DecidableEq

def rcFilePath (shell : Shell) (home : String) : String :=
  match shell with
  | .bash => home ++ "/.bashrc"
  | .zsh => home ++ "/.zshrc"

def markerBlock (line : List Char) : List Char :=
  '\n' :: (markerStart ++ ('\n' :: (line ++ ('\n' :: (markerEnd ++ ['\n'])))))

def containsMarker (contents : List Char) : Bool := (findFirst markerStart contents).isSome

/-- Take out the first start marker with what is behind it up to the next stop marker,
and one newline on each side. -/
def stripFirstMarkerBlock (contents : List Char) : List Char :=
  match findFirst markerStart contents with
  | none => contents
  | some (before, afterStart) =>
    match findFirst markerEnd afterStart with
    | none => contents
    | some (_, behind) => dropLast '\n' before ++ dropFirst '\n' behind

/-- The loop of stripping with a bound on its passes. -/
def stripFrom : ℕ → List Char → List Char
  | 0, out => out
  | n + 1, out =>
    if containsMarker out = true then
      let stripped := stripFirstMarkerBlock out
      if stripped.length = out.length then out else stripFrom n stripped
    else out

def stripMarkerBlock (contents : List Char) : List Char := stripFrom contents.length contents

/-- The line of the block. -/
def completionLine (shell : Shell) : List Char :=
  "eval \"$(tp completions ".toList ++ shell.name.toList ++ ")\"".toList

/-- A text with the block behind it, on a line of its own. -/
def appendBlock (base line : List Char) : List Char :=
  (if base = [] ∨ base.getLast? = some '\n' then base else base ++ ['\n']) ++ markerBlock line

/-- Installing, from the file's text, where there is one. -/
def installRcLine (opts : InstallOpts) (rc : Option (List Char)) :
    InstallResult × Option (List Char) :=
  let file := rcFilePath opts.shell opts.home
  let existing := rc.getD []
  let hasMarker := containsMarker existing
  if opts.dryRun = true then
    let action :=
      if hasMarker = true ∧ opts.force = false then "Would skip (already installed)"
      else if hasMarker = true then "Would rewrite tp completions block in"
      else "Would append tp completions block to"
    (.dryRun (action ++ " " ++ file), rc)
  else if hasMarker = true ∧ opts.force = false then (.alreadyInstalled file, rc)
  else
    let base := if hasMarker = true then stripMarkerBlock existing else existing
    (.installed file, some (appendBlock base (completionLine opts.shell)))

def uninstallCompletion (opts : InstallOpts) (rc : Option (List Char)) :
    UninstallResult × Option (List Char) :=
  let file := rcFilePath opts.shell opts.home
  match rc with
  | none => (.notInstalled, none)
  | some existing =>
    if containsMarker existing = false then (.notInstalled, some existing)
    else if opts.dryRun = true then
      (.dryRun ("Would remove tp completions block from " ++ file), some existing)
    else (.uninstalled file, some (stripMarkerBlock existing))

inductive Command where
  | install (opts : InstallOpts)
  | uninstall (opts : InstallOpts)

/-- What a command leaves in the file. -/
def step (rc : Option (List Char)) : Command → Option (List Char)
  | .install opts => (installRcLine opts rc).2
  | .uninstall opts => (uninstallCompletion opts rc).2

end Model

section Stripping

/-- The two markers of the block. -/
def markers : Markers Char where
  newline := '\n'
  head := '#'
  startTail := markerStart.tail
  stopTail := markerEnd.tail
  head_notMem_startTail := by decide
  head_notMem_stopTail := by decide
  newline_notMem_start := by decide
  newline_notMem_stop := by decide
  startTail_not_begins := by decide
  stopTail_not_begins := by decide

theorem markers_start : markers.start = markerStart := by decide

theorem markers_stop : markers.stop = markerEnd := by decide

/-- The command takes blocks out of the file. -/
def Command.strips : Command → Bool
  | .install opts => opts.force && !opts.dryRun
  | .uninstall opts => !opts.dryRun

/-- The blocks of a file that a command takes blocks out of can be taken out without
their neighbours. -/
def StripsBlocksOnly (rc : Option (List Char)) (command : Command) : Prop :=
  command.strips = true → markers.Joints true (markers.pieces (rc.getD []))

theorem containsMarker_eq_false {contents : List Char} :
    containsMarker contents = false ↔ ¬ markers.start <:+: contents := by
  rw [markers_start, ← findFirst_eq_none (by decide), containsMarker]
  cases findFirst markerStart contents <;> simp

theorem stripFirstMarkerBlock_of_append {front middle : List Char} (rest : List Char)
    (hfront : ¬ markers.start <:+: front) (hmiddle : ¬ markers.stop <:+: middle) :
    stripFirstMarkerBlock (front ++ (markers.start ++ (middle ++ (markers.stop ++ rest)))) =
      dropLast '\n' front ++ dropFirst '\n' rest := by
  have hstart : findFirst markerStart
      (front ++ (markers.start ++ (middle ++ (markers.stop ++ rest)))) =
        some (front, middle ++ (markers.stop ++ rest)) :=
    markers_start ▸ findFirst_of_append markers.head_notMem_startTail _ hfront
  have hstop : findFirst markerEnd (middle ++ (markers.stop ++ rest)) = some (middle, rest) :=
    markers_stop ▸ findFirst_of_append markers.head_notMem_stopTail _ hmiddle
  rw [stripFirstMarkerBlock, hstart]
  dsimp only
  rw [hstop]

/-- Without a block there is nothing to strip. -/
theorem stripFirstMarkerBlock_of_not_hasBlock {contents : List Char}
    (h : ¬ markers.HasBlock contents) : stripFirstMarkerBlock contents = contents := by
  rw [stripFirstMarkerBlock]
  split
  · rfl
  · next before afterStart hstart =>
    have hcontents := (findFirst_eq_some hstart).1
    split
    · rfl
    · next middle behind hstop =>
      obtain ⟨rfl, -⟩ := findFirst_eq_some hstop
      rw [← markers_start, ← markers_stop] at hcontents
      refine absurd ⟨before, _, hcontents, middle, behind, ?_⟩ h
      rw [List.append_assoc]

/-- A pass that finds a block takes something out. -/
theorem length_stripFirstMarkerBlock {contents : List Char} (h : markers.HasBlock contents) :
    (stripFirstMarkerBlock contents).length < contents.length := by
  obtain ⟨front, middle, rest, rfl, hfront, hmiddle⟩ := exists_firstPair h
  have hbefore := (dropLast_begins '\n' front).length_le
  have hbehind := (dropFirst_suffix '\n' rest).length_le
  rw [stripFirstMarkerBlock_of_append rest hfront hmiddle]
  simp only [List.length_append, start, List.length_cons]
  omega

theorem containsMarker_of_hasBlock {contents : List Char} (h : markers.HasBlock contents) :
    containsMarker contents = true := by
  rw [← Bool.not_eq_false, containsMarker_eq_false, not_not]
  obtain ⟨front, rest, rfl, -⟩ := h
  exact ⟨front, rest, by rw [List.append_assoc]⟩

theorem stripFrom_of_not_hasBlock {contents : List Char} (h : ¬ markers.HasBlock contents)
    (n : ℕ) : stripFrom n contents = contents := by
  cases n with
  | zero => rfl
  | succ n =>
    rw [stripFrom, stripFirstMarkerBlock_of_not_hasBlock h]
    simp

theorem stripFrom_of_hasBlock {contents : List Char} (h : markers.HasBlock contents) (n : ℕ) :
    stripFrom (n + 1) contents = stripFrom n (stripFirstMarkerBlock contents) := by
  rw [stripFrom, if_pos (containsMarker_of_hasBlock h)]
  exact if_neg (length_stripFirstMarkerBlock h).ne

theorem stripFrom_fuel {n m : ℕ} {contents : List Char} (hn : contents.length ≤ n)
    (hm : contents.length ≤ m) : stripFrom n contents = stripFrom m contents := by
  induction n generalizing m contents with
  | zero =>
    obtain rfl := List.length_eq_zero_iff.mp (Nat.le_zero.mp hn)
    rw [stripFrom_of_not_hasBlock not_hasBlock_nil, stripFrom_of_not_hasBlock not_hasBlock_nil]
  | succ n ih =>
    by_cases h : markers.HasBlock contents
    · have hshort := length_stripFirstMarkerBlock h
      cases m with
      | zero => omega
      | succ m =>
        rw [stripFrom_of_hasBlock h, stripFrom_of_hasBlock h]
        exact ih (by omega) (by omega)
    · rw [stripFrom_of_not_hasBlock h, stripFrom_of_not_hasBlock h]

theorem stripMarkerBlock_of_not_hasBlock {contents : List Char}
    (h : ¬ markers.HasBlock contents) : stripMarkerBlock contents = contents :=
  stripFrom_of_not_hasBlock h _

theorem stripMarkerBlock_of_hasBlock {contents : List Char} (h : markers.HasBlock contents) :
    stripMarkerBlock contents = stripMarkerBlock (stripFirstMarkerBlock contents) := by
  have hshort := length_stripFirstMarkerBlock h
  rw [stripMarkerBlock, stripFrom_fuel (le_refl _) (Nat.le_succ contents.length),
    stripFrom_of_hasBlock h]
  exact stripFrom_fuel (by omega) (le_refl _)

/-- Nothing is left that could be stripped. -/
theorem not_hasBlock_stripMarkerBlock (contents : List Char) :
    ¬ markers.HasBlock (stripMarkerBlock contents) := by
  induction hn : contents.length using Nat.strong_induction_on generalizing contents with
  | _ n ih =>
    subst hn
    by_cases h : markers.HasBlock contents
    · rw [stripMarkerBlock_of_hasBlock h]
      exact ih _ (length_stripFirstMarkerBlock h) _ rfl
    · rw [stripMarkerBlock_of_not_hasBlock h]
      exact h

/-- Stripping keeps the lines outside of blocks that can be taken out. -/
theorem outside_stripMarkerBlock {contents : List Char}
    (h : markers.Joints true (markers.pieces contents)) :
    (markers.outside contents).Sublist (markers.outside (stripMarkerBlock contents)) := by
  induction hn : contents.length using Nat.strong_induction_on generalizing contents with
  | _ n ih =>
    subst hn
    by_cases hblock : markers.HasBlock contents
    · obtain ⟨front, middle, rest, hcontents, hfront, hmiddle, hjoints, hkeeps⟩ :=
        h.take_out hblock
      have hstrip : stripFirstMarkerBlock contents =
          dropLast '\n' front ++ dropFirst '\n' rest := by
        rw [hcontents, stripFirstMarkerBlock_of_append rest hfront hmiddle]
      have hshort := length_stripFirstMarkerBlock hblock
      rw [stripMarkerBlock_of_hasBlock hblock]
      rw [hstrip] at hshort ⊢
      exact hkeeps.trans (ih _ hshort hjoints rfl)
    · rw [stripMarkerBlock_of_not_hasBlock hblock]

end Stripping

section Commands

/-- A base that ends its line. -/
def closedBase (base : List Char) : List Char :=
  if base = [] ∨ base.getLast? = some '\n' then base else base ++ ['\n']

theorem appendBlock_eq (base line : List Char) : appendBlock base line =
    closedBase base ++ ['\n'] ++
      (markers.start ++ ('\n' :: (line ++ ['\n']) ++ (markers.stop ++ ['\n']))) := by
  rw [appendBlock, markerBlock, ← closedBase, markers_start, markers_stop]
  simp

theorem closed_closedBase (base : List Char) : Closed markers.newline (closedBase base) := by
  rw [closedBase]
  split
  · next h =>
    exact h.imp_right fun hlast => ⟨base.dropLast, List.dropLast_append_getLast? _ hlast⟩
  · exact .inr (List.suffix_append _ _)

theorem lines_closedBase (base : List Char) :
    lines markers.newline (closedBase base) = lines markers.newline base := by
  rw [closedBase]
  split
  · rfl
  · next h => exact lines_append_newline (not_or.mp h).2 (not_or.mp h).1

theorem not_hasBlock_closedBase {base : List Char} (h : ¬ markers.HasBlock base) :
    ¬ markers.HasBlock (closedBase base) := by
  rw [closedBase]
  split
  · exact h
  · exact not_hasBlock_newline h

/-- The line of the block has no marker. -/
theorem completionLine_unmarked (shell : Shell) :
    ¬ markers.start <:+: '\n' :: (completionLine shell ++ ['\n']) ∧
      ¬ markers.stop <:+: '\n' :: (completionLine shell ++ ['\n']) := by
  have hhead : '#' ∉ '\n' :: (completionLine shell ++ ['\n']) := by
    cases shell <;> decide
  exact ⟨fun h => hhead (h.subset List.mem_cons_self), fun h => hhead (h.subset List.mem_cons_self)⟩

/-- An installed block is the only one behind a text without one. -/
theorem pieces_appendBlock {base : List Char} (h : ¬ markers.HasBlock base) (shell : Shell) :
    markers.pieces (appendBlock base (completionLine shell)) =
      [closedBase base ++ ['\n'], ['\n']] := by
  rw [appendBlock_eq]
  exact pieces_appended (not_hasBlock_closedBase h) (completionLine_unmarked shell).1
    (completionLine_unmarked shell).2

theorem outside_appendBlock {base : List Char} (h : ¬ markers.HasBlock base) (shell : Shell) :
    markers.outside (appendBlock base (completionLine shell)) = markers.outside base := by
  rw [appendBlock_eq, outside_of_not_hasBlock h, ← lines_closedBase]
  exact outside_appended (not_hasBlock_closedBase h) (closed_closedBase base)
    (completionLine_unmarked shell).1 (completionLine_unmarked shell).2

theorem stripMarkerBlock_of_containsMarker_false {contents : List Char}
    (h : containsMarker contents = false) : stripMarkerBlock contents = contents :=
  stripMarkerBlock_of_not_hasBlock (not_hasBlock_of_start (containsMarker_eq_false.mp h))

/-- A start marker that is found behind the base was in it. -/
theorem start_not_infix_closedBase {base : List Char} (h : ¬ markers.start <:+: base) :
    ¬ markers.start <:+: closedBase base := by
  rw [closedBase]
  split
  · exact h
  · exact fun hin => h (infix_append_newline markers.newline_notMem_start hin)

theorem stripMarkerBlock_appendBlock {base : List Char} (h : containsMarker base = false)
    (shell : Shell) :
    stripMarkerBlock (appendBlock base (completionLine shell)) = closedBase base := by
  have hbase := start_not_infix_closedBase (containsMarker_eq_false.mp h)
  have hfront : ¬ markers.start <:+: closedBase base ++ ['\n'] :=
    fun hin => hbase (infix_append_newline markers.newline_notMem_start hin)
  have hblock : markers.HasBlock (appendBlock base (completionLine shell)) := by
    rw [appendBlock_eq]
    refine ⟨_, _, rfl, '\n' :: (completionLine shell ++ ['\n']), ['\n'], ?_⟩
    rw [List.append_assoc]
  have hdrop : dropLast '\n' (closedBase base ++ ['\n']) = closedBase base := by simp [dropLast]
  have hfirst : stripFirstMarkerBlock (appendBlock base (completionLine shell)) =
      closedBase base := by
    rw [appendBlock_eq, stripFirstMarkerBlock_of_append _ hfront (completionLine_unmarked shell).2,
      hdrop]
    exact List.append_nil _
  rw [stripMarkerBlock_of_hasBlock hblock, hfirst]
  exact stripMarkerBlock_of_not_hasBlock (not_hasBlock_of_start hbase)

/-- Installing changes nothing, or appends a block to what stripping leaves. -/
theorem step_install_cases (opts : InstallOpts) (rc : Option (List Char)) :
    step rc (.install opts) = rc ∨ step rc (.install opts) = some (appendBlock
      (stripMarkerBlock (rc.getD [])) (completionLine opts.shell)) ∧ opts.dryRun = false ∧
        (containsMarker (rc.getD []) = false ∨ opts.force = true) := by
  rw [step, installRcLine]
  dsimp only
  by_cases hdry : opts.dryRun = true
  · rw [if_pos hdry]
    exact .inl rfl
  rw [if_neg hdry]
  by_cases hskip : containsMarker (rc.getD []) = true ∧ opts.force = false
  · rw [if_pos hskip]
    exact .inl rfl
  rw [if_neg hskip]
  rw [Bool.not_eq_true] at hdry
  refine .inr ⟨?_, hdry, ?_⟩
  · split
    · rfl
    · next h => rw [stripMarkerBlock_of_containsMarker_false (Bool.not_eq_true _ ▸ h)]
  · cases hmarker : containsMarker (rc.getD []) with
    | false => exact .inl rfl
    | true => exact .inr (Bool.not_eq_false _ ▸ fun hforce => hskip ⟨hmarker, hforce⟩)

/-- Uninstalling changes nothing or strips. -/
theorem step_uninstall_cases (opts : InstallOpts) (rc : Option (List Char)) :
    step rc (.uninstall opts) = rc ∨
      step rc (.uninstall opts) = some (stripMarkerBlock (rc.getD [])) ∧ opts.dryRun = false := by
  cases rc with
  | none => exact .inl rfl
  | some existing =>
    rw [step, uninstallCompletion]
    split
    · exact .inl rfl
    · split
      · exact .inl rfl
      · next hdry => exact .inr ⟨rfl, Bool.not_eq_true _ ▸ hdry⟩

/-- A command keeps the lines outside of the blocks. -/
theorem outside_step {rc : Option (List Char)} {command : Command}
    (h : StripsBlocksOnly rc command) :
    (markers.outside (rc.getD [])).Sublist (markers.outside ((step rc command).getD [])) := by
  cases command with
  | install opts =>
    obtain hsame | ⟨hstep, hdry, hforce⟩ := step_install_cases opts rc
    · rw [hsame]
    · rw [hstep, Option.getD_some, outside_appendBlock (not_hasBlock_stripMarkerBlock _)]
      obtain hmarker | hforce := hforce
      · rw [stripMarkerBlock_of_containsMarker_false hmarker]
      · exact outside_stripMarkerBlock (h (by rw [Command.strips, hforce, hdry]; rfl))
  | uninstall opts =>
    obtain hsame | ⟨hstep, hdry⟩ := step_uninstall_cases opts rc
    · rw [hsame]
    · rw [hstep, Option.getD_some]
      exact outside_stripMarkerBlock (h (by rw [Command.strips, hdry]; rfl))

theorem step_install_of_unmarked {opts : InstallOpts} {rc : Option (List Char)}
    (hdry : opts.dryRun = false) (h : containsMarker (rc.getD []) = false) :
    step rc (.install opts) = some (appendBlock (rc.getD []) (completionLine opts.shell)) := by
  rw [step, installRcLine]
  simp [hdry, h]

theorem step_install_of_force {opts : InstallOpts} {rc : Option (List Char)}
    (hdry : opts.dryRun = false) (hforce : opts.force = true) :
    step rc (.install opts) = some (appendBlock (stripMarkerBlock (rc.getD []))
      (completionLine opts.shell)) := by
  rw [step, installRcLine]
  cases hmarker : containsMarker (rc.getD []) with
  | true => simp [hdry, hforce]
  | false => simp [hdry, stripMarkerBlock_of_containsMarker_false hmarker]

/-- Uninstalling behind an installation leaves the text with its last line ended. -/
theorem step_uninstall_install {first second : InstallOpts} {rc : Option (List Char)}
    (hfirst : first.dryRun = false) (hsecond : second.dryRun = false)
    (h : containsMarker (rc.getD []) = false) :
    step (step rc (.install first)) (.uninstall second) = some (closedBase (rc.getD [])) := by
  have hmarker : containsMarker (appendBlock (rc.getD []) (completionLine first.shell)) = true := by
    refine containsMarker_of_hasBlock ?_
    rw [appendBlock_eq]
    refine ⟨_, _, rfl, '\n' :: (completionLine first.shell ++ ['\n']), ['\n'], ?_⟩
    rw [List.append_assoc]
  rw [step_install_of_unmarked hfirst h, step, uninstallCompletion]
  simp [hmarker, hsecond, stripMarkerBlock_appendBlock h]

end Commands

/-- In every run whose commands take out nothing but blocks of their own, the lines outside
of the blocks stay. Uninstalling restores a text that was unmarked, up to a newline at its
end, and a forced installation leaves one block. -/
theorem rcFile_keeps_lines (rc : Option (List Char)) :
    (∀ commands, Meets step StripsBlocksOnly rc commands →
      (markers.outside (rc.getD [])).Sublist
        (lines '\n' ((runFrom step rc commands).getD []))) ∧
    (∀ first second : InstallOpts, first.dryRun = false → second.dryRun = false →
      containsMarker (rc.getD []) = false →
      ∃ last, (last = [] ∨ last = ['\n']) ∧
        step (step rc (.install first)) (.uninstall second) = some (rc.getD [] ++ last)) ∧
    ∀ opts : InstallOpts, opts.force = true → opts.dryRun = false →
      markers.blockCount ((step rc (.install opts)).getD []) = 1 := by
  refine ⟨fun commands hruns => ?_, fun first second hfirst hsecond h => ?_,
    fun opts hforce hdry => ?_⟩
  · refine List.Sublist.trans ?_ (outside_sublist_lines (k := markers) _)
    exact @runFrom_induction_of_meets _ _ step StripsBlocksOnly
      (fun reached => (markers.outside (rc.getD [])).Sublist
        (markers.outside (reached.getD [])))
      (fun _ _ hkept hstrips => hkept.trans (outside_step hstrips)) rc (List.Sublist.refl _)
      commands hruns
  · rw [step_uninstall_install hfirst hsecond h, closedBase]
    split
    · exact ⟨[], .inl rfl, by rw [List.append_nil]⟩
    · exact ⟨['\n'], .inr rfl, rfl⟩
  · rw [step_install_of_force hdry hforce, Option.getD_some, blockCount,
      pieces_appendBlock (not_hasBlock_stripMarkerBlock _)]
    rfl

/-- Options of the runs below. -/
def bashOpts (force : Bool) : InstallOpts := ⟨.bash, "/home/u", force, false⟩

/-- A run whose last command takes the block out that its first one has installed. -/
theorem rcFile_keeps_lines_sample :
    (markers.outside "export A=1\n".toList).Sublist
      (lines '\n' ((runFrom step (some "export A=1\n".toList)
        [.install (bashOpts false), .uninstall (bashOpts false)]).getD [])) := by
  refine (rcFile_keeps_lines (some "export A=1\n".toList)).1
    [.install (bashOpts false), .uninstall (bashOpts false)]
    ⟨fun hstrips => absurd hstrips (by decide), fun _ => ?_, trivial⟩
  have hpieces : markers.pieces ((step (some "export A=1\n".toList)
      (.install (bashOpts false))).getD []) = ["export A=1\n\n".toList, ['\n']] := by
    decide +kernel
  rw [hpieces]
  exact ⟨⟨by decide, .inl (.inr (by decide))⟩, trivial⟩

/-- A start marker without a stop marker, as a hand edit may leave it. -/
def orphaned : List Char := markerStart ++ "\nexport A=1\n".toList

/-- A block without an empty line in front of it. -/
def crowded : List Char :=
  "a\n".toList ++ markerStart ++ ['\n'] ++ markerEnd ++ "\nb\n".toList

/-- The next stop marker behind the orphaned start marker is that of the new block, and
what is between them goes. Without an empty line in front of the block the lines around
it become one. -/
theorem rcFile_loses_lines :
    markers.outside orphaned = [markerStart, "export A=1".toList] ∧
      runFrom step (some orphaned) [.install (bashOpts true), .uninstall (bashOpts false)] =
        some [] ∧
      ¬ (markers.outside orphaned).Sublist (lines '\n' ((runFrom step (some orphaned)
        [.install (bashOpts true), .uninstall (bashOpts false)]).getD [])) ∧
      markers.outside crowded = [['a'], ['b']] ∧
      runFrom step (some crowded) [.uninstall (bashOpts false)] = some "ab\n".toList ∧
      ¬ (markers.outside crowded).Sublist
        (lines '\n' ((runFrom step (some crowded) [.uninstall (bashOpts false)]).getD [])) := by
  decide +kernel

end Teleprompter.CompletionsInstall
