import Mathlib.Data.List.TakeWhile
import Teleprompter.FallibleFiles
import Teleprompter.SessionRecords

/-!
# Upgrading an installed bundle

The upgrade backs up what it is going to replace, replaces the program and its members
one after another, and verifies the new program. When something fails it restores what
has a backup. How each operation turns out is an input.
-/

namespace Teleprompter.BundleUpgrade

open FallibleFiles
open SessionRecords (Octets)

section Model

/-- Files under the prefix, and those that were extracted from the bundle. -/
inductive Path where
  | bin (name : String)
  | libexec (name : String)
  | newBin
  | newLibexec (name : String)
  deriving DecidableEq

/-- The path of a backup; only installed files have one. -/
def Path.bak : Path → Path
  | .bin name => .bin (name ++ ".bak")
  | .libexec name => .libexec (name ++ ".bak")
  | .newBin => .newBin
  | .newLibexec name => .newLibexec name

/-- The program or one of its members. -/
inductive Place where
  | bin
  | libexec (name : String)
  deriving DecidableEq

/-- Where it is installed. -/
def Place.target : Place → Path
  | .bin => .bin "tp"
  | .libexec name => .libexec name

/-- Where it was extracted. -/
def Place.new : Place → Path
  | .bin => .newBin
  | .libexec name => .newLibexec name

/-- A file of the bundle, with how the operations on it turn out. -/
structure Member where
  /-- Where it is installed. -/
  place : Place
  /-- How the copy to the backup ends. -/
  backup : Copied Octets
  /-- How the move to its place ends. -/
  replace : Moved Octets
  /-- The backup is removed at the end. -/
  cleaned : Bool
  /-- How the move of the backup ends. -/
  restore : Moved Octets

/-- A bundle, with how the upgrade turns out. -/
structure Upgrade where
  /-- Content of the new program. -/
  binContent : Octets
  /-- Content of the other new files. -/
  content : String → Octets
  /-- It was downloaded, checked and extracted. -/
  prepared : Bool
  /-- The program. -/
  bin : Member
  /-- The other files, in order. -/
  libexec : List Member
  /-- The directories are there or were created. -/
  dirs : Bool
  /-- The restore of the program when a member cannot be replaced. -/
  inner : Moved Octets
  /-- The new program runs. -/
  verified : Bool
  /-- The program goes to its own place. -/
  bin_place : bin.place = .bin
  /-- No other file is the program. -/
  libexec_place : ∀ m ∈ libexec, ∃ name, m.place = .libexec name

def Upgrade.members (u : Upgrade) : List Member := u.bin :: u.libexec

/-- What is installed. -/
structure Tree where
  /-- Files beside the program. -/
  bin : String → Option Octets
  /-- The other installed files. -/
  libexec : String → Option Octets

/-- The installed files and the extracted ones. -/
def Upgrade.extracted (u : Upgrade) (tree : Tree) : Files Path Octets
  | .bin name => tree.bin name
  | .libexec name => tree.libexec name
  | .newBin => some u.binContent
  | .newLibexec name =>
    if .libexec name ∈ u.libexec.map Member.place then some (u.content name) else none

/-- Copy a file to its backup. -/
def backupBinary (o : Copied Octets) (target : Path) (files : Files Path Octets) :
    Files Path Octets × Bool :=
  copy o target target.bak files

/-- Move a backup to its file; a copied backup that cannot be removed does no harm. -/
def restoreBinary (o : Moved Octets) (target : Path) (files : Files Path Octets) :
    Files Path Octets × Bool :=
  move false o target.bak target files

/-- Remove a backup; errors are ignored. -/
def cleanupBackup (cleaned : Bool) (target : Path) (files : Files Path Octets) :
    Files Path Octets :=
  if cleaned then erase files target.bak else files

/-- Move a new file to its target. -/
def atomicReplace (o : Moved Octets) (src target : Path) (files : Files Path Octets) :
    Files Path Octets × Bool :=
  move true o src target files

/-- Back up what is there, one after another: the files, what was backed up, and whether
all went well. -/
def backups : List Member → Files Path Octets → Files Path Octets × List Member × Bool
  | [], files => (files, [], true)
  | m :: ms, files =>
    if files m.place.target = none then backups ms files
    else
      let backup := backupBinary m.backup m.place.target files
      if backup.2 then
        let rest := backups ms backup.1
        (rest.1, m :: rest.2.1, rest.2.2)
      else (backup.1, [], false)

/-- Replace one after another, until one cannot be replaced. -/
def replaces : List Member → Files Path Octets → Files Path Octets × Bool
  | [], files => (files, true)
  | m :: ms, files =>
    let replace := atomicReplace m.replace m.place.new m.place.target files
    if replace.2 then replaces ms replace.1 else replace

/-- Restore whatever has a backup: the files, and whether every attempt went well. -/
def restores : List Member → Files Path Octets → Files Path Octets × Bool
  | [], files => (files, true)
  | m :: ms, files =>
    if files m.place.target.bak = none then restores ms files
    else
      let restore := restoreBinary m.restore m.place.target files
      let rest := restores ms restore.1
      (rest.1, restore.2 && rest.2)

def cleanups (ms : List Member) (files : Files Path Octets) : Files Path Octets :=
  ms.foldl (fun files m => cleanupBackup m.cleaned m.place.target files) files

/-- What an attempt leaves to the rollback. -/
structure Attempt where
  /-- The files now. -/
  files : Files Path Octets
  /-- Backup of the program. -/
  binBak : List Member
  /-- Backups of the other files. -/
  libexecBaks : List Member
  /-- It succeeded. -/
  done : Bool
  /-- No restore was attempted in vain so far. -/
  restored : Bool

/-- The program is restored at once when a member cannot be replaced; the reference to
its backup is kept when that fails. -/
def Upgrade.innerRestore (u : Upgrade) (binBak libexecBaks : List Member)
    (files : Files Path Octets) : Attempt :=
  match binBak with
  | [] => ⟨files, [], libexecBaks, false, true⟩
  | m :: _ =>
    if files m.place.target.bak = none then ⟨files, binBak, libexecBaks, false, true⟩
    else
      let restore := restoreBinary u.inner m.place.target files
      ⟨restore.1, if restore.2 then [] else binBak, libexecBaks, false, restore.2⟩

/-- The upgrade up to its first error. -/
def Upgrade.attempt (u : Upgrade) (files : Files Path Octets) : Attempt :=
  if !u.prepared then ⟨files, [], [], false, true⟩
  else
    let bin := backups [u.bin] files
    if !bin.2.2 then ⟨bin.1, [], [], false, true⟩
    else
      let libexec := backups u.libexec bin.1
      if !libexec.2.2 || !u.dirs then ⟨libexec.1, bin.2.1, libexec.2.1, false, true⟩
      else
        let newBin := atomicReplace u.bin.replace u.bin.place.new u.bin.place.target libexec.1
        if !newBin.2 then ⟨newBin.1, bin.2.1, libexec.2.1, false, true⟩
        else
          let new := replaces u.libexec newBin.1
          if !new.2 then u.innerRestore bin.2.1 libexec.2.1 new.1
          else if !u.verified then ⟨new.1, bin.2.1, libexec.2.1, false, true⟩
          else ⟨cleanups (bin.2.1 ++ libexec.2.1) new.1, [], [], true, true⟩

/-- How an upgrade ends. -/
structure Result where
  /-- The files at the end. -/
  files : Files Path Octets
  /-- The upgrade succeeded. -/
  done : Bool
  /-- No restore was attempted in vain. -/
  restored : Bool

/-- The attempt, and the rollback after an error. -/
def upgradeTpBundle (u : Upgrade) (files : Files Path Octets) : Result :=
  let attempt := u.attempt files
  if attempt.done then ⟨attempt.files, true, true⟩
  else
    let rollback := restores (attempt.binBak ++ attempt.libexecBaks) attempt.files
    ⟨rollback.1, false, attempt.restored && rollback.2⟩

end Model

section Statement

/-- The name of a backup. -/
def IsBak (name : String) : Prop := ∃ stem, name = stem ++ ".bak"

/-- After an error whose restores succeeded everything is as before; after a success
the program and the members are the bundle's, the other files are as before, and what was
replaced has no backup. Backups of other files do not count. -/
def AllOrNothing (u : Upgrade) (tree : Tree) : Prop :=
  let before := u.extracted tree
  let result := upgradeTpBundle u before
  if result.done then
    result.files (.bin "tp") = some u.binContent ∧
      (∀ name, ¬IsBak name → result.files (.libexec name) =
        if .libexec name ∈ u.libexec.map Member.place then some (u.content name)
        else tree.libexec name) ∧
      ∀ m ∈ u.members, before m.place.target ≠ none → result.files m.place.target.bak = none
  else result.restored →
    result.files (.bin "tp") = tree.bin "tp" ∧
      ∀ name, ¬IsBak name → result.files (.libexec name) = tree.libexec name

/-- The members that are there when it is their turn to be backed up, given what is
there at first: a backup may have the name of a member behind it. -/
def found : (Path → Bool) → List Member → List Member
  | _, [] => []
  | there, m :: ms =>
    if there m.place.target then m :: found (fun p => there p || p = m.place.target.bak) ms
    else found there ms

/-- The members that the upgrade finds, if it comes to them. -/
def Upgrade.found (u : Upgrade) (before : Files Path Octets) : List Member :=
  if u.prepared then BundleUpgrade.found (fun p => (before p).isSome) u.members else []

/-- The members that are backed up, until a backup fails. -/
def Upgrade.backed (u : Upgrade) (before : Files Path Octets) : List Member :=
  (u.found before).takeWhile fun m => m.backup.succeeds

/-- The member whose backup fails. -/
def Upgrade.broken (u : Upgrade) (before : Files Path Octets) : Option Member :=
  (u.found before).find? fun m => !m.backup.succeeds

/-- The upgrade gets as far as its first replacement. -/
def Upgrade.begins (u : Upgrade) (before : Files Path Octets) : Prop :=
  u.prepared ∧ (∀ m ∈ u.found before, m.backup.succeeds) ∧ u.dirs

/-- The upgrade succeeds. The new file of a member that is listed twice is gone at the
second time. -/
def Upgrade.completes (u : Upgrade) (before : Files Path Octets) : Prop :=
  u.begins before ∧
    ((u.members.map Member.place).Nodup ∧ ∀ m ∈ u.members, m.replace.succeeds true) ∧ u.verified

/-- The members that something was put in place of, when one after another is replaced
until one fails. The new files of some places are gone. -/
def puts : List Place → List Member → List Member
  | _, [] => []
  | gone, m :: ms =>
    if m.place ∈ gone then []
    else if m.replace.succeeds true then m :: puts (m.place :: gone) ms
    else if m.replace.leaves then [m]
    else []

/-- Backups do not count. -/
def Place.counts : Place → Prop
  | .bin => True
  | .libexec name => ¬IsBak name

/-- What an upgrade that fails restores is restored from its own backup. -/
structure Upgrade.Clear (u : Upgrade) (before : Files Path Octets) : Prop where
  /-- No member that is named like the backup of a later one is restored before it. -/
  order : (u.backed before).Pairwise fun earlier later =>
    later.place.counts → earlier.place.target ≠ later.place.target.bak
  /-- No second backup of a member fails and leaves a part. -/
  whole : ∀ m ∈ u.broken before, m.place.counts → m.backup.leaves →
    m.place ∉ (u.backed before).map Member.place
  /-- Nothing was put in place of a backup. -/
  kept : u.begins before → ¬u.completes before → ∀ m ∈ u.backed before, m.place.counts →
    ∀ m' ∈ puts [] u.members, m'.place.target ≠ m.place.target.bak

/-- When the upgrade succeeds, the removal of each backup does; when it fails, whatever
something was put in place of had been installed before. -/
def Covered (u : Upgrade) (tree : Tree) : Prop :=
  let before := u.extracted tree
  (u.completes before → ∀ m ∈ u.members, before m.place.target ≠ none → m.cleaned) ∧
    (¬u.completes before → u.begins before →
      ∀ m ∈ puts [] u.members, m.place.counts → before m.place.target ≠ none)

end Statement

section Paths

/-- Places have different files. -/
theorem target_injective : Function.Injective Place.target := by
  rintro (_ | name) (_ | name') h
  · rfl
  · cases h
  · cases h
  · cases h
    rfl

/-- They have different backups. -/
theorem bak_target_injective : Function.Injective fun place : Place => place.target.bak := by
  rintro (_ | name) (_ | name') h
  · rfl
  · cases h
  · cases h
  · simp only [Place.target, Path.bak, Path.libexec.injEq, String.append_left_inj] at h
    rw [h]

theorem target_ne_new (place place' : Place) : place.target ≠ place'.new := by
  cases place <;> cases place' <;> nofun

theorem bak_ne_new (place place' : Place) : place.target.bak ≠ place'.new := by
  cases place <;> cases place' <;> nofun

/-- They are extracted to different files. -/
theorem new_injective : Function.Injective Place.new := by
  rintro (_ | name) (_ | name') h
  · rfl
  · cases h
  · cases h
  · cases h
    rfl

theorem target_ne_own_bak (place : Place) : place.target ≠ place.target.bak := by
  cases place with
  | bin => decide
  | libexec name =>
    intro h
    rw [Place.target, Path.bak, Path.libexec.injEq] at h
    have hlength := congrArg String.length h
    rw [String.length_append] at hlength
    exact absurd hlength (Nat.ne_of_lt (Nat.lt_add_of_pos_right (by decide)))

/-- What counts is no backup. -/
theorem Place.counts.ne_bak {place : Place} (h : place.counts) (place' : Place) :
    place.target ≠ place'.target.bak := by
  cases place with
  | bin =>
    cases place' with
    | bin => exact target_ne_own_bak .bin
    | libexec name => nofun
  | libexec name =>
    cases place' with
    | bin => nofun
    | libexec stem =>
      intro hbak
      rw [Place.target, Place.target, Path.bak, Path.libexec.injEq] at hbak
      exact h ⟨stem, hbak⟩

theorem members_places (u : Upgrade) :
    u.members.map Member.place = .bin :: u.libexec.map Member.place := by
  rw [Upgrade.members, List.map_cons, u.bin_place]

end Paths

section Backups

variable {m : Member} {ms : List Member} {files before : Files Path Octets} {p : Path}

theorem backups_skip (h : files m.place.target = none) : backups (m :: ms) files = backups ms files := by
  rw [backups, if_pos h]

theorem backups_done (h : files m.place.target ≠ none) (hbackup : m.backup.succeeds) :
    backups (m :: ms) files =
      let rest := backups ms (backupBinary m.backup m.place.target files).1
      (rest.1, m :: rest.2.1, rest.2.2) := by
  have hok : (backupBinary m.backup m.place.target files).2 := (copy_succeeds h).trans hbackup
  rw [backups, if_neg h, if_pos hok]

theorem backups_failed (h : files m.place.target ≠ none) (hbackup : ¬m.backup.succeeds) :
    backups (m :: ms) files = ((backupBinary m.backup m.place.target files).1, [], false) := by
  have hfails : ¬(backupBinary m.backup m.place.target files).2 := by
    rw [backupBinary, copy_succeeds h]
    exact hbackup
  rw [backups, if_neg h, if_neg hfails]

/-- The program first, then the members. -/
theorem backups_cons (m : Member) (ms : List Member) (files : Files Path Octets) :
    backups (m :: ms) files =
      if (backups [m] files).2.2 then
        ((backups ms (backups [m] files).1).1,
          (backups [m] files).2.1 ++ (backups ms (backups [m] files).1).2.1,
          (backups ms (backups [m] files).1).2.2)
      else ((backups [m] files).1, [], false) := by
  by_cases h : files m.place.target = none
  · rw [backups_skip h, backups_skip h]
    rfl
  · by_cases hbackup : m.backup.succeeds
    · rw [backups_done h hbackup, backups_done h hbackup]
      rfl
    · rw [backups_failed h hbackup, backups_failed h hbackup]
      rfl

/-- Backing up writes backups only. -/
theorem backups_of_ne (hp : ∀ m ∈ ms, p ≠ m.place.target.bak) :
    (backups ms files).1 p = files p := by
  induction ms generalizing files with
  | nil => rfl
  | cons m ms ih =>
    have htail : ∀ m' ∈ ms, p ≠ m'.place.target.bak := fun m' hm' =>
      hp m' (List.mem_cons_of_mem m hm')
    have hcopy : (backupBinary m.backup m.place.target files).1 p = files p :=
      copy_of_ne (hp m List.mem_cons_self)
    by_cases h : files m.place.target = none
    · rw [backups_skip h, ih htail]
    · by_cases hbackup : m.backup.succeeds
      · rw [backups_done h hbackup]
        dsimp only
        rw [ih htail, hcopy]
      · rw [backups_failed h hbackup]
        exact hcopy

/-- Backing up takes nothing away. -/
theorem backups_there (h : files p ≠ none) : (backups ms files).1 p ≠ none := by
  induction ms generalizing files with
  | nil => exact h
  | cons m ms ih =>
    have hcopy : (backupBinary m.backup m.place.target files).1 p ≠ none := copy_there h
    by_cases hnone : files m.place.target = none
    · rw [backups_skip hnone]
      exact ih h
    · by_cases hbackup : m.backup.succeeds
      · rw [backups_done hnone hbackup]
        exact ih hcopy
      · rw [backups_failed hnone hbackup]
        exact hcopy

/-- A backup that succeeds is there afterwards, and everything else as before. -/
theorem backupBinary_isSome {there : Path → Bool} (hthere : ∀ p, there p = (files p).isSome)
    (h : files m.place.target ≠ none) (hbackup : m.backup.succeeds) (p : Path) :
    (there p || p = m.place.target.bak) =
      ((backupBinary m.backup m.place.target files).1 p).isSome := by
  by_cases hp : p = m.place.target.bak
  · have hdst : (backupBinary m.backup m.place.target files).1 m.place.target.bak =
        files m.place.target := copy_dst ((copy_succeeds h).trans hbackup)
    rw [hp, hdst, decide_eq_true rfl, Bool.or_true]
    exact (Option.isSome_iff_ne_none.mpr h).symm
  · have hsame : (backupBinary m.backup m.place.target files).1 p = files p := copy_of_ne hp
    rw [hsame, decide_eq_false hp, Bool.or_false, hthere]

/-- A backup that succeeded is there. -/
theorem backups_made (hm : m ∈ (backups ms files).2.1) :
    (backups ms files).1 m.place.target.bak ≠ none := by
  induction ms generalizing files with
  | nil => cases hm
  | cons m' ms ih =>
    by_cases h : files m'.place.target = none
    · rw [backups_skip h] at hm ⊢
      exact ih hm
    · by_cases hbackup : m'.backup.succeeds
      · rw [backups_done h hbackup] at hm ⊢
        rcases List.mem_cons.mp hm with rfl | hms
        · refine backups_there ?_
          have hdst : (backupBinary m.backup m.place.target files).1 m.place.target.bak =
              files m.place.target := copy_dst ((copy_succeeds h).trans hbackup)
          rw [hdst]
          exact h
        · exact ih hms
      · rw [backups_failed h hbackup] at hm
        cases hm

/-- What is there is backed up until a backup fails. -/
theorem backups_found {there : Path → Bool} (hthere : ∀ p, there p = (files p).isSome) :
    (backups ms files).2 = ((found there ms).takeWhile fun m => m.backup.succeeds,
      (found there ms).all fun m => m.backup.succeeds) := by
  induction ms generalizing files there with
  | nil => rfl
  | cons m ms ih =>
    rw [found, hthere]
    by_cases h : files m.place.target = none
    · rw [backups_skip h, ih hthere, if_neg (by rw [h]; exact Bool.false_ne_true)]
    · rw [if_pos (Option.isSome_iff_ne_none.mpr h)]
      by_cases hbackup : m.backup.succeeds
      · rw [backups_done h hbackup]
        dsimp only
        rw [ih (backupBinary_isSome hthere h hbackup), List.takeWhile_cons, if_pos hbackup,
          List.all_cons, hbackup, Bool.true_and]
      · rw [backups_failed h hbackup, List.takeWhile_cons, if_neg hbackup, List.all_cons,
          Bool.eq_false_iff.mpr hbackup, Bool.false_and]

theorem backups_sublist : (backups ms files).2.1.Sublist ms := by
  induction ms generalizing files with
  | nil => exact List.Sublist.slnil
  | cons m ms ih =>
    by_cases h : files m.place.target = none
    · rw [backups_skip h]
      exact ih.cons m
    · by_cases hbackup : m.backup.succeeds
      · rw [backups_done h hbackup]
        exact ih.cons_cons m
      · rw [backups_failed h hbackup]
        exact List.nil_sublist _

/-- The backup of a place is left alone by the backups of others. -/
theorem backups_keeps {there : Path → Bool} (hthere : ∀ p, there p = (files p).isSome) {q : Place}
    (hothers : q ∉ ((found there ms).takeWhile fun m => m.backup.succeeds).map Member.place)
    (hwhole : ∀ m ∈ (found there ms).find? fun m => !m.backup.succeeds, m.backup.leaves →
      m.place ≠ q) :
    (backups ms files).1 q.target.bak = files q.target.bak := by
  induction ms generalizing files there with
  | nil => rfl
  | cons m ms ih =>
    rw [found, hthere] at hothers hwhole
    by_cases h : files m.place.target = none
    · rw [if_neg (by rw [h]; exact Bool.false_ne_true)] at hothers hwhole
      rw [backups_skip h, ih hthere hothers hwhole]
    · rw [if_pos (Option.isSome_iff_ne_none.mpr h)] at hothers hwhole
      by_cases hbackup : m.backup.succeeds
      · rw [List.takeWhile_cons, if_pos hbackup, List.map_cons, List.mem_cons, not_or] at hothers
        rw [List.find?_cons_of_neg (by simpa using hbackup)] at hwhole
        rw [backups_done h hbackup]
        dsimp only
        rw [ih (backupBinary_isSome hthere h hbackup) hothers.2 hwhole]
        exact copy_of_ne fun hbak => hothers.1 (bak_target_injective hbak)
      · rw [List.find?_cons_of_pos (by simpa using hbackup)] at hwhole
        rw [backups_failed h hbackup]
        dsimp only
        by_cases hleaves : m.backup.leaves
        · exact copy_of_ne fun hbak => hwhole m rfl hleaves (bak_target_injective hbak).symm
        · rw [backupBinary, copy_keeps hbackup hleaves]

/-- A backup has the content of its file, unless a second one was broken. -/
theorem backups_bak {there : Path → Bool} (hthere : ∀ p, there p = (files p).isSome) {q : Place}
    (hq : q.counts)
    (hmem : q ∈ ((found there ms).takeWhile fun m => m.backup.succeeds).map Member.place)
    (hwhole : ∀ m ∈ (found there ms).find? fun m => !m.backup.succeeds, m.backup.leaves →
      m.place ≠ q) :
    (backups ms files).1 q.target.bak = files q.target := by
  induction ms generalizing files there with
  | nil => cases hmem
  | cons m ms ih =>
    rw [found, hthere] at hmem hwhole
    by_cases h : files m.place.target = none
    · rw [if_neg (by rw [h]; exact Bool.false_ne_true)] at hmem hwhole
      rw [backups_skip h, ih hthere hmem hwhole]
    · rw [if_pos (Option.isSome_iff_ne_none.mpr h)] at hmem hwhole
      by_cases hbackup : m.backup.succeeds
      · rw [List.takeWhile_cons, if_pos hbackup, List.map_cons, List.mem_cons] at hmem
        rw [List.find?_cons_of_neg (by simpa using hbackup)] at hwhole
        have hnow := backupBinary_isSome hthere h hbackup
        rw [backups_done h hbackup]
        dsimp only
        by_cases hlater : q ∈ ((found (fun p => there p || p = m.place.target.bak) ms).takeWhile
            fun m => m.backup.succeeds).map Member.place
        · rw [ih hnow hlater hwhole]
          exact copy_of_ne (hq.ne_bak m.place)
        · rw [backups_keeps hnow hlater hwhole, hmem.resolve_right hlater]
          exact copy_dst ((copy_succeeds h).trans hbackup)
      · rw [List.takeWhile_cons, if_neg hbackup] at hmem
        cases hmem

/-- What is there at first is found. -/
theorem mem_found {there : Path → Bool} (hm : m ∈ ms) (h : there m.place.target) :
    m ∈ found there ms := by
  induction ms generalizing there with
  | nil => cases hm
  | cons m' ms ih =>
    rw [found]
    rcases List.mem_cons.mp hm with rfl | hms
    · rw [if_pos h]
      exact List.mem_cons_self
    · split
      · exact List.mem_cons_of_mem m' (ih hms (by rw [h, Bool.true_or]))
      · exact ih hms h

/-- What counts is found only if it was there at first. -/
theorem there_of_mem_found {there : Path → Bool} (hcounts : m.place.counts)
    (hm : m ∈ found there ms) : there m.place.target := by
  induction ms generalizing there with
  | nil => cases hm
  | cons m' ms ih =>
    rw [found] at hm
    split at hm
    · rename_i hthere
      rcases List.mem_cons.mp hm with rfl | hms
      · exact hthere
      · have hnow := ih hms
        rwa [decide_eq_false (hcounts.ne_bak m'.place), Bool.or_false] at hnow
    · exact ih hm

end Backups

section Replaces

variable {m : Member} {ms : List Member} {files : Files Path Octets} {p : Path}

/-- Every extracted file is there, those of some places apart. -/
def Extracted (gone : List Place) (ms : List Member) (files : Files Path Octets) : Prop :=
  ∀ m ∈ ms, files m.place.new = none ↔ m.place ∈ gone

/-- Replacing one file takes its extracted one away and no other. -/
theorem Extracted.tail {gone : List Place} (h : Extracted gone (m :: ms) files)
    (hok : (atomicReplace m.replace m.place.new m.place.target files).2) :
    Extracted (m.place :: gone) ms
      (atomicReplace m.replace m.place.new m.place.target files).1 := by
  intro m' hm'
  rw [List.mem_cons]
  by_cases hplace : m'.place = m.place
  · rw [hplace]
    exact ⟨fun _ => .inl rfl, fun _ => move_src (target_ne_new _ _) hok⟩
  · have hother : (atomicReplace m.replace m.place.new m.place.target files).1 m'.place.new =
        files m'.place.new :=
      move_of_ne (fun hnew => hplace (new_injective hnew)) (target_ne_new _ _).symm
    rw [hother, h m' (List.mem_cons_of_mem m hm'), or_iff_right hplace]

theorem atomicReplace_succeeds {gone : List Place} (h : Extracted gone (m :: ms) files)
    (hgone : m.place ∉ gone) :
    (atomicReplace m.replace m.place.new m.place.target files).2 = m.replace.succeeds true :=
  move_succeeds fun hnone => hgone ((h m List.mem_cons_self).mp hnone)

/-- Nothing is moved from where nothing is left. -/
theorem atomicReplace_gone {gone : List Place} (h : Extracted gone (m :: ms) files)
    (hgone : m.place ∈ gone) :
    atomicReplace m.replace m.place.new m.place.target files = (files, false) :=
  move_none ((h m List.mem_cons_self).mpr hgone)

theorem replaces_of_ne (hnew : ∀ m ∈ ms, p ≠ m.place.new) (htarget : ∀ m ∈ ms, p ≠ m.place.target) :
    (replaces ms files).1 p = files p := by
  induction ms generalizing files with
  | nil => rfl
  | cons m ms ih =>
    have hmove : (atomicReplace m.replace m.place.new m.place.target files).1 p = files p :=
      move_of_ne (hnew m List.mem_cons_self) (htarget m List.mem_cons_self)
    rw [replaces]
    split
    · rw [ih (fun m' hm' => hnew m' (List.mem_cons_of_mem m hm'))
        (fun m' hm' => htarget m' (List.mem_cons_of_mem m hm')), hmove]
    · exact hmove

theorem replaces_succeeds {gone : List Place} (hnew : Extracted gone ms files) :
    (replaces ms files).2 ↔ (∀ m ∈ ms, m.place ∉ gone) ∧ (ms.map Member.place).Nodup ∧
      ∀ m ∈ ms, m.replace.succeeds true := by
  induction ms generalizing files gone with
  | nil => exact ⟨fun _ => ⟨nofun, List.nodup_nil, nofun⟩, fun _ => rfl⟩
  | cons m ms ih =>
    rw [List.forall_mem_cons, List.forall_mem_cons, List.map_cons, List.nodup_cons, replaces]
    by_cases hgone : m.place ∈ gone
    · rw [atomicReplace_gone hnew hgone, if_neg Bool.false_ne_true]
      exact ⟨fun h => absurd h Bool.false_ne_true, fun h => absurd hgone h.1.1⟩
    · have hmove := atomicReplace_succeeds hnew hgone
      by_cases hok : m.replace.succeeds true
      · rw [hmove, if_pos hok, ih (hnew.tail (hmove.trans hok))]
        have hothers : (∀ m' ∈ ms, m'.place ∉ m.place :: gone) ↔
            m.place ∉ ms.map Member.place ∧ ∀ m' ∈ ms, m'.place ∉ gone := by
          simp only [List.mem_cons, not_or, List.mem_map, not_exists, not_and]
          exact ⟨fun h => ⟨fun m' hm' => (h m' hm').1, fun m' hm' => (h m' hm').2⟩,
            fun h m' hm' => ⟨h.1 m' hm', h.2 m' hm'⟩⟩
        rw [hothers]
        tauto
      · rw [hmove, if_neg hok, hmove]
        exact ⟨fun h => absurd h hok, fun h => absurd h.2.2.1 hok⟩

/-- A place that is not in the rest of the list is left alone there. -/
theorem replaces_head (hnodup : ((m :: ms).map Member.place).Nodup) :
    (replaces ms files).1 m.place.target = files m.place.target := by
  rw [List.map_cons, List.nodup_cons] at hnodup
  refine replaces_of_ne (fun m' _ => target_ne_new _ _) fun m' hm' htarget => hnodup.1 ?_
  rw [target_injective htarget]
  exact List.mem_map_of_mem hm'

/-- After a success the new files are in place. -/
theorem replaces_target (hnodup : (ms.map Member.place).Nodup) (hok : (replaces ms files).2)
    (hm : m ∈ ms) : (replaces ms files).1 m.place.target = files m.place.new := by
  induction ms generalizing files with
  | nil => cases hm
  | cons m' ms ih =>
    rw [replaces] at hok ⊢
    by_cases hmove : (atomicReplace m'.replace m'.place.new m'.place.target files).2
    · rw [if_pos hmove] at hok ⊢
      rcases List.mem_cons.mp hm with rfl | hms
      · rw [replaces_head hnodup]
        exact move_dst (target_ne_new _ _) hmove
      · rw [List.map_cons, List.nodup_cons] at hnodup
        rw [ih hnodup.2 hok hms]
        refine move_of_ne (fun hnew => hnodup.1 ?_) (target_ne_new _ _).symm
        rw [← new_injective hnew]
        exact List.mem_map_of_mem hms
    · rw [if_neg hmove] at hok
      exact absurd hok hmove

/-- Replacing takes nothing away but extracted files. -/
theorem replaces_there (hp : ∀ m ∈ ms, p ≠ m.place.new) (h : files p ≠ none) :
    (replaces ms files).1 p ≠ none := by
  induction ms generalizing files with
  | nil => exact h
  | cons m ms ih =>
    have hmove : (atomicReplace m.replace m.place.new m.place.target files).1 p ≠ none :=
      move_there (hp m List.mem_cons_self) h
    rw [replaces]
    split
    · exact ih (fun m' hm' => hp m' (List.mem_cons_of_mem m hm')) hmove
    · exact hmove

/-- What something was put in place of is there. -/
theorem replaces_puts {gone : List Place} (hnew : Extracted gone ms files)
    (hm : m ∈ puts gone ms) : (replaces ms files).1 m.place.target ≠ none := by
  induction ms generalizing files gone with
  | nil => cases hm
  | cons m' ms ih =>
    rw [puts] at hm
    by_cases hgone : m'.place ∈ gone
    · rw [if_pos hgone] at hm
      cases hm
    · have hthere : files m'.place.new ≠ none := fun hnone =>
        hgone ((hnew m' List.mem_cons_self).mp hnone)
      have hmove := atomicReplace_succeeds hnew hgone
      rw [if_neg hgone] at hm
      rw [replaces]
      by_cases hok : m'.replace.succeeds true
      · rw [if_pos hok] at hm
        rw [hmove, if_pos hok]
        rcases List.mem_cons.mp hm with rfl | hms
        · refine replaces_there (fun m' _ => target_ne_new _ _) ?_
          have hdst : (atomicReplace m.replace m.place.new m.place.target files).1 m.place.target =
              files m.place.new := move_dst (target_ne_new _ _) (hmove.trans hok)
          rw [hdst]
          exact hthere
        · exact ih (hnew.tail (hmove.trans hok)) hms
      · rw [if_neg hok] at hm
        rw [hmove, if_neg hok]
        split at hm
        · rename_i hleaves
          rw [List.mem_singleton.mp hm]
          exact move_leaves (target_ne_new _ _) hthere hleaves
        · cases hm

/-- Nothing else is touched. -/
theorem replaces_keeps {gone : List Place} (hnew : Extracted gone ms files)
    (hp : ∀ place : Place, p ≠ place.new) (hputs : ∀ m ∈ puts gone ms, m.place.target ≠ p) :
    (replaces ms files).1 p = files p := by
  induction ms generalizing files gone with
  | nil => rfl
  | cons m ms ih =>
    rw [puts] at hputs
    rw [replaces]
    by_cases hgone : m.place ∈ gone
    · rw [atomicReplace_gone hnew hgone, if_neg Bool.false_ne_true]
    · have hmove := atomicReplace_succeeds hnew hgone
      rw [if_neg hgone] at hputs
      by_cases hok : m.replace.succeeds true
      · rw [if_pos hok] at hputs
        rw [hmove, if_pos hok, ih (hnew.tail (hmove.trans hok))
          fun m' hm' => hputs m' (List.mem_cons_of_mem m hm')]
        exact move_of_ne (hp _) (hputs m List.mem_cons_self).symm
      · rw [if_neg hok] at hputs
        rw [hmove, if_neg hok]
        by_cases htarget : p = m.place.target
        · split at hputs
          · exact absurd htarget.symm (hputs m List.mem_cons_self)
          · rename_i hleaves
            rw [htarget]
            exact move_keeps hleaves
        · exact move_of_ne (hp _) htarget

end Replaces

section Restores

variable {m : Member} {ms : List Member} {files : Files Path Octets} {p : Path}

theorem restores_of_ne (htarget : ∀ m ∈ ms, p ≠ m.place.target)
    (hbak : ∀ m ∈ ms, p ≠ m.place.target.bak) : (restores ms files).1 p = files p := by
  induction ms generalizing files with
  | nil => rfl
  | cons m ms ih =>
    have hmove : (restoreBinary m.restore m.place.target files).1 p = files p :=
      move_of_ne (hbak m List.mem_cons_self) (htarget m List.mem_cons_self)
    have hrest : ∀ files', (restores ms files').1 p = files' p := fun files' =>
      ih (fun m' hm' => htarget m' (List.mem_cons_of_mem m hm'))
        (fun m' hm' => hbak m' (List.mem_cons_of_mem m hm'))
    rw [restores]
    split
    · exact hrest files
    · dsimp only
      rw [hrest, hmove]

/-- The backup of a place is what is to be restored as long as it is needed. -/
def Saved (content : Octets) (q : Place) (ms : List Member) (files : Files Path Octets) : Prop :=
  (q ∈ ms.map Member.place ∧ files q.target.bak = some content) ∨
    (files q.target = some content ∧ (q ∈ ms.map Member.place →
      files q.target.bak = none ∨ files q.target.bak = some content))

/-- One restore keeps what is to be restored, or restores it. -/
theorem Saved.tail {content : Octets} {q : Place} (hq : q.counts)
    (horder : ∀ later ∈ ms, later.place.counts → m.place.target ≠ later.place.target.bak)
    (h : Saved content q (m :: ms) files) (hthere : files m.place.target.bak ≠ none)
    (hok : (restoreBinary m.restore m.place.target files).2) :
    Saved content q ms (restoreBinary m.restore m.place.target files).1 := by
  by_cases hplace : m.place = q
  · subst hplace
    have hbak : files m.place.target.bak = some content := by
      rcases h with ⟨-, hbak⟩ | ⟨-, hbak⟩
      · exact hbak
      · exact (hbak List.mem_cons_self).resolve_left hthere
    have hne := (target_ne_own_bak m.place).symm
    refine .inr ⟨(move_dst hne.symm hok).trans hbak, fun _ => ?_⟩
    exact (move_src_or hne).imp_right fun hkept => hkept.trans hbak
  · have htarget : (restoreBinary m.restore m.place.target files).1 q.target = files q.target :=
      move_of_ne (hq.ne_bak m.place) fun heq => hplace (target_injective heq).symm
    have hmem : q ∈ (m :: ms).map Member.place ↔ q ∈ ms.map Member.place := by
      rw [List.map_cons, List.mem_cons, or_iff_right (Ne.symm hplace)]
    rw [Saved, hmem] at h
    by_cases hover : q.target.bak = m.place.target
    · have hlater : q ∉ ms.map Member.place := by
        intro hin
        obtain ⟨later, hmember, rfl⟩ := List.mem_map.mp hin
        exact horder later hmember hq hover.symm
      obtain ⟨hin, -⟩ | ⟨hcontent, -⟩ := h
      · exact absurd hin hlater
      · exact .inr ⟨htarget.trans hcontent, fun hin => absurd hin hlater⟩
    · have hbak : (restoreBinary m.restore m.place.target files).1 q.target.bak =
          files q.target.bak :=
        move_of_ne (fun heq => hplace (bak_target_injective heq).symm) hover
      rw [Saved, htarget, hbak]
      exact h

/-- When no restore is attempted in vain, everything that was saved is back. -/
theorem restores_target {content : Octets} {q : Place} (hq : q.counts)
    (horder : ms.Pairwise fun earlier later =>
      later.place.counts → earlier.place.target ≠ later.place.target.bak)
    (h : Saved content q ms files) (hok : (restores ms files).2) :
    (restores ms files).1 q.target = some content := by
  induction ms generalizing files with
  | nil =>
    obtain ⟨hin, -⟩ | ⟨hcontent, -⟩ := h
    · cases hin
    · exact hcontent
  | cons m ms ih =>
    rw [List.pairwise_cons] at horder
    rw [restores] at hok ⊢
    by_cases hnone : files m.place.target.bak = none
    · rw [if_pos hnone] at hok ⊢
      refine ih horder.2 (h.imp ?_ ?_) hok
      · rintro ⟨hin, hbak⟩
        refine ⟨(List.mem_cons.mp hin).resolve_left ?_, hbak⟩
        rintro rfl
        rw [hnone] at hbak
        cases hbak
      · exact fun hkept => ⟨hkept.1, fun hin => hkept.2 (List.mem_cons_of_mem _ hin)⟩
    · rw [if_neg hnone] at hok ⊢
      dsimp only at hok ⊢
      rw [Bool.and_eq_true] at hok
      exact ih horder.2 (h.tail hq horder.1 hnone hok.1) hok.2

end Restores

section Cleanups

variable {m : Member} {ms : List Member} {files : Files Path Octets} {p : Path}

theorem cleanups_of_ne (hp : ∀ m ∈ ms, p ≠ m.place.target.bak) : cleanups ms files p = files p := by
  induction ms generalizing files with
  | nil => rfl
  | cons m ms ih =>
    rw [cleanups, List.foldl_cons]
    have hrest : cleanups ms (cleanupBackup m.cleaned m.place.target files) p =
        cleanupBackup m.cleaned m.place.target files p :=
      ih fun m' hm' => hp m' (List.mem_cons_of_mem m hm')
    rw [cleanups] at hrest
    rw [hrest, cleanupBackup]
    split
    · exact erase_of_ne (hp m List.mem_cons_self) files
    · rfl

theorem cleanups_bak (hnodup : (ms.map Member.place).Nodup) (hm : m ∈ ms) :
    cleanups ms files m.place.target.bak =
      if m.cleaned then none else files m.place.target.bak := by
  induction ms generalizing files with
  | nil => cases hm
  | cons m' ms ih =>
    rw [List.map_cons, List.nodup_cons] at hnodup
    have hne : ∀ m'' ∈ ms, m''.place.target.bak ≠ m'.place.target.bak := fun m'' hm'' hbak =>
      hnodup.1 (bak_target_injective hbak ▸ List.mem_map_of_mem hm'')
    rw [cleanups, List.foldl_cons]
    rcases List.mem_cons.mp hm with rfl | hms
    · have hrest : cleanups ms (cleanupBackup m.cleaned m.place.target files) m.place.target.bak =
          cleanupBackup m.cleaned m.place.target files m.place.target.bak :=
        cleanups_of_ne fun m'' hm'' => (hne m'' hm'').symm
      rw [cleanups] at hrest
      rw [hrest, cleanupBackup]
      split
      · exact erase_self files _
      · rfl
    · have hrest : cleanups ms (cleanupBackup m'.cleaned m'.place.target files)
          m.place.target.bak = if m.cleaned then none
            else cleanupBackup m'.cleaned m'.place.target files m.place.target.bak :=
        ih hnodup.2 hms
      rw [cleanups] at hrest
      have hsame : cleanupBackup m'.cleaned m'.place.target files m.place.target.bak =
          files m.place.target.bak := by
        rw [cleanupBackup]
        split
        · exact erase_of_ne (hne m hms) files
        · rfl
      rw [hrest, hsame]

end Cleanups

section Attempt

/-- The upgrade fails, and its rollback restores these backups, as far as no restore is
attempted in vain. -/
structure RollsBack (baks : List Member) (files : Files Path Octets) (result : Result) : Prop where
  /-- It failed. -/
  done : result.done = false
  /-- Restores that succeed are those of the backups. -/
  files : result.restored → result.files = (restores baks files).1 ∧ (restores baks files).2

/-- An attempt that fails without a restore of its own is rolled back. -/
theorem rollsBack_of_attempt {u : Upgrade} {before files : Files Path Octets}
    {binBak libexecBaks : List Member}
    (h : u.attempt before = ⟨files, binBak, libexecBaks, false, true⟩) :
    RollsBack (binBak ++ libexecBaks) files (upgradeTpBundle u before) := by
  rw [upgradeTpBundle, h]
  refine ⟨rfl, fun hrestored => ⟨rfl, ?_⟩⟩
  exact hrestored

/-- The early restore of the program is one step of the rollback. -/
theorem rollsBack_innerRestore {u : Upgrade} {before files : Files Path Octets}
    {binBak libexecBaks : List Member} (hlength : binBak.length ≤ 1)
    (h : u.attempt before = u.innerRestore binBak libexecBaks files) :
    ∃ baks, baks.map Member.place = (binBak ++ libexecBaks).map Member.place ∧
      RollsBack baks files (upgradeTpBundle u before) := by
  cases binBak with
  | nil => exact ⟨libexecBaks, rfl, rollsBack_of_attempt h⟩
  | cons m rest =>
    have hrest : rest = [] := List.length_eq_zero_iff.mp (by simpa using hlength)
    subst hrest
    rw [Upgrade.innerRestore] at h
    by_cases hbak : files m.place.target.bak = none
    · rw [if_pos hbak] at h
      exact ⟨m :: libexecBaks, rfl, rollsBack_of_attempt h⟩
    · rw [if_neg hbak] at h
      dsimp only at h
      refine ⟨{ m with restore := u.inner } :: libexecBaks, rfl, ?_⟩
      by_cases hinner : (restoreBinary u.inner m.place.target files).2
      · rw [if_pos hinner, hinner] at h
        obtain ⟨hdone, hfiles⟩ := rollsBack_of_attempt h
        refine ⟨hdone, fun hrestored => ?_⟩
        obtain ⟨hsame, hok⟩ := hfiles hrestored
        rw [restores, if_neg hbak]
        dsimp only
        rw [hinner]
        exact ⟨hsame, hok⟩
      · rw [if_neg hinner, Bool.eq_false_iff.mpr hinner] at h
        rw [upgradeTpBundle, h]
        exact ⟨rfl, nofun⟩

theorem backups_one_length (m : Member) (files : Files Path Octets) :
    (backups [m] files).2.1.length ≤ 1 := backups_sublist.length_le

/-- How an upgrade goes. -/
theorem upgrade_cases (u : Upgrade) (before : Files Path Octets) :
    (¬u.prepared ∧ RollsBack [] before (upgradeTpBundle u before)) ∨
    (u.prepared ∧ ¬((backups u.members before).2.2 ∧ u.dirs) ∧
      RollsBack (backups u.members before).2.1 (backups u.members before).1
        (upgradeTpBundle u before)) ∨
    (u.prepared ∧ (backups u.members before).2.2 ∧ u.dirs) ∧
      (¬((replaces u.members (backups u.members before).1).2 ∧ u.verified) ∧
        (∃ baks, baks.map Member.place = (backups u.members before).2.1.map Member.place ∧
          RollsBack baks (replaces u.members (backups u.members before).1).1
            (upgradeTpBundle u before)) ∨
      ((replaces u.members (backups u.members before).1).2 ∧ u.verified) ∧
        upgradeTpBundle u before =
          ⟨cleanups (backups u.members before).2.1
            (replaces u.members (backups u.members before).1).1, true, true⟩) := by
  have hattempt : u.attempt before = u.attempt before := rfl
  rw [Upgrade.members, backups_cons, replaces]
  conv at hattempt => rhs; rw [Upgrade.attempt]
  by_cases hprepared : u.prepared
  swap
  · rw [if_pos (by simpa using hprepared)] at hattempt
    exact .inl ⟨hprepared, rollsBack_of_attempt hattempt⟩
  refine .inr ?_
  rw [if_neg (by simpa using hprepared)] at hattempt
  dsimp only at hattempt
  by_cases hbin : (backups [u.bin] before).2.2
  swap
  · rw [if_pos (by simpa using hbin)] at hattempt
    rw [if_neg hbin]
    exact .inl ⟨hprepared, fun h => Bool.false_ne_true h.1, rollsBack_of_attempt hattempt⟩
  rw [if_neg (by simpa using hbin)] at hattempt
  rw [if_pos hbin]
  dsimp only
  by_cases hready : (backups u.libexec (backups [u.bin] before).1).2.2 ∧ u.dirs
  swap
  · rw [if_pos (by simpa [imp_iff_not_or] using hready)] at hattempt
    exact .inl ⟨hprepared, hready, rollsBack_of_attempt hattempt⟩
  rw [if_neg (by simpa using hready)] at hattempt
  refine .inr ⟨⟨hprepared, hready⟩, ?_⟩
  by_cases hnewBin : (atomicReplace u.bin.replace u.bin.place.new u.bin.place.target
      (backups u.libexec (backups [u.bin] before).1).1).2
  swap
  · rw [if_pos (by simpa using hnewBin)] at hattempt
    rw [if_neg hnewBin]
    exact .inl ⟨fun h => hnewBin h.1, _, rfl, rollsBack_of_attempt hattempt⟩
  rw [if_neg (by simpa using hnewBin)] at hattempt
  rw [if_pos hnewBin]
  by_cases hnew : (replaces u.libexec (atomicReplace u.bin.replace u.bin.place.new
      u.bin.place.target (backups u.libexec (backups [u.bin] before).1).1).1).2
  swap
  · rw [if_pos (by simpa using hnew)] at hattempt
    refine .inl ⟨fun h => hnew h.1, ?_⟩
    exact rollsBack_innerRestore (backups_one_length u.bin before) hattempt
  rw [if_neg (by simpa using hnew)] at hattempt
  by_cases hverified : u.verified
  swap
  · rw [if_pos (by simpa using hverified)] at hattempt
    exact .inl ⟨fun h => hverified h.2, _, rfl, rollsBack_of_attempt hattempt⟩
  rw [if_neg (by simpa using hverified)] at hattempt
  refine .inr ⟨⟨hnew, hverified⟩, ?_⟩
  rw [upgradeTpBundle, hattempt]
  rfl

end Attempt

section Rollback

variable {u : Upgrade} {before files : Files Path Octets} {baks : List Member} {result : Result}

/-- What is found is backed up, until a backup fails. -/
theorem backups_eq (hprepared : u.prepared) : (backups u.members before).2.1 = u.backed before ∧
    ((backups u.members before).2.2 ↔ ∀ m ∈ u.found before, m.backup.succeeds) := by
  have hfound : (backups u.members before).2 =
      ((found (fun p => (before p).isSome) u.members).takeWhile fun m => m.backup.succeeds,
        (found (fun p => (before p).isSome) u.members).all fun m => m.backup.succeeds) :=
    backups_found fun _ => rfl
  rw [hfound, Upgrade.backed, Upgrade.found, if_pos hprepared]
  exact ⟨rfl, List.all_eq_true⟩

/-- What counts and is backed up was installed, and its backup has its content. -/
theorem backed_bak (hprepared : u.prepared) (hclear : u.Clear before) {q : Place} (hq : q.counts)
    (hmem : q ∈ (u.backed before).map Member.place) : ∃ content, before q.target = some content ∧
      (backups u.members before).1 q.target.bak = some content := by
  have hwhole := hclear.whole
  rw [Upgrade.broken, Upgrade.backed, Upgrade.found, if_pos hprepared] at hwhole
  rw [Upgrade.backed, Upgrade.found, if_pos hprepared] at hmem
  have hbak := backups_bak (fun _ => rfl) hq hmem fun m hm hleaves hplace =>
    hwhole m hm (hplace ▸ hq) hleaves (hplace ▸ hmem)
  obtain ⟨m, hm, rfl⟩ := List.mem_map.mp hmem
  have hthere := there_of_mem_found hq ((List.takeWhile_sublist _).subset hm)
  obtain ⟨content, hcontent⟩ := Option.isSome_iff_exists.mp hthere
  exact ⟨content, hcontent, hbak.trans hcontent⟩

/-- What is there has a backup when the upgrade comes to replacing. -/
theorem mem_backed (hbegins : u.begins before) {m : Member} (hm : m ∈ u.members)
    (hthere : before m.place.target ≠ none) : m ∈ u.backed before := by
  rw [Upgrade.backed, List.takeWhile_eq_self_iff.mpr hbegins.2.1, Upgrade.found,
    if_pos hbegins.1]
  exact mem_found hm (Option.isSome_iff_ne_none.mpr hthere)

/-- A rollback brings back what is saved. -/
theorem RollsBack.saved (h : RollsBack baks files result) (hrestored : result.restored)
    (horder : baks.Pairwise fun earlier later =>
      later.place.counts → earlier.place.target ≠ later.place.target.bak)
    {q : Place} (hq : q.counts) {content : Octets} (hsaved : Saved content q baks files) :
    result.files q.target = some content := by
  obtain ⟨hfiles, hok⟩ := h.files hrestored
  rw [hfiles]
  exact restores_target hq horder hsaved hok

/-- It touches nothing else that counts. -/
theorem RollsBack.others (h : RollsBack baks files result) (hrestored : result.restored)
    {q : Place} (hq : q.counts) (hmem : q ∉ baks.map Member.place) :
    result.files q.target = files q.target := by
  rw [(h.files hrestored).1]
  refine restores_of_ne (fun m hm htarget => hmem ?_) fun m _ => hq.ne_bak m.place
  rw [target_injective htarget]
  exact List.mem_map_of_mem hm

theorem backups_counts {q : Place} (hq : q.counts) :
    (backups u.members before).1 q.target = before q.target :=
  backups_of_ne fun m _ => hq.ne_bak m.place

/-- Nothing was replaced, so everything that counts is as before. -/
theorem kept_of_not_begun (hprepared : u.prepared) (hclear : u.Clear before)
    (hrestored : result.restored)
    (h : RollsBack (backups u.members before).2.1 (backups u.members before).1 result)
    {q : Place} (hq : q.counts) : result.files q.target = before q.target := by
  rw [(backups_eq hprepared).1] at h
  by_cases hmem : q ∈ (u.backed before).map Member.place
  · obtain ⟨content, hcontent, hbak⟩ := backed_bak hprepared hclear hq hmem
    rw [hcontent]
    exact h.saved hrestored hclear.order hq (.inl ⟨hmem, hbak⟩)
  · rw [h.others hrestored hq hmem, backups_counts hq]

/-- The rollback of what has the places of what is backed up. -/
theorem order_of_places (horder : (u.backed before).Pairwise fun earlier later =>
      later.place.counts → earlier.place.target ≠ later.place.target.bak)
    (hplaces : baks.map Member.place = (u.backed before).map Member.place) :
    baks.Pairwise fun earlier later =>
      later.place.counts → earlier.place.target ≠ later.place.target.bak := by
  have hall : ((u.backed before).map Member.place).Pairwise fun earlier later =>
      later.counts → earlier.target ≠ later.target.bak := List.pairwise_map.mpr horder
  rw [← hplaces] at hall
  exact List.pairwise_map.mp hall

/-- After replacements that are rolled back, everything that counts is as before exactly
when whatever something was put in place of had been there. -/
theorem kept_iff_of_begun (hbegins : u.begins before) (hfails : ¬u.completes before)
    (hclear : u.Clear before) (hnew : Extracted [] u.members before) (hrestored : result.restored)
    (hplaces : baks.map Member.place = (u.backed before).map Member.place)
    (h : RollsBack baks (replaces u.members (backups u.members before).1).1 result) :
    (∀ q : Place, q.counts → result.files q.target = before q.target) ↔
      ∀ m ∈ puts [] u.members, m.place.counts → before m.place.target ≠ none := by
  have hextracted : Extracted [] u.members (backups u.members before).1 := by
    intro m hm
    rw [backups_of_ne fun m' _ => (bak_ne_new m'.place m.place).symm]
    exact hnew m hm
  have hothers : ∀ q : Place, q.counts → before q.target = none →
      result.files q.target = (replaces u.members (backups u.members before).1).1 q.target := by
    intro q hq hnone
    refine h.others hrestored hq fun hmem => ?_
    obtain ⟨content, hcontent, -⟩ := backed_bak hbegins.1 hclear hq (hplaces ▸ hmem)
    rw [hnone] at hcontent
    cases hcontent
  have hkeeps : ∀ q : Place, q.counts → (∀ m ∈ puts [] u.members, m.place ≠ q) →
      (replaces u.members (backups u.members before).1).1 q.target = before q.target := by
    intro q hq hputs
    rw [replaces_keeps hextracted (target_ne_new q) fun m hm htarget =>
      hputs m hm (target_injective htarget), backups_counts hq]
  constructor
  · intro hkept m hm hcounts hnone
    have hthere := replaces_puts hextracted hm
    rw [← hothers m.place hcounts hnone, hkept m.place hcounts] at hthere
    exact hthere hnone
  · intro hputs q hq
    by_cases hnone : before q.target = none
    · rw [hothers q hq hnone]
      refine hkeeps q hq fun m hm hplace => ?_
      subst hplace
      exact hputs m hm hq hnone
    · by_cases hmem : q ∈ (u.backed before).map Member.place
      · obtain ⟨content, hcontent, hbak⟩ := backed_bak hbegins.1 hclear hq hmem
        have hover : ∀ m ∈ puts [] u.members, m.place.target ≠ q.target.bak := by
          obtain ⟨m', hm', rfl⟩ := List.mem_map.mp hmem
          exact hclear.kept hbegins hfails m' hm' hq
        rw [← replaces_keeps hextracted (bak_ne_new q) hover] at hbak
        rw [hcontent]
        exact h.saved hrestored (order_of_places hclear.order hplaces) hq
          (.inl ⟨hplaces ▸ hmem, hbak⟩)
      · have hnomember : ∀ m ∈ u.members, q.target ≠ m.place.target := fun m hm htarget =>
          hmem (List.mem_map.mpr
            ⟨m, mem_backed hbegins hm (htarget ▸ hnone), (target_injective htarget).symm⟩)
        rw [h.others hrestored hq (hplaces ▸ hmem),
          replaces_of_ne (fun m _ => target_ne_new q m.place) hnomember, backups_counts hq]

/-- After a success the new files are in place, and the others as before. -/
theorem target_of_done (hnodup : (u.members.map Member.place).Nodup)
    (hok : (replaces u.members (backups u.members before).1).2) {q : Place} (hq : q.counts) :
    cleanups (backups u.members before).2.1 (replaces u.members (backups u.members before).1).1
      q.target = if q ∈ u.members.map Member.place then before q.new else before q.target := by
  rw [cleanups_of_ne fun m _ => hq.ne_bak m.place]
  split
  · rename_i hmember
    obtain ⟨m, hm, rfl⟩ := List.mem_map.mp hmember
    rw [replaces_target hnodup hok hm,
      backups_of_ne fun m' _ => (bak_ne_new m'.place m.place).symm]
  · rename_i hmember
    rw [replaces_of_ne (fun m _ => target_ne_new q m.place) fun m hm htarget => hmember ?_,
      backups_counts hq]
    rw [target_injective htarget]
    exact List.mem_map_of_mem hm

/-- After a success a backup is gone exactly when its removal succeeded. -/
theorem bak_of_done (hnodup : (u.members.map Member.place).Nodup) (hbegins : u.begins before)
    {m : Member} (hm : m ∈ u.members) (hthere : before m.place.target ≠ none) :
    cleanups (backups u.members before).2.1 (replaces u.members (backups u.members before).1).1
      m.place.target.bak = none ↔ m.cleaned := by
  have hbacked := mem_backed hbegins hm hthere
  rw [← (backups_eq hbegins.1).1] at hbacked
  have hbak : (replaces u.members (backups u.members before).1).1 m.place.target.bak ≠ none :=
    replaces_there (fun m' _ => bak_ne_new _ _) (backups_made hbacked)
  rw [cleanups_bak ((backups_sublist.map Member.place).nodup hnodup) hbacked]
  split
  · rename_i hcleaned
    exact ⟨fun _ => hcleaned, fun _ => rfl⟩
  · rename_i hcleaned
    exact ⟨fun h => absurd h hbak, fun h => absurd h hcleaned⟩

end Rollback

section Results

variable {u : Upgrade} {tree : Tree}

theorem extracted_members (u : Upgrade) (tree : Tree) :
    Extracted [] u.members (u.extracted tree) := by
  intro m hm
  refine iff_of_false ?_ List.not_mem_nil
  rcases List.mem_cons.mp hm with rfl | hlibexec
  · rw [u.bin_place]
    exact Option.some_ne_none u.binContent
  · obtain ⟨name, hname⟩ := u.libexec_place m hlibexec
    have hmem : Place.libexec name ∈ u.libexec.map Member.place := by
      rw [← hname]
      exact List.mem_map_of_mem hlibexec
    rw [hname, Place.new, Upgrade.extracted, if_pos hmem]
    exact Option.some_ne_none _

/-- The program and every file that is no backup. -/
theorem forall_counts {p : Path → Prop} :
    (∀ q : Place, q.counts → p q.target) ↔
      p (.bin "tp") ∧ ∀ name, ¬IsBak name → p (.libexec name) := by
  constructor
  · exact fun h => ⟨h .bin trivial, fun name hname => h (.libexec name) hname⟩
  · rintro ⟨hbin, hlibexec⟩ (_ | name) hq
    · exact hbin
    · exact hlibexec name hq

theorem kept_iff (files : Files Path Octets) :
    (∀ q : Place, q.counts → files q.target = u.extracted tree q.target) ↔
      files (.bin "tp") = tree.bin "tp" ∧
        ∀ name, ¬IsBak name → files (.libexec name) = tree.libexec name :=
  forall_counts (p := fun p => files p = u.extracted tree p)

theorem begins_iff (u : Upgrade) (before : Files Path Octets) :
    u.begins before ↔ u.prepared ∧ (backups u.members before).2.2 ∧ u.dirs :=
  and_congr_right fun hprepared => and_congr_left fun _ => (backups_eq hprepared).2.symm

theorem completes_iff : u.completes (u.extracted tree) ↔ u.begins (u.extracted tree) ∧
    (replaces u.members (backups u.members (u.extracted tree)).1).2 ∧ u.verified := by
  have hextracted : Extracted [] u.members (backups u.members (u.extracted tree)).1 := by
    intro m hm
    rw [backups_of_ne fun m' _ => (bak_ne_new m'.place m.place).symm]
    exact extracted_members u tree m hm
  rw [Upgrade.completes, replaces_succeeds hextracted,
    and_iff_right (fun _ _ => List.not_mem_nil : ∀ m ∈ u.members, m.place ∉ ([] : List Place))]

/-- An upgrade that succeeds keeps its promise exactly when every backup is removed. -/
theorem all_of_completes (hcompletes : u.completes (u.extracted tree))
    (h : upgradeTpBundle u (u.extracted tree) =
      ⟨cleanups (backups u.members (u.extracted tree)).2.1
        (replaces u.members (backups u.members (u.extracted tree)).1).1, true, true⟩) :
    AllOrNothing u tree ↔
      ∀ m ∈ u.members, u.extracted tree m.place.target ≠ none → m.cleaned := by
  have hnodup := hcompletes.2.1.1
  have htarget : ∀ q : Place, q.counts → cleanups (backups u.members (u.extracted tree)).2.1
      (replaces u.members (backups u.members (u.extracted tree)).1).1 q.target =
        if q ∈ u.members.map Member.place then u.extracted tree q.new
        else u.extracted tree q.target := fun q hq =>
    target_of_done hnodup (completes_iff.mp hcompletes).2.1 hq
  rw [AllOrNothing, h]
  dsimp only
  rw [if_pos rfl]
  constructor
  · rintro ⟨-, -, hbaks⟩ m hm hthere
    exact (bak_of_done hnodup hcompletes.1 hm hthere).mp (hbaks m hm hthere)
  · intro hcleaned
    refine ⟨?_, fun name hname => ?_, fun m hm hthere => ?_⟩
    · have hbin := htarget .bin trivial
      rw [if_pos] at hbin
      · exact hbin
      · rw [members_places]
        exact List.mem_cons_self
    · have hlibexec := htarget (.libexec name) hname
      have hiff : Place.libexec name ∈ u.members.map Member.place ↔
          Place.libexec name ∈ u.libexec.map Member.place := by
        rw [members_places]
        exact ⟨fun hmem => (List.mem_cons.mp hmem).resolve_left nofun,
          List.mem_cons_of_mem Place.bin⟩
      rw [Place.target] at hlibexec
      rw [hlibexec]
      by_cases hmem : Place.libexec name ∈ u.libexec.map Member.place
      · rw [if_pos (hiff.mpr hmem), if_pos hmem, Place.new, Upgrade.extracted, if_pos hmem]
      · rw [if_neg fun hmem' => hmem (hiff.mp hmem'), if_neg hmem, Upgrade.extracted]
    · exact (bak_of_done hnodup hcompletes.1 hm hthere).mpr (hcleaned m hm hthere)

/-- A file whose operations all succeed. -/
def smooth (place : Place) : Member := ⟨place, .done, .renamed, true, .renamed⟩

/-- The new program does not start. -/
def brokenUpgrade : Upgrade where
  binContent := [2]
  content := fun _ => [2]
  prepared := true
  bin := smooth .bin
  libexec := [smooth (.libexec "tp-daemon"), smooth (.libexec "tp-relay")]
  dirs := true
  inner := .renamed
  verified := false
  bin_place := rfl
  libexec_place := by
    intro m hm
    rcases List.mem_cons.mp hm with rfl | hm
    · exact ⟨"tp-daemon", rfl⟩
    · rw [List.mem_singleton.mp hm]
      exact ⟨"tp-relay", rfl⟩

/-- An installation with both members. -/
def wholeTree : Tree where
  bin := fun name => if name = "tp" then some [1] else none
  libexec := fun name => if name ∈ ["tp-daemon", "tp-relay"] then some [1] else none

theorem clear_brokenUpgrade : brokenUpgrade.Clear (brokenUpgrade.extracted wholeTree) where
  order := by
    have horder : (brokenUpgrade.backed (brokenUpgrade.extracted wholeTree)).Pairwise
        fun earlier later => earlier.place.target ≠ later.place.target.bak := by decide +kernel
    refine horder.imp ?_
    exact fun hne _ => hne
  whole := by
    have hbroken : brokenUpgrade.broken (brokenUpgrade.extracted wholeTree) = none := rfl
    rw [hbroken]
    exact nofun
  kept := by
    have hkept : ∀ m ∈ brokenUpgrade.members, ∀ m' ∈ puts [] brokenUpgrade.members,
        m'.place.target ≠ m.place.target.bak := by decide +kernel
    exact fun hb _ m hm _ => hkept m hm

/-- An installation without the relay. -/
def oldTree : Tree where
  bin := fun name => if name = "tp" then some [1] else none
  libexec := fun name => if name = "tp-daemon" then some [1] else none

end Results

end Teleprompter.BundleUpgrade
