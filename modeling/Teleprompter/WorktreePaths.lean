import Teleprompter.LinkedPaths

/-!
# Containment of worktree paths

The worktree manager checks a path before it hands the same text to `git
worktree add` or `git worktree remove`. The check resolves double dots in the
text first and follows the symbolic links of the parent afterwards, with the
text alone where the parent does not exist. The kernel follows each link where
it meets it. The two end at one place where no double dot stands behind a link,
the last name is no link, and an unresolvable parent holds no link.
-/

namespace Teleprompter.WorktreePaths

open LinkedPaths

/-- The absolute text of a path. -/
def display (path : Path) : List Char :=
  if path = [] then ['/'] else path.flatMap (fun name => '/' :: name)

/-- The components of a path text, seen from a directory. -/
def componentsFrom (dir : Path) (text : List Char) : List (List Char) :=
  if text.head? = some '/' then splitSlash text else dir ++ splitSlash text

/-- The manager of a repository's worktrees. -/
structure WorktreeManager where
  repoRoot : Path
  deriving DecidableEq

/-- Make a manager for an existing directory, seen from the working directory. -/
def WorktreeManager.new (tree : FileTree) (maxLinks : ℕ) (cwd repoRoot : List Char) :
    Option WorktreeManager :=
  (realpath tree maxLinks (componentsFrom (splitSlash cwd) repoRoot)).map WorktreeManager.mk

/-- Resolve a path text against the repository, in the text alone. -/
def resolveAgainst (repoRoot : Path) (path : List Char) : Path := resolve repoRoot path

/-- Follow the links of the parent and keep the last name; the path itself
where the parent cannot be resolved. -/
def canonicalizeLeafLexical (tree : FileTree) (maxLinks : ℕ) (absolute : Path) : Path :=
  match realpath tree maxLinks absolute.dropLast with
  | some realParent => realParent ++ absolute.getLast?.toList
  | none => absolute

/-- The directory that holds the repository and its worktrees. -/
def WorktreeManager.base (manager : WorktreeManager) : Path := manager.repoRoot.dropLast

/-- The place that the containment check looks at. -/
def WorktreeManager.resolved (manager : WorktreeManager) (tree : FileTree) (maxLinks : ℕ)
    (path : List Char) : Path :=
  canonicalizeLeafLexical tree maxLinks (resolveAgainst manager.repoRoot path)

/-- Refuse a path outside the base directory. The test is one of the texts. -/
def WorktreeManager.validatePathContainment (manager : WorktreeManager) (tree : FileTree)
    (maxLinks : ℕ) (path : List Char) : Except (List Char) Unit :=
  let resolved := manager.resolved tree maxLinks path
  if resolved ≠ manager.base ∧
      (display manager.base ++ ['/']).isPrefixOf (display resolved) = false then
    .error ("Refusing to create worktree at '".toList ++ path ++ "': resolved path '".toList ++
      display resolved ++ "' is outside the worktree base directory '".toList ++
      display manager.base ++ "'.".toList)
  else .ok ()

/-- The text under which worktree paths are compared. -/
def WorktreeManager.canonicalize (manager : WorktreeManager) (tree : FileTree) (maxLinks : ℕ)
    (path : List Char) : List Char :=
  display (manager.resolved tree maxLinks path)

/-- The directory that git, started in the repository, acts on for a path text;
directories that are missing are made. -/
def WorktreeManager.actsOn (manager : WorktreeManager) (tree : FileTree) (maxLinks : ℕ)
    (path : List Char) : Option Path :=
  (walk tree true maxLinks [] (componentsFrom manager.repoRoot path)).map Prod.snd

section Texts

/-- Two texts that agree up to a slash have the same name before it. -/
theorem name_eq_of_prefix {name name' rest rest' : List Char} (hname : '/' ∉ name)
    (hname' : '/' ∉ name') (hrest' : rest' = [] ∨ rest'.head? = some '/')
    (h : name ++ '/' :: rest <+: name' ++ rest') : name = name' ∧ '/' :: rest <+: rest' := by
  induction name generalizing name' with
  | nil =>
    cases name' with
    | nil => exact ⟨rfl, h⟩
    | cons c name' =>
      rw [List.nil_append, List.cons_append, List.cons_prefix_cons] at h
      exact absurd (h.1 ▸ List.mem_cons_self) hname'
  | cons c name ih =>
    cases name' with
    | nil =>
      rw [List.nil_append, List.cons_append] at h
      rcases hrest' with rfl | hhead
      · simp at h
      · cases rest' with
        | nil => simp at hhead
        | cons d rest' =>
          rw [List.cons_prefix_cons] at h
          rw [List.head?_cons, Option.some.injEq] at hhead
          exact absurd (h.1.trans hhead ▸ List.mem_cons_self) hname
    | cons d name' =>
      rw [List.cons_append, List.cons_append, List.cons_prefix_cons] at h
      obtain ⟨rfl, hrest⟩ := ih (fun hmem => hname (List.mem_cons_of_mem c hmem))
        (fun hmem => hname' (List.mem_cons_of_mem d hmem)) h.2
      exact ⟨by rw [h.1], hrest⟩

/-- The text of names starts with a slash, or there are none. -/
theorem flatMap_slash_head (path : Path) :
    path.flatMap (fun name => '/' :: name) = [] ∨
      (path.flatMap (fun name => '/' :: name)).head? = some '/' := by
  cases path with
  | nil => exact .inl rfl
  | cons name path => exact .inr rfl

/-- A prefix of texts up to a slash is a prefix of names. -/
theorem prefix_of_flatMap_slash {base path : Path} (hbase : ∀ name ∈ base, '/' ∉ name)
    (hpath : ∀ name ∈ path, '/' ∉ name)
    (h : base.flatMap (fun name => '/' :: name) ++ ['/'] <+:
      path.flatMap (fun name => '/' :: name)) : base <+: path := by
  induction base generalizing path with
  | nil => exact List.nil_prefix
  | cons name base ih =>
    cases path with
    | nil => simp at h
    | cons name' path =>
      rw [List.flatMap_cons, List.flatMap_cons, List.cons_append, List.cons_append,
        List.cons_append, List.cons_prefix_cons, List.append_assoc] at h
      have hslash : ∃ rest,
          base.flatMap (fun name => '/' :: name) ++ ['/'] = '/' :: rest := by
        cases base with
        | nil => exact ⟨[], rfl⟩
        | cons first base => exact ⟨_, rfl⟩
      obtain ⟨rest, hrest⟩ := hslash
      rw [hrest] at h
      obtain ⟨rfl, htail⟩ := name_eq_of_prefix (hbase name List.mem_cons_self)
        (hpath name' List.mem_cons_self) (flatMap_slash_head path) h.2
      rw [← hrest] at htail
      rw [List.cons_prefix_cons]
      exact ⟨rfl, ih (fun n hn => hbase n (List.mem_cons_of_mem _ hn))
        (fun n hn => hpath n (List.mem_cons_of_mem _ hn)) htail⟩

/-- The prefix test of the texts is one of the names. -/
theorem prefix_of_display {base path : Path} (hbase : ∀ name ∈ base, '/' ∉ name)
    (hpath : ∀ name ∈ path, '/' ∉ name) (h : display base ++ ['/'] <+: display path) :
    base <+: path := by
  by_cases hnil : base = []
  · rw [hnil]
    exact List.nil_prefix
  · rw [display, if_neg hnil, display] at h
    by_cases hroot : path = []
    · rw [if_pos hroot] at h
      cases base with
      | nil => exact absurd rfl hnil
      | cons name base =>
        have hlen := h.length_le
        simp at hlen
    · rw [if_neg hroot] at h
      exact prefix_of_flatMap_slash hbase hpath h

end Texts

section Containment

variable {tree : FileTree} {maxLinks : ℕ} {cwd root : List Char} {manager : WorktreeManager}
  {path : List Char}

/-- The components of a path text hold no slash. -/
theorem componentsFrom_noSlash {dir : Path} (hdir : ∀ name ∈ dir, '/' ∉ name)
    (text : List Char) : ∀ c ∈ componentsFrom dir text, '/' ∉ c := by
  intro c hc
  rw [componentsFrom] at hc
  split at hc
  · exact notMem_of_mem_splitSlash hc
  · rcases List.mem_append.mp hc with hc | hc
    · exact hdir c hc
    · exact notMem_of_mem_splitSlash hc

/-- A place that is walked to from slash-free components has slash-free names. -/
theorem noSlash_of_realpath {components : List (List Char)} {place : Path}
    (hcomponents : ∀ c ∈ components, '/' ∉ c)
    (h : realpath tree maxLinks components = some place) : ∀ name ∈ place, '/' ∉ name := by
  obtain ⟨found, hfound, rfl⟩ := Option.map_eq_some_iff.mp h
  exact walk_forall (fun _ _ hc _ => notMem_of_mem_splitSlash hc) (by simp)
    (fun c hc _ => hcomponents c hc) hfound

/-- The repository of a manager is a real place with slash-free names. -/
theorem repoRoot_of_new (hnew : WorktreeManager.new tree maxLinks cwd root = some manager) :
    RealPlace tree manager.repoRoot ∧ ∀ name ∈ manager.repoRoot, '/' ∉ name := by
  obtain ⟨place, hplace, rfl⟩ := Option.map_eq_some_iff.mp hnew
  exact ⟨realPlace_of_realpath hplace,
    noSlash_of_realpath (componentsFrom_noSlash (fun _ => notMem_of_mem_splitSlash) root) hplace⟩

/-- The base directory is its own real path. -/
theorem realpath_base (hnew : WorktreeManager.new tree maxLinks cwd root = some manager) :
    realpath tree maxLinks manager.repoRoot.dropLast = some manager.base :=
  (repoRoot_of_new hnew).1.dropLast.realpath maxLinks

/-- Resolution in the text shortens the components that the kernel walks. -/
theorem resolveAgainst_eq (hplain : ∀ name ∈ manager.repoRoot, PlainName name)
    (path : List Char) :
    resolveAgainst manager.repoRoot path =
      (componentsFrom manager.repoRoot path).foldl follow [] := by
  rw [resolveAgainst, resolve, componentsFrom]
  split
  · rfl
  · rw [List.foldl_append, foldl_follow_of_plain [] hplain, List.nil_append]

/-- The checked place has slash-free names. -/
theorem noSlash_resolved (hroot : ∀ name ∈ manager.repoRoot, '/' ∉ name)
    (hplain : ∀ name ∈ manager.repoRoot, PlainName name) :
    ∀ name ∈ manager.resolved tree maxLinks path, '/' ∉ name := by
  have habsolute : ∀ name ∈ resolveAgainst manager.repoRoot path, '/' ∉ name := by
    rw [resolveAgainst_eq hplain]
    exact foldl_follow_forall _ (by simp) (fun c hc _ => componentsFrom_noSlash hroot path c hc)
  intro name hname
  rw [WorktreeManager.resolved, canonicalizeLeafLexical] at hname
  split at hname
  · rename_i realParent hreal
    rcases List.mem_append.mp hname with hname | hname
    · exact noSlash_of_realpath
        (fun c hc => habsolute c ((List.dropLast_sublist _).subset hc)) hreal name hname
    · exact habsolute name (List.mem_of_getLast? (Option.mem_toList.mp hname))
  · exact habsolute name hname

/-- A path that passes the check has its checked place in the base directory. -/
theorem base_prefix_resolved (hroot : ∀ name ∈ manager.repoRoot, '/' ∉ name)
    (hplain : ∀ name ∈ manager.repoRoot, PlainName name)
    (hvalid : manager.validatePathContainment tree maxLinks path = .ok ()) :
    manager.base <+: manager.resolved tree maxLinks path := by
  rw [WorktreeManager.validatePathContainment] at hvalid
  split at hvalid
  · cases hvalid
  · rename_i hpass
    by_cases hbase : manager.resolved tree maxLinks path = manager.base
    · rw [hbase]
    · have hprefix : (display manager.base ++ ['/']).isPrefixOf
          (display (manager.resolved tree maxLinks path)) = true := by
        by_contra hnot
        exact hpass ⟨hbase, Bool.eq_false_iff.mpr hnot⟩
      refine prefix_of_display ?_ (noSlash_resolved hroot hplain) (List.isPrefixOf_iff_prefix.mp hprefix)
      intro name hname
      exact hroot name ((List.dropLast_sublist _).subset hname)

/-- No double dot of the path stands behind a link, the last name of the
shortened path is no link, and none of its names is one where its parent cannot
be resolved. -/
def WorktreeManager.Straight (manager : WorktreeManager) (tree : FileTree) (maxLinks : ℕ)
    (path : List Char) : Prop :=
  NoLinkLeft tree maxLinks (componentsFrom manager.repoRoot path) ∧
    lastIsLink tree maxLinks (resolveAgainst manager.repoRoot path) = false ∧
    (realpath tree maxLinks (resolveAgainst manager.repoRoot path).dropLast = none →
      NoLink tree maxLinks (resolveAgainst manager.repoRoot path))

instance (manager : WorktreeManager) (tree : FileTree) (maxLinks : ℕ) (path : List Char) :
    Decidable (manager.Straight tree maxLinks path) :=
  inferInstanceAs (Decidable (_ ∧ _ ∧ (_ → _)))

/-- A repository with a link to its own parent and one to a directory elsewhere. -/
def linkedRepository : FileTree := fun place =>
  if place = ["w".toList] ∨ place = ["w".toList, "repo".toList] ∨ place = ["etc".toList] ∨
      place = ["etc".toList, "deep".toList] then some .directory
  else if place = ["w".toList, "alias".toList] then some (.link "/w".toList)
  else if place = ["w".toList, "repo".toList, "link".toList] then some (.link "/etc/deep".toList)
  else none

/-- For a straight path the kernel ends at the checked place. -/
theorem eq_resolved_of_actsOn {place : Path} (hplain : ∀ name ∈ manager.repoRoot, PlainName name)
    (hstraight : manager.Straight tree maxLinks path)
    (hacts : manager.actsOn tree maxLinks path = some place) :
    place = manager.resolved tree maxLinks path := by
  obtain ⟨hleft, hlast, hmissing⟩ := hstraight
  obtain ⟨found, hfound, rfl⟩ := Option.map_eq_some_iff.mp hacts
  have hwalk := walk_foldl_follow hleft hfound
  rw [← resolveAgainst_eq hplain path] at hwalk
  have hnames : ∀ name ∈ resolveAgainst manager.repoRoot path, PlainName name := by
    rw [resolveAgainst_eq hplain path]
    exact foldl_follow_forall _ (by simp) (fun _ _ h => h)
  rw [WorktreeManager.resolved, canonicalizeLeafLexical]
  split
  · rename_i realParent hreal
    obtain ⟨parent, hparent, rfl⟩ := Option.map_eq_some_iff.mp hreal
    have hcreate := walk_create hparent
    rcases List.eq_nil_or_concat (resolveAgainst manager.repoRoot path) with hnil | ⟨dir, name, hdir⟩
    · rw [hnil] at hwalk hcreate ⊢
      rw [List.dropLast_nil, hwalk] at hcreate
      rw [← Option.some.inj hcreate]
      simp
    · rw [List.concat_eq_append] at hdir
      rw [hdir] at hwalk hcreate hlast hnames ⊢
      obtain ⟨before, hbefore, rfl⟩ := walk_concat (hnames name (by simp)) hlast hwalk
      rw [List.dropLast_concat, hbefore] at hcreate
      rw [← Option.some.inj hcreate]
      simp
  · rename_i hnone
    rw [walk_of_noLink hnames (hmissing hnone) hwalk]

/-- A straight path that passes the check is acted on inside the real path of
the repository's parent directory. -/
theorem containment_of_straight {place : Path}
    (hnew : WorktreeManager.new tree maxLinks cwd root = some manager)
    (hvalid : manager.validatePathContainment tree maxLinks path = .ok ())
    (hstraight : manager.Straight tree maxLinks path)
    (hacts : manager.actsOn tree maxLinks path = some place) :
    ∃ base, realpath tree maxLinks manager.repoRoot.dropLast = some base ∧ base <+: place := by
  obtain ⟨hreal, hroot⟩ := repoRoot_of_new hnew
  refine ⟨manager.base, realpath_base hnew, ?_⟩
  rw [eq_resolved_of_actsOn hreal.plainName hstraight hacts]
  exact base_prefix_resolved hroot hreal.plainName hvalid

/-- A sibling of the repository is reached through a link to their directory. -/
theorem containment_of_straight_alias :
    ∃ base, realpath linkedRepository 40 ["w".toList] = some base ∧
      base <+: ["w".toList, "wt".toList] := by
  have hnew : WorktreeManager.new linkedRepository 40 "/".toList "/w/repo".toList =
      some ⟨["w".toList, "repo".toList]⟩ := by decide +kernel
  have hvalid : WorktreeManager.validatePathContainment ⟨["w".toList, "repo".toList]⟩
      linkedRepository 40 "../alias/wt".toList = .ok () := by decide +kernel
  have hstraight : WorktreeManager.Straight ⟨["w".toList, "repo".toList]⟩ linkedRepository 40
      "../alias/wt".toList := by decide +kernel
  exact containment_of_straight hnew hvalid hstraight (by decide +kernel)

/-- A path that leaves a link by a double dot passes the check and is acted on
outside the base directory. -/
theorem containment_left_behind_link :
    ∃ (tree : FileTree) (maxLinks : ℕ) (cwd root : List Char) (manager : WorktreeManager)
      (path : List Char) (place : Path),
      WorktreeManager.new tree maxLinks cwd root = some manager ∧
        manager.validatePathContainment tree maxLinks path = .ok () ∧
        manager.actsOn tree maxLinks path = some place ∧
        ¬∃ base, realpath tree maxLinks manager.repoRoot.dropLast = some base ∧
          base <+: place := by
  refine ⟨linkedRepository, 40, "/".toList, "/w/repo".toList, ⟨["w".toList, "repo".toList]⟩,
    "link/../evil".toList, ["etc".toList, "evil".toList], by decide +kernel, by decide +kernel,
    by decide +kernel, ?_⟩
  rintro ⟨base, hbase, hprefix⟩
  have hw : realpath linkedRepository 40 ["w".toList] = some ["w".toList] := by decide +kernel
  obtain rfl := Option.some.inj (hbase.symm.trans hw)
  exact absurd hprefix (by decide +kernel)

end Containment

end Teleprompter.WorktreePaths
