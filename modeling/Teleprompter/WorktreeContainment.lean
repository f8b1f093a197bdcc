import Teleprompter.WorktreePaths

/-!
# Containment without symbolic links

Without symbolic links the containment check looks at the shortened path itself.
It compares texts: the base directory followed by a slash must be a prefix. That
is the test of the components, except for the root directory, whose text ends in
a slash already.
-/

namespace Teleprompter.WorktreeContainment

open LinkedPaths WorktreePaths

section Texts

/-- Further names make a longer text. -/
theorem prefix_display {base path : Path} (hbase : base ≠ []) (hbelow : base <+: path)
    (hne : path ≠ base) : display base ++ ['/'] <+: display path := by
  obtain ⟨rest, rfl⟩ := hbelow
  cases rest with
  | nil => exact absurd (List.append_nil base) hne
  | cons name rest =>
    rw [display, if_neg hbase, display, if_neg (List.append_ne_nil_of_left_ne_nil hbase _),
      List.flatMap_append, List.flatMap_cons]
    exact (List.prefix_append_right_inj _).mpr ⟨name ++ rest.flatMap (fun name => '/' :: name), rfl⟩

/-- The text test below a directory other than the root is the one of the components. -/
theorem prefix_display_iff {base path : Path} (hbase : base ≠ [])
    (hnames : ∀ name ∈ base, '/' ∉ name) (hpath : ∀ name ∈ path, '/' ∉ name) (hne : path ≠ base) :
    display base ++ ['/'] <+: display path ↔ base <+: path :=
  ⟨prefix_of_display hnames hpath, fun hbelow => prefix_display hbase hbelow hne⟩

/-- No text starts with two slashes. -/
theorem not_prefix_display_root {path : Path} (hplain : ∀ name ∈ path, PlainName name)
    (hpath : ∀ name ∈ path, '/' ∉ name) : ¬display [] ++ ['/'] <+: display path := by
  cases path with
  | nil => decide
  | cons name rest =>
    rw [display, if_pos rfl, display, if_neg (List.cons_ne_nil name rest), List.flatMap_cons]
    cases name with
    | nil => exact absurd (.inl rfl) (hplain [] List.mem_cons_self).1
    | cons c name =>
      intro hbelow
      rw [List.singleton_append, List.cons_append, List.cons_append, List.cons_prefix_cons,
        List.cons_prefix_cons] at hbelow
      exact hpath _ List.mem_cons_self (hbelow.2.1 ▸ List.mem_cons_self)

end Texts

section Containment

variable {tree tree' : FileTree} {maxLinks : ℕ} {cwd root : List Char} {manager : WorktreeManager}

/-- Without links the check looks at the shortened path. -/
theorem resolved_of_linkless (h : Linkless tree) (maxLinks : ℕ)
    (hplain : ∀ name ∈ manager.repoRoot, PlainName name) (path : List Char) :
    manager.resolved tree maxLinks path = resolveAgainst manager.repoRoot path := by
  have hnames : ∀ name ∈ resolveAgainst manager.repoRoot path, PlainName name := by
    rw [resolveAgainst_eq hplain path]
    exact foldl_follow_forall _ (by simp) (fun _ _ h => h)
  rw [WorktreeManager.resolved, canonicalizeLeafLexical]
  split
  · rename_i realParent hreal
    rw [realpath_of_linkless h (fun name hname => hnames name (List.mem_of_mem_dropLast hname)) hreal]
    rcases List.eq_nil_or_concat (resolveAgainst manager.repoRoot path) with hnil | ⟨dir, name, hdir⟩
    · rw [hnil]
      rfl
    · rw [hdir, List.concat_eq_append, List.dropLast_concat, List.getLast?_concat]
      rfl
  · rfl

/-- A path is accepted when it is the base directory, or its text continues that of it. -/
theorem validatePathContainment_iff (path : List Char) :
    manager.validatePathContainment tree maxLinks path = .ok () ↔
      manager.resolved tree maxLinks path = manager.base ∨
        display manager.base ++ ['/'] <+: display (manager.resolved tree maxLinks path) := by
  rw [WorktreeManager.validatePathContainment, ← List.isPrefixOf_iff_prefix]
  split
  · rename_i hrefused
    refine iff_of_false (fun hok => by cases hok) ?_
    rintro (hbase | hbelow)
    · exact hrefused.1 hbase
    · exact Bool.false_ne_true (hrefused.2.symm.trans hbelow)
  · rename_i haccepted
    refine iff_of_true rfl ?_
    by_cases hbase : manager.resolved tree maxLinks path = manager.base
    · exact .inl hbase
    · exact .inr (Bool.of_not_eq_false fun hbelow => haccepted ⟨hbase, hbelow⟩)

/-- Without links a path is accepted when it is in the base directory, unless that is the
root directory; then only the root directory is accepted. -/
theorem accepts_iff (hnew : WorktreeManager.new tree' maxLinks cwd root = some manager)
    (hlinkless : Linkless tree) (path : List Char) :
    manager.validatePathContainment tree maxLinks path = .ok () ↔
      manager.base <+: resolveAgainst manager.repoRoot path ∧
        (manager.base = [] → resolveAgainst manager.repoRoot path = []) := by
  obtain ⟨hreal, hslash⟩ := repoRoot_of_new hnew
  have hplain := hreal.plainName
  have hresolved := resolved_of_linkless hlinkless maxLinks hplain path
  have hnames : ∀ name ∈ resolveAgainst manager.repoRoot path, PlainName name ∧ '/' ∉ name := by
    intro name hname
    constructor
    · rw [resolveAgainst_eq hplain path] at hname
      exact foldl_follow_forall _ (by simp) (fun _ _ h => h) name hname
    · rw [← hresolved] at hname
      exact noSlash_resolved hslash hplain name hname
  rw [validatePathContainment_iff, hresolved]
  by_cases hbase : manager.base = []
  · have hroot : ¬display manager.base ++ ['/'] <+: display (resolveAgainst manager.repoRoot path) := by
      rw [hbase]
      exact not_prefix_display_root (fun name hname => (hnames name hname).1)
        (fun name hname => (hnames name hname).2)
    rw [or_iff_left hroot, hbase]
    exact ⟨fun h => ⟨List.nil_prefix, fun _ => h⟩, fun h => h.2 rfl⟩
  · have hbaseNames : ∀ name ∈ manager.base, '/' ∉ name := fun name hname =>
      hslash name (List.mem_of_mem_dropLast hname)
    rw [and_iff_left fun hnil => absurd hnil hbase]
    by_cases hsame : resolveAgainst manager.repoRoot path = manager.base
    · rw [hsame]
      exact iff_of_true (.inl rfl) (List.prefix_refl _)
    · rw [or_iff_right hsame]
      exact prefix_display_iff hbase hbaseNames (fun name hname => (hnames name hname).2) hsame

/-- Without links the check is exact for a path unless the repository lies in the root
directory and the path is below that. -/
theorem containment_exact_iff (hnew : WorktreeManager.new tree' maxLinks cwd root = some manager)
    (hlinkless : Linkless tree) (path : List Char) :
    (manager.validatePathContainment tree maxLinks path = .ok () ↔
        manager.base <+: resolveAgainst manager.repoRoot path) ↔
      (manager.base = [] → resolveAgainst manager.repoRoot path = []) := by
  rw [accepts_iff hnew hlinkless]
  constructor
  · intro h hbase
    exact (h.mpr (hbase ▸ List.nil_prefix)).2 hbase
  · intro h
    exact and_iff_left h

/-- A tree with the given directories only. -/
def directories (places : List Path) : FileTree := fun place =>
  if place ∈ places then some .directory else none

theorem linkless_directories (places : List Path) : Linkless (directories places) := by
  intro place target h
  unfold directories at h
  split at h
  · cases h
  · cases h

/-- A sibling of a repository in a directory of its own is accepted, with dots and
slashes in its text. -/
theorem containment_exact_sibling :
    WorktreeManager.validatePathContainment ⟨["w".toList, "repo".toList]⟩
        (directories [["w".toList], ["w".toList, "repo".toList]]) 40 "..//./wt/".toList = .ok () ↔
      ["w".toList] <+: resolveAgainst ["w".toList, "repo".toList] "..//./wt/".toList := by
  have hnew : WorktreeManager.new (directories [["w".toList], ["w".toList, "repo".toList]]) 40
      "/".toList "/w/repo".toList = some ⟨["w".toList, "repo".toList]⟩ := by decide +kernel
  exact (containment_exact_iff hnew (linkless_directories _) _).mpr fun hnil => by
    exact absurd hnil (by decide)

/-- A sibling of a repository in the root directory is refused. -/
theorem containment_refuses_in_root :
    ∃ manager, WorktreeManager.new (directories [["repo".toList]]) 40 "/".toList "/repo".toList =
        some manager ∧
      Linkless (directories [["repo".toList]]) ∧
      realpath (directories [["repo".toList]]) 40
        (resolveAgainst manager.repoRoot "../wt".toList).dropLast = some [] ∧
      manager.base <+: resolveAgainst manager.repoRoot "../wt".toList ∧
      manager.validatePathContainment (directories [["repo".toList]]) 40 "../wt".toList ≠ .ok () := by
  exact ⟨⟨["repo".toList]⟩, by decide +kernel, linkless_directories _, by decide +kernel,
    by decide +kernel, by decide +kernel⟩

end Containment

end Teleprompter.WorktreeContainment
