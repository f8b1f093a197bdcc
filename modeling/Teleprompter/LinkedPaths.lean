import Mathlib.Data.List.Basic
import Mathlib.Data.List.Induction
import Mathlib.Data.List.Infix

/-!
# Paths in a file tree with symbolic links

A path text is split at its slashes. Empty and single-dot components are skipped, a
double dot leaves the directory, and a text that starts with a slash starts at the
root. What it resolves to without regard to links is the chain of names from the root
to the file.

The kernel walks a path component by component. It follows a symbolic link
where it meets it, and only then applies what comes behind, so a double dot
behind a link leaves the directory that the link leads to. A walk follows a
limited number of links. Where it may create, a missing component is walked as
the directory that would be made for it. Without a link before a double dot, a
walk ends where the walk of the shortened path ends.
-/

namespace Teleprompter.LinkedPaths



section Texts

/-- Names from the root to a file. -/
abbrev Path := List (List Char)

/-- Pieces of a text between its slashes. -/
def splitSlash : List Char → List (List Char)
  | [] => [[]]
  | c :: text =>
    if c = '/' then [] :: splitSlash text
    else
      match splitSlash text with
      | [] => [[c]]
      | piece :: pieces => (c :: piece) :: pieces

/-- Follow one component from a directory. -/
def follow (dir : Path) (component : List Char) : Path :=
  if component = [] ∨ component = ['.'] then dir
  else if component = ['.', '.'] then dir.dropLast
  else dir ++ [component]

/-- The file that a path text names, seen from a directory. -/
def resolve (dir : Path) (text : List Char) : Path :=
  (splitSlash text).foldl follow (if text.head? = some '/' then [] else dir)

/-- A file directly in a directory. -/
def DirectChild (dir path : Path) : Prop := ∃ name, path = dir ++ [name]

/-- Being a direct child can be evaluated. -/
theorem directChild_iff (dir path : Path) :
    DirectChild dir path ↔ path ≠ [] ∧ path.dropLast = dir := by
  constructor
  · rintro ⟨name, rfl⟩
    exact ⟨List.append_ne_nil_of_right_ne_nil _ (List.cons_ne_nil _ _), List.dropLast_concat⟩
  · rintro ⟨hne, hdir⟩
    refine ⟨path.getLast hne, ?_⟩
    rw [← hdir, List.dropLast_append_getLast]

instance (dir path : Path) : Decidable (DirectChild dir path) :=
  decidable_of_iff _ (directChild_iff dir path).symm

/-- A text without a slash is one piece. -/
theorem splitSlash_of_notMem {text : List Char} (h : '/' ∉ text) : splitSlash text = [text] := by
  induction text with
  | nil => rfl
  | cons c text ih =>
    have hc : c ≠ '/' := fun heq => h (heq ▸ List.mem_cons_self)
    have htail := ih (fun hmem => h (List.mem_cons_of_mem c hmem))
    rw [splitSlash, if_neg hc, htail]

/-- A longer name without a slash is looked up in the directory itself. -/
theorem resolve_of_notMem {dir : Path} {text : List Char} (h : '/' ∉ text)
    (hlong : 2 < text.length) : resolve dir text = dir ++ [text] := by
  have hhead : text.head? ≠ some '/' := fun heq => h (List.mem_of_mem_head? heq)
  have hempty : ¬(text = [] ∨ text = ['.']) := by
    rintro (rfl | rfl)
    · simp at hlong
    · simp at hlong
  have hparent : text ≠ ['.', '.'] := by
    rintro rfl
    simp at hlong
  rw [resolve, if_neg hhead, splitSlash_of_notMem h, List.foldl_cons, List.foldl_nil, follow,
    if_neg hempty, if_neg hparent]

example : resolve [['v'], ['s']] ['.', '.', '/', 'e'] = [['v'], ['e']] := by decide

end Texts

/-- What a name in a directory stands for. -/
inductive Entry where
  | directory
  | file
  | link (target : List Char)
  deriving DecidableEq

/-- What is found under the names from the root; the root is a directory. -/
abbrev FileTree := Path → Option Entry

/-- What one component leads to. -/
inductive Taken where
  | entered (place : Path)
  | link (target : List Char)
  | failed
  deriving DecidableEq

/-- Take one component from a directory. Nothing is found behind a file. -/
def takeComponent (tree : FileTree) (create : Bool) (dir : Path) (component : List Char) : Taken :=
  if tree dir = some .file then .failed
  else if component = [] ∨ component = ['.'] then .entered dir
  else if component = ['.', '.'] then .entered dir.dropLast
  else
    match tree (dir ++ [component]) with
    | some (.link target) => .link target
    | some _ => .entered (dir ++ [component])
    | none => if create then .entered (dir ++ [component]) else .failed

/-- Where a walk is interrupted first. -/
inductive Passed where
  | arrived (place : Path)
  /-- A link in a directory, with the components behind it. -/
  | met (dir : Path) (target : List Char) (rest : List (List Char))
  | failed
  deriving DecidableEq

/-- Walk up to the first link. -/
def passPlain (tree : FileTree) (create : Bool) : Path → List (List Char) → Passed
  | dir, [] => .arrived dir
  | dir, component :: rest =>
    match takeComponent tree create dir component with
    | .entered place => passPlain tree create place rest
    | .link target => .met dir target rest
    | .failed => .failed

/-- Where the walk of a link's target starts. -/
def linkStart (dir : Path) (target : List Char) : Path :=
  if target.head? = some '/' then [] else dir

/-- The place where a walk ends, with the number of links it could still have
followed. -/
def walk (tree : FileTree) (create : Bool) : ℕ → Path → List (List Char) → Option (ℕ × Path)
  | 0, dir, components =>
    match passPlain tree create dir components with
    | .arrived place => some (0, place)
    | _ => none
  | links + 1, dir, components =>
    match passPlain tree create dir components with
    | .arrived place => some (links + 1, place)
    | .met dir' target rest =>
      walk tree create links (linkStart dir' target) (splitSlash target ++ rest)
    | .failed => none

/-- The place of an existing file, free of links. -/
def realpath (tree : FileTree) (maxLinks : ℕ) (components : List (List Char)) : Option Path :=
  (walk tree false maxLinks [] components).map Prod.snd

/-- The last component is, where the kernel meets it, a symbolic link. -/
def lastIsLink (tree : FileTree) (maxLinks : ℕ) (path : Path) : Bool :=
  match path.getLast? with
  | none => false
  | some name =>
    match walk tree true maxLinks [] path.dropLast with
    | none => false
    | some found =>
      match tree (found.2 ++ [name]) with
      | some (.link _) => true
      | _ => false

section Components

/-- A name that a directory can hold. -/
def PlainName (name : List Char) : Prop := ¬(name = [] ∨ name = ['.']) ∧ name ≠ ['.', '.']

/-- Following a plain name enters it. -/
theorem follow_of_plainName (dir : Path) {name : List Char} (hname : PlainName name) :
    follow dir name = dir ++ [name] := by
  rw [follow, if_neg hname.1, if_neg hname.2]

/-- The three ways of a component. -/
theorem component_cases (component : List Char) :
    (component = [] ∨ component = ['.']) ∨ component = ['.', '.'] ∨ PlainName component := by
  by_cases hskip : component = [] ∨ component = ['.']
  · exact .inl hskip
  · by_cases hup : component = ['.', '.']
    · exact .inr (.inl hup)
    · exact .inr (.inr ⟨hskip, hup⟩)

/-- A component keeps the names of a directory, or adds itself when it is plain. -/
theorem follow_forall {p : List Char → Prop} {dir : Path} {component : List Char}
    (hdir : ∀ name ∈ dir, p name) (hcomponent : PlainName component → p component) :
    ∀ name ∈ follow dir component, p name := by
  rcases component_cases component with hskip | rfl | hplain
  · rw [follow, if_pos hskip]
    exact hdir
  · intro name hname
    exact hdir name ((List.dropLast_sublist dir).subset hname)
  · rw [follow_of_plainName dir hplain]
    intro name hname
    rcases List.mem_append.mp hname with hmem | hmem
    · exact hdir name hmem
    · rw [List.mem_singleton.mp hmem]
      exact hcomponent hplain

/-- Resolution keeps what holds of the directory's names and of every plain
component. -/
theorem foldl_follow_forall {p : List Char → Prop} (components : List (List Char)) {dir : Path}
    (hdir : ∀ name ∈ dir, p name) (hcomponents : ∀ c ∈ components, PlainName c → p c) :
    ∀ name ∈ components.foldl follow dir, p name := by
  induction components generalizing dir with
  | nil => exact hdir
  | cons c components ih =>
    refine ih (follow_forall hdir (hcomponents c List.mem_cons_self)) ?_
    intro c' hmem
    exact hcomponents c' (List.mem_cons_of_mem c hmem)

/-- Plain names resolve to themselves. -/
theorem foldl_follow_of_plain (dir : Path) {names : Path} (hplain : ∀ name ∈ names, PlainName name) :
    names.foldl follow dir = dir ++ names := by
  induction names generalizing dir with
  | nil => simp
  | cons name names ih =>
    rw [List.foldl_cons, follow_of_plainName dir (hplain name List.mem_cons_self),
      ih (dir ++ [name]) (fun n hn => hplain n (List.mem_cons_of_mem name hn)),
      List.append_assoc, List.singleton_append]

/-- A piece between slashes holds no slash. -/
theorem notMem_of_mem_splitSlash {text piece : List Char} (h : piece ∈ splitSlash text) :
    '/' ∉ piece := by
  induction text generalizing piece with
  | nil =>
    rw [splitSlash, List.mem_singleton] at h
    simp [h]
  | cons c text ih =>
    rw [splitSlash] at h
    by_cases hc : c = '/'
    · rw [if_pos hc, List.mem_cons] at h
      rcases h with rfl | h
      · simp
      · exact ih h
    · rw [if_neg hc] at h
      cases hrest : splitSlash text with
      | nil =>
        rw [hrest] at h
        simp only [List.mem_singleton] at h
        simpa [h] using fun heq => hc heq.symm
      | cons first pieces =>
        rw [hrest] at h ih
        simp only [List.mem_cons] at h
        rcases h with rfl | h
        · have hfirst := ih List.mem_cons_self
          simp only [List.mem_cons, not_or]
          exact ⟨fun heq => hc heq.symm, hfirst⟩
        · exact ih (List.mem_cons_of_mem first h)

end Components

section Walks

variable {tree : FileTree} {create : Bool}

/-- Continue a walk where it was interrupted or arrived. -/
def Passed.andThen (tree : FileTree) (create : Bool) (components : List (List Char)) :
    Passed → Passed
  | .arrived place => passPlain tree create place components
  | .met dir target rest => .met dir target (rest ++ components)
  | .failed => .failed

/-- A component that is entered costs no link. -/
theorem walk_entered {links : ℕ} {dir place : Path} {component : List Char}
    (h : takeComponent tree create dir component = .entered place) :
    walk tree create links dir [component] = some (links, place) := by
  have hpass : passPlain tree create dir [component] = .arrived place := by simp [passPlain, h]
  cases links with
  | zero => rw [walk, hpass]
  | succ links => rw [walk, hpass]

/-- Walking two lists of components is walking one and then the other. -/
theorem passPlain_append (dir : Path) (xs ys : List (List Char)) :
    passPlain tree create dir (xs ++ ys) = (passPlain tree create dir xs).andThen tree create ys := by
  induction xs generalizing dir with
  | nil => rfl
  | cons c xs ih =>
    rw [List.cons_append, passPlain, passPlain]
    cases takeComponent tree create dir c with
    | entered place => exact ih place
    | link target => rfl
    | failed => rfl

/-- A walk of no components stays. -/
@[simp]
theorem walk_nil (links : ℕ) (dir : Path) :
    walk tree create links dir [] = some (links, dir) := by
  cases links with
  | zero => rfl
  | succ links => rfl

/-- Following links commutes with walking two lists one after the other. -/
theorem walk_append (links : ℕ) (dir : Path) (xs ys : List (List Char)) :
    walk tree create links dir (xs ++ ys) =
      (walk tree create links dir xs).bind fun found => walk tree create found.1 found.2 ys := by
  induction links generalizing dir xs with
  | zero =>
    rw [walk, walk, passPlain_append]
    cases passPlain tree create dir xs with
    | arrived place => rfl
    | met dir' target rest => rfl
    | failed => rfl
  | succ links ih =>
    rw [walk, walk, passPlain_append]
    cases passPlain tree create dir xs with
    | arrived place => rfl
    | met dir' target rest =>
      simp only [Passed.andThen]
      rw [← List.append_assoc]
      exact ih (linkStart dir' target) (splitSlash target ++ rest)
    | failed => rfl

/-- What is found without creating is found the same way with creating. -/
theorem takeComponent_create {dir : Path} {component : List Char}
    (h : takeComponent tree false dir component ≠ .failed) :
    takeComponent tree true dir component = takeComponent tree false dir component := by
  cases hentry : tree (dir ++ [component]) with
  | none =>
    simp only [takeComponent, hentry] at h ⊢
    split
    · rfl
    · split
      · rfl
      · split
        · rfl
        · simp_all
  | some entry =>
    cases entry with
    | directory => simp only [takeComponent, hentry]
    | file => simp only [takeComponent, hentry]
    | link target => simp only [takeComponent, hentry]

/-- What is passed without creating is passed the same way with creating. -/
theorem passPlain_create {dir : Path} {components : List (List Char)}
    (h : passPlain tree false dir components ≠ .failed) :
    passPlain tree true dir components = passPlain tree false dir components := by
  induction components generalizing dir with
  | nil => rfl
  | cons c components ih =>
    rw [passPlain] at h ⊢
    rw [passPlain]
    cases htaken : takeComponent tree false dir c with
    | entered place =>
      rw [htaken] at h
      rw [takeComponent_create (by simp [htaken]), htaken]
      exact ih h
    | link target => rw [takeComponent_create (by simp [htaken]), htaken]
    | failed =>
      rw [htaken] at h
      exact absurd rfl h

/-- An existing place is also found by a walk that may create. -/
theorem walk_create {links : ℕ} {dir : Path} {components : List (List Char)} {found : ℕ × Path}
    (h : walk tree false links dir components = some found) :
    walk tree true links dir components = some found := by
  induction links generalizing dir components with
  | zero =>
    rw [walk] at h ⊢
    cases hpassed : passPlain tree false dir components with
    | arrived place =>
      rw [hpassed] at h
      rw [passPlain_create (by simp [hpassed]), hpassed]
      exact h
    | met dir' target rest => simp [hpassed] at h
    | failed => simp [hpassed] at h
  | succ links ih =>
    rw [walk] at h ⊢
    cases hpassed : passPlain tree false dir components with
    | arrived place =>
      rw [hpassed] at h
      rw [passPlain_create (by simp [hpassed]), hpassed]
      exact h
    | met dir' target rest =>
      rw [hpassed] at h
      rw [passPlain_create (by simp [hpassed]), hpassed]
      exact ih h
    | failed => simp [hpassed] at h

/-- A component that is entered is followed. -/
theorem eq_follow_of_takeComponent {dir place : Path} {component : List Char}
    (h : takeComponent tree create dir component = .entered place) :
    place = follow dir component := by
  rw [takeComponent] at h
  rw [follow]
  split at h
  · cases h
  · split at h
    · rename_i hskip
      rw [if_pos hskip]
      exact (Taken.entered.inj h).symm
    · rename_i hskip
      rw [if_neg hskip]
      split at h
      · rename_i hup
        rw [if_pos hup]
        exact (Taken.entered.inj h).symm
      · rename_i hup
        rw [if_neg hup]
        split at h
        · cases h
        · exact (Taken.entered.inj h).symm
        · split at h
          · exact (Taken.entered.inj h).symm
          · cases h

/-- Walking up to the first link keeps what holds of the names of the
directory and of every plain component, and leaves the components behind it. -/
theorem passPlain_forall {p : List Char → Prop} (components : List (List Char)) {dir : Path}
    (hdir : ∀ name ∈ dir, p name) (hcomponents : ∀ c ∈ components, PlainName c → p c) :
    (∀ place, passPlain tree create dir components = .arrived place → ∀ name ∈ place, p name) ∧
      ∀ dir' target rest, passPlain tree create dir components = .met dir' target rest →
        (∀ name ∈ dir', p name) ∧ ∀ c ∈ rest, PlainName c → p c := by
  induction components generalizing dir with
  | nil =>
    refine ⟨?_, by simp [passPlain]⟩
    intro place hplace
    rw [passPlain] at hplace
    rw [← Passed.arrived.inj hplace]
    exact hdir
  | cons c components ih =>
    have hrest : ∀ c' ∈ components, PlainName c' → p c' :=
      fun c' hmem => hcomponents c' (List.mem_cons_of_mem c hmem)
    rw [passPlain]
    cases htaken : takeComponent tree create dir c with
    | entered place =>
      have hplace := follow_forall hdir (hcomponents c List.mem_cons_self)
      rw [← eq_follow_of_takeComponent htaken] at hplace
      exact ih hplace hrest
    | link target =>
      refine ⟨by simp, ?_⟩
      intro dir' target' rest hmet
      obtain ⟨rfl, -, rfl⟩ := Passed.met.inj hmet
      exact ⟨hdir, hrest⟩
    | failed => exact ⟨by simp, by simp⟩

/-- A walk keeps what holds of the names of its start, of every plain component
and of every piece of a link's target. -/
theorem walk_forall {p : List Char → Prop} (hpieces : ∀ text, ∀ c ∈ splitSlash text, PlainName c → p c)
    {links : ℕ} {dir : Path} {components : List (List Char)} {found : ℕ × Path}
    (hdir : ∀ name ∈ dir, p name) (hcomponents : ∀ c ∈ components, PlainName c → p c)
    (h : walk tree create links dir components = some found) : ∀ name ∈ found.2, p name := by
  induction links generalizing dir components with
  | zero =>
    rw [walk] at h
    cases hpassed : passPlain tree create dir components with
    | arrived place =>
      rw [hpassed] at h
      rw [← Option.some.inj h]
      exact (passPlain_forall components hdir hcomponents).1 place hpassed
    | met dir' target rest => simp [hpassed] at h
    | failed => simp [hpassed] at h
  | succ links ih =>
    rw [walk] at h
    cases hpassed : passPlain tree create dir components with
    | arrived place =>
      rw [hpassed] at h
      rw [← Option.some.inj h]
      exact (passPlain_forall components hdir hcomponents).1 place hpassed
    | met dir' target rest =>
      rw [hpassed] at h
      obtain ⟨hdir', hrest⟩ := (passPlain_forall components hdir hcomponents).2 dir' target rest hpassed
      refine ih ?_ ?_ h
      · rw [linkStart]
        split
        · simp
        · exact hdir'
      · intro c hc
        rcases List.mem_append.mp hc with hc | hc
        · exact hpieces target c hc
        · exact hrest c hc
    | failed => simp [hpassed] at h

end Walks

section Links

variable {tree : FileTree} {maxLinks : ℕ}

/-- A component leads to a link only where a plain name is one. -/
theorem eq_link_of_takeComponent {create : Bool} {dir : Path} {component target : List Char}
    (h : takeComponent tree create dir component = .link target) :
    PlainName component ∧ tree (dir ++ [component]) = some (.link target) := by
  rw [takeComponent] at h
  split at h
  · cases h
  · split at h
    · cases h
    · rename_i hskip
      split at h
      · cases h
      · rename_i hup
        refine ⟨⟨hskip, hup⟩, ?_⟩
        split at h
        · rename_i hentry
          rw [hentry, Taken.link.inj h]
        · cases h
        · split at h
          · cases h
          · cases h

/-- A component that is no link is followed and costs no link. -/
theorem walk_singleton {create : Bool} {links : ℕ} {dir : Path} {component : List Char}
    {found : ℕ × Path} (hlink : ∀ target, takeComponent tree create dir component ≠ .link target)
    (h : walk tree create links dir [component] = some found) :
    found = (links, follow dir component) := by
  cases htaken : takeComponent tree create dir component with
  | entered place =>
    have hpass : passPlain tree create dir [component] = .arrived place := by
      simp [passPlain, htaken]
    have hplace := eq_follow_of_takeComponent htaken
    cases links with
    | zero =>
      rw [walk, hpass] at h
      rw [← hplace]
      exact (Option.some.inj h).symm
    | succ links =>
      rw [walk, hpass] at h
      rw [← hplace]
      exact (Option.some.inj h).symm
  | link target => exact absurd htaken (hlink target)
  | failed =>
    have hpass : passPlain tree create dir [component] = .failed := by
      simp [passPlain, htaken]
    cases links with
    | zero => simp [walk, hpass] at h
    | succ links => simp [walk, hpass] at h

/-- A plain last component that is no link is entered where the walk has come. -/
theorem walk_concat {path : Path} {name : List Char} {found : ℕ × Path} (hname : PlainName name)
    (hlink : lastIsLink tree maxLinks (path ++ [name]) = false)
    (h : walk tree true maxLinks [] (path ++ [name]) = some found) :
    ∃ before, walk tree true maxLinks [] path = some before ∧
      found = (before.1, before.2 ++ [name]) := by
  rw [walk_append] at h
  obtain ⟨before, hbefore, hlast⟩ := Option.bind_eq_some_iff.mp h
  have hentry : ∀ target, takeComponent tree true before.2 name ≠ .link target := by
    intro target htaken
    simp [lastIsLink, hbefore, (eq_link_of_takeComponent htaken).2] at hlink
  refine ⟨before, hbefore, ?_⟩
  rw [walk_singleton hentry hlast, follow_of_plainName before.2 hname]

/-- A component that is not plain leads to no link. -/
theorem takeComponent_ne_link {create : Bool} {dir : Path} {component : List Char}
    (h : ¬PlainName component) (target : List Char) :
    takeComponent tree create dir component ≠ .link target :=
  fun htaken => h (eq_link_of_takeComponent htaken).1

/-- No double dot of the components stands behind a link. -/
def NoLinkLeft (tree : FileTree) (maxLinks : ℕ) (components : List (List Char)) : Prop :=
  ∀ front ∈ components.inits, front.getLast? = some ['.', '.'] →
    lastIsLink tree maxLinks (front.dropLast.foldl follow []) = false

instance (components : List (List Char)) : Decidable (NoLinkLeft tree maxLinks components) :=
  inferInstanceAs (Decidable (∀ front ∈ components.inits, _ → _))

/-- No name of a path is a link. -/
def NoLink (tree : FileTree) (maxLinks : ℕ) (path : Path) : Prop :=
  ∀ front ∈ path.inits, lastIsLink tree maxLinks front = false

instance (path : Path) : Decidable (NoLink tree maxLinks path) :=
  inferInstanceAs (Decidable (∀ front ∈ path.inits, _))

/-- A longer list has every front of a shorter one. -/
theorem mem_inits_append {front xs : List (List Char)} (ys : List (List Char))
    (h : front ∈ xs.inits) : front ∈ (xs ++ ys).inits :=
  (List.mem_inits _ _).mpr (((List.mem_inits _ _).mp h).trans (List.prefix_append xs ys))

/-- A walk that leaves no link ends where the walk of the shortened path ends. -/
theorem walk_foldl_follow {components : List (List Char)} {found : ℕ × Path}
    (hleft : NoLinkLeft tree maxLinks components)
    (h : walk tree true maxLinks [] components = some found) :
    walk tree true maxLinks [] (components.foldl follow []) = some found := by
  induction components using List.reverseRecOn generalizing found with
  | nil => exact h
  | append_singleton components c ih =>
    rw [walk_append] at h
    obtain ⟨before, hbefore, hlast⟩ := Option.bind_eq_some_iff.mp h
    have hshort := ih (fun front hfront => hleft front (mem_inits_append [c] hfront)) hbefore
    rw [List.foldl_append, List.foldl_cons, List.foldl_nil]
    rcases component_cases c with hskip | rfl | hplain
    · have hnot : ¬PlainName c := fun hplain => hplain.1 hskip
      rw [walk_singleton (takeComponent_ne_link hnot) hlast, follow, if_pos hskip, hshort,
        follow, if_pos hskip]
    · have hnot : ¬PlainName ['.', '.'] := fun hplain => hplain.2 rfl
      rw [walk_singleton (takeComponent_ne_link hnot) hlast]
      have hlink := hleft (components ++ [['.', '.']]) ((List.mem_inits _ _).mpr (List.prefix_refl _))
        (by simp)
      rw [List.dropLast_concat] at hlink
      have hnames : ∀ name ∈ components.foldl follow [], PlainName name :=
        foldl_follow_forall components (by simp) (fun _ _ hplain => hplain)
      rcases List.eq_nil_or_concat (components.foldl follow []) with hnil | ⟨path, name, hpath⟩
      · rw [hnil, walk_nil] at hshort
        rw [hnil, ← Option.some.inj hshort]
        exact walk_nil _ _
      · rw [List.concat_eq_append] at hpath
        rw [hpath] at hshort hlink hnames ⊢
        obtain ⟨parent, hparent, rfl⟩ := walk_concat (hnames name (by simp)) hlink hshort
        have hup : ∀ dir : Path, follow dir ['.', '.'] = dir.dropLast := fun dir => rfl
        rw [hup, hup, List.dropLast_concat, List.dropLast_concat, hparent]
    · rw [follow_of_plainName _ hplain, walk_append, hshort]
      exact hlast

/-- A path none of whose names is a link is its own place. -/
theorem walk_of_noLink {path : Path} {found : ℕ × Path} (hplain : ∀ name ∈ path, PlainName name)
    (hlinks : NoLink tree maxLinks path)
    (h : walk tree true maxLinks [] path = some found) : found = (maxLinks, path) := by
  induction path using List.reverseRecOn generalizing found with
  | nil =>
    rw [walk_nil] at h
    exact (Option.some.inj h).symm
  | append_singleton path name ih =>
    obtain ⟨before, hbefore, rfl⟩ :=
      walk_concat (hplain name (by simp)) (hlinks _ ((List.mem_inits _ _).mpr (List.prefix_refl _))) h
    rw [ih (fun n hn => hplain n (List.mem_append_left _ hn))
      (fun front hfront => hlinks front (mem_inits_append [name] hfront)) hbefore]

end Links

section RealPlaces

variable {tree : FileTree}

/-- A place that exists under its own names, without a link on the way. -/
def RealPlace (tree : FileTree) (place : Path) : Prop :=
  passPlain tree false [] place = .arrived place

/-- The names of a real place are plain. -/
theorem RealPlace.plainName {place : Path} (hreal : RealPlace tree place) :
    ∀ name ∈ place, PlainName name :=
  (passPlain_forall place (by simp) (fun _ _ hplain => hplain)).1 place hreal

/-- The directory of a real place is real. -/
theorem RealPlace.dropLast {place : Path} (hreal : RealPlace tree place) :
    RealPlace tree place.dropLast := by
  rcases List.eq_nil_or_concat place with rfl | ⟨path, name, rfl⟩
  · exact hreal
  · have hname := hreal.plainName name (by simp)
    rw [List.concat_eq_append] at hreal ⊢
    rw [RealPlace, passPlain_append] at hreal
    rw [List.dropLast_concat, RealPlace]
    cases hpassed : passPlain tree false [] path with
    | arrived before =>
      rw [hpassed, Passed.andThen, passPlain] at hreal
      cases htaken : takeComponent tree false before name with
      | entered place =>
        simp only [htaken] at hreal
        rw [passPlain, eq_follow_of_takeComponent htaken, follow_of_plainName before hname] at hreal
        rw [List.append_cancel_right (Passed.arrived.inj hreal)]
      | link target => simp [htaken] at hreal
      | failed => simp [htaken] at hreal
    | met dir target rest => simp [hpassed, Passed.andThen] at hreal
    | failed => simp [hpassed, Passed.andThen] at hreal

/-- A component entered from a real place without creating leads to a real
place. -/
theorem RealPlace.takeComponent {dir place : Path} {component : List Char}
    (hreal : RealPlace tree dir) (h : takeComponent tree false dir component = .entered place) :
    RealPlace tree place := by
  have hfollow := eq_follow_of_takeComponent h
  rcases component_cases component with hskip | rfl | hplain
  · rw [hfollow, follow, if_pos hskip]
    exact hreal
  · rw [hfollow]
    exact hreal.dropLast
  · rw [follow_of_plainName dir hplain] at hfollow
    rw [hfollow, RealPlace, passPlain_append, hreal, Passed.andThen, passPlain, h, ← hfollow]
    rfl

/-- Walking from a real place up to the first link leads to a real place. -/
theorem RealPlace.passPlain {dir : Path} (components : List (List Char))
    (hreal : RealPlace tree dir) :
    (∀ place, passPlain tree false dir components = .arrived place → RealPlace tree place) ∧
      ∀ dir' target rest, passPlain tree false dir components = .met dir' target rest →
        RealPlace tree dir' := by
  induction components generalizing dir with
  | nil =>
    refine ⟨?_, by simp [LinkedPaths.passPlain]⟩
    intro place hplace
    rw [LinkedPaths.passPlain] at hplace
    rwa [← Passed.arrived.inj hplace]
  | cons c components ih =>
    rw [LinkedPaths.passPlain]
    cases htaken : LinkedPaths.takeComponent tree false dir c with
    | entered place => exact ih (hreal.takeComponent htaken)
    | link target =>
      refine ⟨by simp, ?_⟩
      intro dir' target' rest hmet
      rwa [← (Passed.met.inj hmet).1]
    | failed => exact ⟨by simp, by simp⟩

/-- A walk without creating leads from a real place to a real place. -/
theorem RealPlace.walk {links : ℕ} {dir : Path} {components : List (List Char)} {found : ℕ × Path}
    (hreal : RealPlace tree dir) (h : walk tree false links dir components = some found) :
    RealPlace tree found.2 := by
  induction links generalizing dir components with
  | zero =>
    rw [LinkedPaths.walk] at h
    cases hpassed : LinkedPaths.passPlain tree false dir components with
    | arrived place =>
      rw [hpassed] at h
      rw [← Option.some.inj h]
      exact (hreal.passPlain components).1 place hpassed
    | met dir' target rest => simp [hpassed] at h
    | failed => simp [hpassed] at h
  | succ links ih =>
    rw [LinkedPaths.walk] at h
    cases hpassed : LinkedPaths.passPlain tree false dir components with
    | arrived place =>
      rw [hpassed] at h
      rw [← Option.some.inj h]
      exact (hreal.passPlain components).1 place hpassed
    | met dir' target rest =>
      rw [hpassed] at h
      have hdir' := (hreal.passPlain components).2 dir' target rest hpassed
      refine ih ?_ h
      rw [linkStart]
      split
      · rfl
      · exact hdir'
    | failed => simp [hpassed] at h

/-- What the real path function returns is a real place. -/
theorem realPlace_of_realpath {maxLinks : ℕ} {components : List (List Char)} {place : Path}
    (h : realpath tree maxLinks components = some place) : RealPlace tree place := by
  obtain ⟨found, hfound, rfl⟩ := Option.map_eq_some_iff.mp h
  have hroot : RealPlace tree [] := rfl
  exact hroot.walk hfound

/-- A real place is its own real path. -/
theorem RealPlace.realpath {place : Path} (hreal : RealPlace tree place) (maxLinks : ℕ) :
    realpath tree maxLinks place = some place := by
  have hwalk : LinkedPaths.walk tree false maxLinks [] place = some (maxLinks, place) := by
    cases maxLinks with
    | zero => rw [LinkedPaths.walk, hreal]
    | succ maxLinks => rw [LinkedPaths.walk, hreal]
  rw [LinkedPaths.realpath, hwalk, Option.map_some]

end RealPlaces

section Extensions

variable {tree more : FileTree}

/-- Whatever a tree has, the other has too, and the root is the same. -/
structure Extends (tree more : FileTree) : Prop where
  entry : ∀ place, tree place ≠ none → more place = tree place
  root : more [] = tree []

theorem Extends.refl (tree : FileTree) : Extends tree tree := ⟨fun _ _ => rfl, rfl⟩

theorem Extends.trans {most : FileTree} (h : Extends tree more) (hmost : Extends more most) :
    Extends tree most where
  entry place hplace := by
    have hentry := h.entry place hplace
    rw [hmost.entry place (hentry ▸ hplace), hentry]
  root := hmost.root.trans h.root

/-- The last name of a real place is entered from its directory. -/
theorem RealPlace.take_last {path : Path} {name : List Char}
    (h : RealPlace tree (path ++ [name])) :
    LinkedPaths.takeComponent tree false path name = .entered (path ++ [name]) := by
  have hpath := h.dropLast
  rw [List.dropLast_concat] at hpath
  rw [RealPlace, passPlain_append, hpath, Passed.andThen, LinkedPaths.passPlain] at h
  cases htaken : LinkedPaths.takeComponent tree false path name with
  | entered place =>
    rw [htaken] at h
    rw [← Passed.arrived.inj h]
  | link target => simp [htaken] at h
  | failed => simp [htaken] at h

/-- Something is at a real place, unless it is the root. -/
theorem RealPlace.exists_entry {place : Path} (h : RealPlace tree place) :
    place = [] ∨ tree place ≠ none := by
  obtain rfl | ⟨path, name, rfl⟩ := List.eq_nil_or_concat place
  · exact .inl rfl
  · rw [List.concat_eq_append] at h ⊢
    have hplain := h.plainName name (by simp)
    refine .inr fun hnone => ?_
    have htaken := h.take_last
    rw [LinkedPaths.takeComponent, if_neg hplain.1, if_neg hplain.2, hnone] at htaken
    split at htaken <;> cases htaken

/-- From a real place a component leads where it led. -/
theorem Extends.takeComponent {dir : Path} {component : List Char} (h : Extends tree more)
    (hreal : RealPlace tree dir)
    (hfound : LinkedPaths.takeComponent tree false dir component ≠ .failed) :
    LinkedPaths.takeComponent more false dir component =
      LinkedPaths.takeComponent tree false dir component := by
  have hdir : more dir = tree dir := by
    obtain rfl | hentry := hreal.exists_entry
    · exact h.root
    · exact h.entry dir hentry
  by_cases hentry : tree (dir ++ [component]) = none
  · rw [LinkedPaths.takeComponent, hentry] at hfound
    rw [LinkedPaths.takeComponent, LinkedPaths.takeComponent, hdir]
    split at hfound
    · exact absurd rfl hfound
    · next hfile =>
      split at hfound
      · next hskip => simp only [if_neg hfile, if_pos hskip]
      · next hskip =>
        split at hfound
        · next hup => simp only [if_neg hfile, if_neg hskip, if_pos hup]
        · exact absurd rfl hfound
  · rw [LinkedPaths.takeComponent, LinkedPaths.takeComponent, hdir, h.entry _ hentry]

theorem Extends.passPlain {dir : Path} {components : List (List Char)} (h : Extends tree more)
    (hreal : RealPlace tree dir)
    (hfound : LinkedPaths.passPlain tree false dir components ≠ .failed) :
    LinkedPaths.passPlain more false dir components =
      LinkedPaths.passPlain tree false dir components := by
  induction components generalizing dir with
  | nil => rfl
  | cons c components ih =>
    rw [LinkedPaths.passPlain] at hfound ⊢
    rw [LinkedPaths.passPlain]
    cases htaken : LinkedPaths.takeComponent tree false dir c with
    | entered place =>
      rw [htaken] at hfound
      rw [h.takeComponent hreal (by simp [htaken]), htaken]
      exact ih (hreal.takeComponent htaken) hfound
    | link target => rw [h.takeComponent hreal (by simp [htaken]), htaken]
    | failed =>
      rw [htaken] at hfound
      exact absurd rfl hfound

/-- What a walk finds in a tree it finds in a larger one. -/
theorem Extends.walk {links : ℕ} {dir : Path} {components : List (List Char)} {found : ℕ × Path}
    (h : Extends tree more) (hreal : RealPlace tree dir)
    (hfound : LinkedPaths.walk tree false links dir components = some found) :
    LinkedPaths.walk more false links dir components = some found := by
  induction links generalizing dir components with
  | zero =>
    rw [LinkedPaths.walk] at hfound ⊢
    cases hpassed : LinkedPaths.passPlain tree false dir components with
    | arrived place =>
      rw [hpassed] at hfound
      rw [h.passPlain hreal (by simp [hpassed]), hpassed]
      exact hfound
    | met dir' target rest => simp [hpassed] at hfound
    | failed => simp [hpassed] at hfound
  | succ links ih =>
    rw [LinkedPaths.walk] at hfound ⊢
    cases hpassed : LinkedPaths.passPlain tree false dir components with
    | arrived place =>
      rw [hpassed] at hfound
      rw [h.passPlain hreal (by simp [hpassed]), hpassed]
      exact hfound
    | met dir' target rest =>
      rw [hpassed] at hfound
      rw [h.passPlain hreal (by simp [hpassed]), hpassed]
      refine ih ?_ hfound
      rw [linkStart]
      split
      · rfl
      · exact (hreal.passPlain components).2 dir' target rest hpassed
    | failed => simp [hpassed] at hfound

theorem Extends.realPlace {place : Path} (h : Extends tree more) (hreal : RealPlace tree place) :
    RealPlace more place := by
  have hroot : RealPlace tree [] := rfl
  have hfound : LinkedPaths.passPlain tree false [] place ≠ .failed := by
    rw [hreal]
    exact Passed.noConfusion
  exact (h.passPlain hroot hfound).trans hreal

/-- Whether a place is real depends on what is on the way to it. -/
theorem RealPlace.congr {place : Path} (hreal : RealPlace tree place)
    (h : ∀ front, front <+: place → more front = tree front) : RealPlace more place := by
  have hplain := hreal.plainName
  have hpass (dir rest : Path) (hrest : ∀ name ∈ rest, PlainName name)
      (hsame : ∀ front, front <+: dir ++ rest → more front = tree front) :
      LinkedPaths.passPlain more false dir rest = LinkedPaths.passPlain tree false dir rest := by
    induction rest generalizing dir with
    | nil => rfl
    | cons name rest ih =>
      have hshape : dir ++ [name] ++ rest = dir ++ name :: rest := by simp
      have hdir := hsame dir (List.prefix_append _ _)
      have hnext := hsame (dir ++ [name]) (hshape ▸ List.prefix_append _ _)
      have htaken : LinkedPaths.takeComponent more false dir name =
          LinkedPaths.takeComponent tree false dir name := by
        rw [LinkedPaths.takeComponent, LinkedPaths.takeComponent, hdir, hnext]
      rw [LinkedPaths.passPlain, LinkedPaths.passPlain, htaken]
      cases hentered : LinkedPaths.takeComponent tree false dir name with
      | entered entered =>
        have heq := eq_follow_of_takeComponent hentered
        rw [follow_of_plainName dir (hrest name List.mem_cons_self)] at heq
        rw [heq]
        refine ih _ (fun n hn => hrest n (List.mem_cons_of_mem name hn)) fun front hfront => ?_
        exact hsame front (hshape ▸ hfront)
      | link target => rfl
      | failed => rfl
  exact (hpass [] place hplain h).trans hreal

end Extensions

section Linkless

variable {tree : FileTree}

/-- There are no symbolic links. -/
def Linkless (tree : FileTree) : Prop := ∀ place target, tree place ≠ some (.link target)

theorem lastIsLink_of_linkless (h : Linkless tree) (maxLinks : ℕ) (path : Path) :
    lastIsLink tree maxLinks path = false := by
  unfold lastIsLink
  split
  · rfl
  · split
    · rfl
    · split
      · rename_i hlink
        exact absurd hlink (h _ _)
      · rfl

/-- Without links an existing place is its own real path. -/
theorem realpath_of_linkless (h : Linkless tree) {maxLinks : ℕ} {path place : Path}
    (hplain : ∀ name ∈ path, PlainName name) (hplace : realpath tree maxLinks path = some place) :
    place = path := by
  obtain ⟨found, hfound, rfl⟩ := Option.map_eq_some_iff.mp hplace
  rw [walk_of_noLink hplain (fun front _ => lastIsLink_of_linkless h maxLinks front)
    (walk_create hfound)]

end Linkless

end Teleprompter.LinkedPaths
