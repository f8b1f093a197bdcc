import Teleprompter.LinkedPaths
import Teleprompter.StepRuns

/-!
# Extraction of bundle tarballs

Entries of an archive are unpacked one after the other below a directory. The check
of an entry looks at its own path. Where the path leads depends on the entries
before: below a link that leaves the directory everything is created outside, and
a link in the place of an installed file is returned as that file.
-/

namespace Teleprompter.BundleExtraction

open LinkedPaths StepRuns

section Model

/-- What an entry of the archive is. -/
inductive EntryKind where
  | file
  | directory
  | symlink (target : List Char)
  | hardLink (target : List Char)
  deriving DecidableEq

def EntryKind.isFile : EntryKind → Bool
  | file => true
  | _ => false

structure TarEntry where
  path : List Char
  kind : EntryKind

/-- Components of a relative path. A dot is one only in front. -/
def components (path : List Char) : List (List Char) :=
  match splitSlash path with
  | [] => []
  | first :: rest =>
    (if first = [] then [] else [first]) ++ rest.filter fun c => c ≠ [] ∧ c ≠ ['.']

/-- The text of a path from its components. -/
def display (path : Path) : String := String.intercalate "/" (path.map String.ofList)

/-- A tree with something at a place. -/
def put (tree : FileTree) (place : Path) (entry : Entry) : FileTree :=
  fun q => if q = place then some entry else tree q

/-- A tree with nothing at a place. -/
def without (tree : FileTree) (place : Path) : FileTree :=
  fun q => if q = place then none else tree q

/-- What making directories leaves: the tree, the directories that were made and the
place of the last one, where all of them could be made. -/
structure Made where
  tree : FileTree
  touched : List Path
  place : Option Path

/-- Make the directories of a path that are missing. Links are followed. -/
def createDirAll (tree : FileTree) : ℕ → Path → List (List Char) → Made
  | _, place, [] => ⟨tree, [], some place⟩
  | links, place, name :: rest =>
    match tree (place ++ [name]) with
    | none =>
      let made := createDirAll (put tree (place ++ [name]) .directory) links (place ++ [name]) rest
      { made with touched := (place ++ [name]) :: made.touched }
    | some _ =>
      match walk tree false links place [name] with
      | none => ⟨tree, [], none⟩
      | some found =>
        if tree found.2 = some .file then ⟨tree, [], none⟩
        else createDirAll tree found.1 found.2 rest

/-- What the archive reader and the kernel do. Unpacking gets the place that the path
of an entry leads to and returns the tree and an error text, if it fails. -/
structure System where
  maxLinks : ℕ
  unpack : FileTree → EntryKind → Path → FileTree × Option String
  createError : FileTree → Path → String

/-- An extraction in progress. Paths of installed members are kept below the
destination, and what has been created or written is kept by its place. -/
structure Extraction where
  tree : FileTree
  touched : List Path
  foundBinTp : Option Path
  libexec : List (List Char × Path)
  error : Option String

/-- The destination: its place, and its path as it is shown. -/
structure Destination where
  place : Path
  shown : String

def absoluteError (path : List Char) : String :=
  "tar entry has absolute path: " ++ String.ofList path ++ " — aborting (possible path traversal)"

def parentError (path : List Char) : String :=
  "tar entry contains '..': " ++ String.ofList path ++ " — aborting (possible path traversal)"

def createDirError (dest : Destination) (parent : Path) (e : String) : String :=
  "create dir " ++ dest.shown ++ "/" ++ display parent ++ ": " ++ e

def unpackError (dest : Destination) (stripped : Path) (e : String) : String :=
  "unpack " ++ display stripped ++ " to " ++ dest.shown ++ "/" ++ display stripped ++ ": " ++ e

/-- Remember an installed member. -/
def track (s : Extraction) (kind : EntryKind) (stripped : Path) : Extraction :=
  if kind.isFile = false then s
  else
    match stripped with
    | [['b', 'i', 'n'], ['t', 'p']] => { s with foundBinTp := some stripped }
    | [['l', 'i', 'b', 'e', 'x', 'e', 'c'], ['t', 'p'], name] =>
      { s with libexec := s.libexec ++ [(name, stripped)] }
    | _ => s

/-- Make the parent directories of an accepted entry and unpack it there. -/
def place (sys : System) (dest : Destination) (s : Extraction) (kind : EntryKind)
    (parent : Path) (name : List Char) : Extraction :=
  let made := createDirAll s.tree sys.maxLinks dest.place parent
  match made.place with
  | none =>
    { s with
      tree := made.tree
      touched := s.touched ++ made.touched
      error := some (createDirError dest parent (sys.createError s.tree parent)) }
  | some dir =>
    let unpacked := sys.unpack made.tree kind (dir ++ [name])
    let written := { s with
      tree := unpacked.1
      touched := s.touched ++ made.touched ++ [dir ++ [name]] }
    match unpacked.2 with
    | some e => { written with error := some (unpackError dest (parent ++ [name]) e) }
    | none => track written kind (parent ++ [name])

/-- One round of the loop. An entry may also be unreadable. -/
def extractEntry (sys : System) (dest : Destination) (s : Extraction) :
    Except String TarEntry → Extraction
  | .error e =>
    if s.error.isSome = true then s else { s with error := some ("tar entry error: " ++ e) }
  | .ok entry =>
    if s.error.isSome = true then s
    else if entry.path.head? = some '/' then { s with error := some (absoluteError entry.path) }
    else if ['.', '.'] ∈ components entry.path then
      { s with error := some (parentError entry.path) }
    else
      match (components entry.path).tail.getLast? with
      | none => s
      | some name => place sys dest s entry.kind (components entry.path).tail.dropLast name

structure ExtractedBundle where
  binTp : Path
  libexec : List (List Char × Path)

/-- What the loop ends with. -/
def Extraction.result (s : Extraction) : Except String ExtractedBundle :=
  match s.error, s.foundBinTp with
  | some e, _ => .error e
  | none, none => .error "tarball did not contain bin/tp"
  | none, some binTp => .ok ⟨binTp, s.libexec⟩

def Extraction.start (tree : FileTree) : Extraction := ⟨tree, [], none, [], none⟩

def extractBundleTarball (sys : System) (dest : Destination) (tree : FileTree)
    (entries : List (Except String TarEntry)) : Extraction :=
  runFrom (extractEntry sys dest) (.start tree) entries

end Model

section Directories

/-- The place of the part of a path that exists, if the rest can be made below it. -/
def existingPlace (tree : FileTree) : ℕ → Path → List (List Char) → Option Path
  | _, place, [] => some place
  | links, place, name :: rest =>
    match tree (place ++ [name]) with
    | none => some place
    | some _ =>
      match walk tree false links place [name] with
      | none => none
      | some found =>
        if tree found.2 = some .file then none else existingPlace tree found.1 found.2 rest

/-- Nothing is below a missing place. -/
def Rooted (tree : FileTree) : Prop :=
  ∀ place name, tree (place ++ [name]) ≠ none → place = [] ∨ tree place ≠ none

/-- What making the directories of a path does. -/
structure MadeFrom (tree : FileTree) (links : ℕ) (place : Path) (names : List (List Char))
    (made : Made) : Prop where
  larger : Extends tree made.tree
  same : ∀ q, q ∉ made.touched → made.tree q = tree q
  directory : ∀ q ∈ made.touched, made.tree q = some .directory
  below : ∀ top, existingPlace tree links place names = some top →
    (∀ q ∈ made.touched, top <+: q) ∧ ∀ p, made.place = some p → top <+: p
  nowhere : existingPlace tree links place names = none →
    made.touched = [] ∧ made.place = none
  arrives : ∀ p, made.place = some p →
    (∃ left, walk made.tree false links place names = some (left, p)) ∧
      made.tree p ≠ some .file ∧ RealPlace made.tree p
  rooted : Rooted made.tree

theorem put_self (tree : FileTree) (place : Path) (entry : Entry) :
    put tree place entry place = some entry := if_pos rfl

theorem put_of_ne {tree : FileTree} {place q : Path} (entry : Entry) (h : q ≠ place) :
    put tree place entry q = tree q := if_neg h

theorem extends_put {tree : FileTree} {place : Path} {name : List Char} (entry : Entry)
    (h : tree (place ++ [name]) = none) : Extends tree (put tree (place ++ [name]) entry) where
  entry q hq := put_of_ne entry fun heq => hq (heq ▸ h)
  root := put_of_ne entry (by simp)

theorem rooted_put {tree : FileTree} (h : Rooted tree) {place : Path} {name : List Char}
    (entry : Entry) (hplace : place = [] ∨ tree place ≠ none) :
    Rooted (put tree (place ++ [name]) entry) := by
  intro q n hq
  have hkept (p : Path) (hp : p = [] ∨ tree p ≠ none) :
      p = [] ∨ put tree (place ++ [name]) entry p ≠ none := by
    refine hp.imp_right fun hp => ?_
    rw [put]
    split
    · exact Option.some_ne_none _
    · exact hp
  by_cases heq : q ++ [n] = place ++ [name]
  · obtain ⟨rfl, -⟩ := List.append_inj' heq rfl
    exact hkept q hplace
  · rw [put_of_ne entry heq] at hq
    exact hkept q (h q n hq)

/-- A made directory is real and nothing is in it. -/
theorem realPlace_put {tree : FileTree} {place : Path} {name : List Char}
    (hreal : RealPlace tree place) (hdir : tree place ≠ some .file) (hname : PlainName name)
    (hnone : tree (place ++ [name]) = none) :
    takeComponent (put tree (place ++ [name]) .directory) false place name =
        .entered (place ++ [name]) ∧
      RealPlace (put tree (place ++ [name]) .directory) (place ++ [name]) := by
  have hne : place ≠ place ++ [name] := by simp
  have htaken : takeComponent (put tree (place ++ [name]) .directory) false place name =
      .entered (place ++ [name]) := by
    rw [takeComponent, put_of_ne _ hne, if_neg hdir, if_neg hname.1, if_neg hname.2, put_self]
  exact ⟨htaken, ((extends_put .directory hnone).realPlace hreal).takeComponent htaken⟩

/-- Below a missing place everything is missing. -/
theorem existingPlace_missing {tree : FileTree} (hrooted : Rooted tree) {links : ℕ} {place : Path}
    {name : List Char} (hnone : tree (place ++ [name]) = none) (rest : List (List Char)) :
    existingPlace (put tree (place ++ [name]) .directory) links (place ++ [name]) rest =
      some (place ++ [name]) := by
  cases rest with
  | nil => rfl
  | cons next rest =>
    have hne : place ++ [name] ++ [next] ≠ place ++ [name] := by simp
    have hnext : tree (place ++ [name] ++ [next]) = none := by
      by_contra hsome
      obtain hnil | hplace := hrooted _ next hsome
      · simp at hnil
      · exact hplace hnone
    rw [existingPlace, put_of_ne _ hne, hnext]

theorem MadeFrom.missing {tree : FileTree} {links : ℕ} {place : Path} {name : List Char}
    {rest : List (List Char)} {made : Made} (hrooted : Rooted tree)
    (hreal : RealPlace tree place) (hdir : tree place ≠ some .file) (hname : PlainName name)
    (hnone : tree (place ++ [name]) = none)
    (hmade : MadeFrom (put tree (place ++ [name]) .directory) links (place ++ [name]) rest made) :
    MadeFrom tree links place (name :: rest)
      { made with touched := (place ++ [name]) :: made.touched } := by
  have hput := extends_put .directory hnone
  obtain ⟨htaken, hreal'⟩ := realPlace_put hreal hdir hname hnone
  have hbelow := hmade.below _ (existingPlace_missing hrooted hnone rest)
  have hexisting : existingPlace tree links place (name :: rest) = some place := by
    rw [existingPlace, hnone]
  refine ⟨hput.trans hmade.larger, fun q hq => ?_, fun q hq => ?_, fun top htop => ?_,
    fun hnowhere => ?_, fun p hp => ?_, hmade.rooted⟩
  · obtain ⟨hne, hq⟩ := not_or.mp (List.mem_cons.not.mp hq)
    rw [hmade.same q hq, put_of_ne _ hne]
  · obtain rfl | hq := List.mem_cons.mp hq
    · have hself : put tree (place ++ [name]) .directory (place ++ [name]) = some .directory :=
        put_self _ _ _
      exact (hmade.larger.entry _ (hself ▸ Option.some_ne_none _)).trans hself
    · exact hmade.directory q hq
  · obtain rfl := Option.some.inj (hexisting.symm.trans htop)
    have hfront : place <+: place ++ [name] := List.prefix_append _ _
    refine ⟨fun q hq => ?_, fun p hp => hfront.trans (hbelow.2 p hp)⟩
    obtain rfl | hq := List.mem_cons.mp hq
    · exact hfront
    · exact hfront.trans (hbelow.1 q hq)
  · rw [hexisting] at hnowhere
    cases hnowhere
  · obtain ⟨⟨left, hwalk⟩, hfile, hplace⟩ := hmade.arrives p hp
    have hone : walk (put tree (place ++ [name]) .directory) false links place [name] =
        some (links, place ++ [name]) := walk_entered htaken
    have hone' := hmade.larger.walk (hput.realPlace hreal) hone
    refine ⟨⟨left, ?_⟩, hfile, hplace⟩
    exact (walk_append links place [name] rest).trans (by rw [hone', Option.bind_some, hwalk])

theorem MadeFrom.existing {tree : FileTree} {links : ℕ} {place : Path} {name : List Char}
    {rest : List (List Char)} {made : Made} {entry : Entry} {found : ℕ × Path}
    (hreal : RealPlace tree place) (hentry : tree (place ++ [name]) = some entry)
    (hwalk : walk tree false links place [name] = some found) (hfile : tree found.2 ≠ some .file)
    (hmade : MadeFrom tree found.1 found.2 rest made) :
    MadeFrom tree links place (name :: rest) made := by
  have hexisting : existingPlace tree links place (name :: rest) =
      existingPlace tree found.1 found.2 rest := by
    rw [existingPlace, hentry]
    dsimp only
    rw [hwalk]
    exact if_neg hfile
  refine ⟨hmade.larger, hmade.same, hmade.directory, ?_, ?_, fun p hp => ?_, hmade.rooted⟩
  · rw [hexisting]
    exact hmade.below
  · rw [hexisting]
    exact hmade.nowhere
  · obtain ⟨⟨left, hrest⟩, hplace⟩ := hmade.arrives p hp
    have hone := hmade.larger.walk hreal hwalk
    refine ⟨⟨left, ?_⟩, hplace⟩
    exact (walk_append links place [name] rest).trans (by rw [hone, Option.bind_some, hrest])

theorem MadeFrom.failed {tree : FileTree} {links : ℕ} {place : Path} {names : List (List Char)}
    (hrooted : Rooted tree) (hnone : existingPlace tree links place names = none) :
    MadeFrom tree links place names ⟨tree, [], none⟩ where
  larger := .refl tree
  same _ _ := rfl
  directory := by simp
  below top htop := by
    rw [hnone] at htop
    cases htop
  nowhere _ := ⟨rfl, rfl⟩
  arrives := by simp
  rooted := hrooted

theorem createDirAll_made {tree : FileTree} {links : ℕ} {place : Path}
    {names : List (List Char)} (hrooted : Rooted tree) (hreal : RealPlace tree place)
    (hdir : tree place ≠ some .file) (hnames : ∀ name ∈ names, PlainName name) :
    MadeFrom tree links place names (createDirAll tree links place names) := by
  induction names generalizing tree links place with
  | nil =>
    rw [createDirAll]
    refine ⟨.refl tree, fun _ _ => rfl, by simp, fun top htop => ?_, by simp [existingPlace],
      fun p hp => ?_, hrooted⟩
    · obtain rfl := Option.some.inj htop
      exact ⟨by simp, fun p hp => Option.some.inj hp ▸ List.prefix_rfl⟩
    · obtain rfl := Option.some.inj hp
      exact ⟨⟨links, walk_nil links _⟩, hdir, hreal⟩
  | cons name rest ih =>
    have hname := hnames name List.mem_cons_self
    have hrest : ∀ name ∈ rest, PlainName name := fun n hn => hnames n (List.mem_cons_of_mem _ hn)
    rw [createDirAll]
    cases hentry : tree (place ++ [name]) with
    | none =>
      obtain ⟨htaken, hreal'⟩ := realPlace_put hreal hdir hname hentry
      have hdir' : put tree (place ++ [name]) .directory (place ++ [name]) ≠ some .file := by
        rw [put_self]
        decide
      exact .missing hrooted hreal hdir hname hentry
        (ih (rooted_put hrooted .directory hreal.exists_entry) hreal' hdir' hrest)
    | some entry =>
      dsimp only
      cases hwalk : walk tree false links place [name] with
      | none =>
        refine .failed hrooted ?_
        rw [existingPlace, hentry]
        dsimp only
        rw [hwalk]
      | some found =>
        dsimp only
        split
        · next hfile =>
          refine .failed hrooted ?_
          rw [existingPlace, hentry]
          dsimp only
          rw [hwalk]
          exact if_pos hfile
        · next hfile =>
          exact .existing hreal hentry hwalk hfile (ih hrooted (hreal.walk hwalk) hfile hrest)

end Directories

section Containment

/-- The place where an entry is unpacked. -/
def location (sys : System) (dest : Destination) (tree : FileTree) (parent : Path)
    (name : List Char) : Option Path :=
  (createDirAll tree sys.maxLinks dest.place parent).place.map (· ++ [name])

/-- Unpacking takes away what is at the place. Directories stay, and neither a directory
entry nor a hard link takes anything away. -/
def replaces : EntryKind → Option Entry → Bool
  | .file, some (.link _) => true
  | .symlink _, some .file => true
  | .symlink target, some (.link old) => target ≠ old
  | _, _ => false

/-- What is relied on: an entry that is unpacked is created at its place, nothing changes
elsewhere, a file entry becomes a regular file, and what is not replaced stays. -/
structure Unpacks (unpack : FileTree → EntryKind → Path → FileTree × Option String) : Prop where
  elsewhere : ∀ tree kind spot q, q ≠ spot → (unpack tree kind spot).1 q = tree q
  created : ∀ tree kind spot, (unpack tree kind spot).2 = none →
    (unpack tree kind spot).1 spot ≠ none
  file : ∀ tree spot, (unpack tree .file spot).2 = none →
    (unpack tree .file spot).1 spot = some .file
  kept : ∀ tree kind spot, (unpack tree kind spot).2 = none → replaces kind (tree spot) = false →
    tree spot ≠ none → (unpack tree kind spot).1 spot = tree spot

/-- A path below the destination leads to a regular file inside it. -/
def RegularInside (sys : System) (dest : Destination) (tree : FileTree) (path : Path) : Prop :=
  ∃ parent name links place, path = parent ++ [name] ∧
    walk tree false sys.maxLinks dest.place parent = some (links, place) ∧
      dest.place <+: place ∧ tree (place ++ [name]) = some .file

/-- The paths that would be returned. -/
def Extraction.returned (s : Extraction) : List Path :=
  s.foundBinTp.toList ++ s.libexec.map Prod.snd

/-- An entry that is installed. -/
def installs (kind : EntryKind) (stripped : Path) : Bool :=
  kind.isFile &&
    match stripped with
    | [['b', 'i', 'n'], ['t', 'p']] => true
    | [['l', 'i', 'b', 'e', 'x', 'e', 'c'], ['t', 'p'], _] => true
    | _ => false

/-- The part of the entry's directory that exists is inside the destination. -/
def StaysInside (sys : System) (dest : Destination) (tree : FileTree) (parent : Path) : Prop :=
  ∀ place, existingPlace tree sys.maxLinks dest.place parent = some place → dest.place <+: place

/-- No path that is returned, nor that of the entry if it is installed, goes through what
the entry replaces. -/
def KeepsReturned (sys : System) (dest : Destination) (s : Extraction) (kind : EntryKind)
    (parent : Path) (name : List Char) : Prop :=
  ∀ spot, location sys dest s.tree parent name = some spot →
    replaces kind (s.tree spot) = true →
      (∀ r ∈ s.returned, RegularInside sys dest (without s.tree spot) r) ∧
        (installs kind (parent ++ [name]) = true →
          (walk (without s.tree spot) false sys.maxLinks dest.place parent).isSome = true)

/-- The condition on the entries that the checks of the loop accept. -/
def Contained (sys : System) (dest : Destination) (s : Extraction) : Except String TarEntry → Prop
  | .error _ => True
  | .ok entry => s.error = none → entry.path.head? ≠ some '/' →
    ['.', '.'] ∉ components entry.path → ∀ parent name,
      (components entry.path).tail = parent ++ [name] →
        StaysInside sys dest s.tree parent ∧ KeepsReturned sys dest s entry.kind parent name

/-- Everything that has been created or written is inside the destination, and what would
be returned are regular files in it. -/
structure Sound (sys : System) (dest : Destination) (before : FileTree) (s : Extraction) :
    Prop where
  touched : ∀ p ∈ s.touched, dest.place <+: p
  outside : ∀ p, ¬ dest.place <+: p → s.tree p = before p
  rooted : s.error = none → Rooted s.tree
  real : s.error = none → RealPlace s.tree dest.place
  directory : s.error = none → s.tree dest.place ≠ some .file
  regular : s.error = none → ∀ r ∈ s.returned, RegularInside sys dest s.tree r

variable {sys : System} {dest : Destination} {before : FileTree} {s : Extraction}

theorem RegularInside.mono {tree more : FileTree} (h : Extends tree more)
    (hreal : RealPlace tree dest.place) {path : Path} (hpath : RegularInside sys dest tree path) :
    RegularInside sys dest more path := by
  obtain ⟨parent, name, links, place, hshape, hwalk, hinside, hfile⟩ := hpath
  refine ⟨parent, name, links, place, hshape, h.walk hreal hwalk, hinside, ?_⟩
  rw [h.entry _ (hfile ▸ Option.some_ne_none _), hfile]

/-- What happens below the destination leaves it real. -/
theorem realPlace_of_below {tree more : FileTree} {place : Path} {name : List Char}
    (hreal : RealPlace tree dest.place) (hinside : dest.place <+: place)
    (hsame : ∀ q, q ≠ place ++ [name] → more q = tree q) : RealPlace more dest.place := by
  refine hreal.congr fun front hfront => hsame front ?_
  rintro rfl
  have hlen := (hfront.trans hinside).length_le
  rw [List.length_append, List.length_singleton] at hlen
  omega

theorem track_fields (s : Extraction) (kind : EntryKind) (stripped : Path) :
    (track s kind stripped).tree = s.tree ∧ (track s kind stripped).touched = s.touched ∧
      (track s kind stripped).error = s.error := by
  unfold track
  split
  · exact ⟨rfl, rfl, rfl⟩
  · split <;> exact ⟨rfl, rfl, rfl⟩

/-- A tracked entry is an installed one. -/
theorem mem_returned_track {kind : EntryKind} {stripped r : Path}
    (h : r ∈ (track s kind stripped).returned) :
    r ∈ s.returned ∨ r = stripped ∧ installs kind stripped = true := by
  unfold track at h
  split at h
  · exact .inl h
  · next hkind =>
    rw [Bool.not_eq_false] at hkind
    split at h
    · obtain h | h := List.mem_append.mp h
      · exact .inr ⟨List.mem_singleton.mp h, by rw [installs, hkind]; rfl⟩
      · exact .inl (List.mem_append_right _ h)
    · next name =>
      obtain h | h := List.mem_append.mp h
      · exact .inl (List.mem_append_left _ h)
      · rw [List.map_append, List.mem_append] at h
        obtain h | h := h
        · exact .inl (List.mem_append_right _ h)
        · exact .inr ⟨List.mem_singleton.mp h, by rw [installs, hkind]; rfl⟩
    · exact .inl h

/-- A failed extraction only has to have stayed inside. -/
theorem Sound.of_failed {s' : Extraction} {e : String} (herror : s'.error = some e)
    (htouched : ∀ p ∈ s'.touched, dest.place <+: p)
    (houtside : ∀ p, ¬ dest.place <+: p → s'.tree p = before p) : Sound sys dest before s' := by
  have hclosed (h : s'.error = none) : False := by
    rw [herror] at h
    cases h
  exact ⟨htouched, houtside, fun h => (hclosed h).elim, fun h => (hclosed h).elim,
    fun h => (hclosed h).elim, fun h => (hclosed h).elim⟩

/-- What unpacking leaves is larger than the tree, or than the tree without what it
replaces. -/
theorem extends_unpacked (hunpack : Unpacks sys.unpack) {tree made : FileTree} {kind : EntryKind}
    {place : Path} {name : List Char} (hlarger : Extends tree made)
    (hmade : ∀ q, made q = tree q ∨ tree q = none ∧ made q = some .directory)
    (hdone : (sys.unpack made kind (place ++ [name])).2 = none) :
    Extends made (sys.unpack made kind (place ++ [name])).1 ∨
      replaces kind (tree (place ++ [name])) = true ∧
        Extends (without tree (place ++ [name])) (sys.unpack made kind (place ++ [name])).1 := by
  have hroot : (sys.unpack made kind (place ++ [name])).1 [] = made [] :=
    hunpack.elsewhere _ _ _ _ (by simp)
  by_cases hreplaces : replaces kind (made (place ++ [name])) = true
  · have hsame : made (place ++ [name]) = tree (place ++ [name]) := by
      refine (hmade _).resolve_right fun h => ?_
      rw [h.2] at hreplaces
      cases kind <;> cases hreplaces
    refine .inr ⟨hsame ▸ hreplaces, fun q hq => ?_, ?_⟩
    · have hne : q ≠ place ++ [name] := by
        rintro rfl
        exact hq (if_pos rfl)
      rw [without, if_neg hne] at hq ⊢
      rw [hunpack.elsewhere _ _ _ _ hne, hlarger.entry q hq]
    · rw [hroot, hlarger.root, without, if_neg (by simp)]
  · refine .inl ⟨fun q hq => ?_, hroot⟩
    by_cases hq' : q = place ++ [name]
    · rw [hq'] at hq ⊢
      exact hunpack.kept _ _ _ hdone (Bool.not_eq_true _ ▸ hreplaces) hq
    · exact hunpack.elsewhere _ _ _ _ hq'

theorem MadeFrom.same_or_directory {tree : FileTree} {links : ℕ} {place : Path}
    {names : List (List Char)} {made : Made} (h : MadeFrom tree links place names made) (q : Path) :
    made.tree q = tree q ∨ tree q = none ∧ made.tree q = some .directory := by
  by_cases hq : q ∈ made.touched
  · by_cases hnone : tree q = none
    · exact .inr ⟨hnone, h.directory q hq⟩
    · exact .inl (h.larger.entry q hnone)
  · exact .inl (h.same q hq)

theorem extends_without (tree : FileTree) (place : Path) (name : List Char) :
    Extends (without tree (place ++ [name])) tree where
  entry q hq := by
    rw [without] at hq ⊢
    split at hq
    · exact absurd rfl hq
    · next hne => rw [if_neg hne]
  root := (if_neg (by simp)).symm

theorem ne_of_below {place : Path} {name : List Char} (h : dest.place <+: place) :
    dest.place ≠ place ++ [name] := by
  intro heq
  have hlen := h.length_le
  rw [heq, List.length_append, List.length_singleton] at hlen
  omega

theorem ne_file_of_extends {tree more : FileTree} {place : Path} (h : Extends tree more)
    (hreal : RealPlace tree place) (hdir : tree place ≠ some .file) : more place ≠ some .file := by
  obtain rfl | hentry := hreal.exists_entry
  · rw [h.root]
    exact hdir
  · rw [h.entry place hentry]
    exact hdir

/-- An entry is created in a directory that exists. -/
theorem rooted_unpacked (hunpack : Unpacks sys.unpack) {tree : FileTree} {kind : EntryKind}
    {place : Path} {name : List Char} (h : Rooted tree) (hreal : RealPlace tree place)
    (hdone : (sys.unpack tree kind (place ++ [name])).2 = none) :
    Rooted (sys.unpack tree kind (place ++ [name])).1 := by
  intro q n hq
  have hkept (p : Path) (hp : p = [] ∨ tree p ≠ none) :
      p = [] ∨ (sys.unpack tree kind (place ++ [name])).1 p ≠ none := by
    refine hp.imp_right fun hp => ?_
    by_cases heq : p = place ++ [name]
    · rw [heq]
      exact hunpack.created _ _ _ hdone
    · rw [hunpack.elsewhere _ _ _ _ heq]
      exact hp
  by_cases heq : q ++ [n] = place ++ [name]
  · obtain ⟨rfl, -⟩ := List.append_inj' heq rfl
    exact hkept q hreal.exists_entry
  · rw [hunpack.elsewhere _ _ _ _ heq] at hq
    exact hkept q (h q n hq)

/-- A path that was installed before stays a regular file. -/
theorem regular_of_returned (hunpack : Unpacks sys.unpack) {tree : FileTree} {kind : EntryKind}
    {parent dir : Path} {name : List Char} {made : Made}
    (hmade : MadeFrom tree sys.maxLinks dest.place parent made)
    (hreal : RealPlace tree dest.place) (hdir : dest.place <+: dir)
    (hdone : (sys.unpack made.tree kind (dir ++ [name])).2 = none) {r : Path}
    (hr : RegularInside sys dest tree r)
    (hkept : replaces kind (tree (dir ++ [name])) = true →
      RegularInside sys dest (without tree (dir ++ [name])) r) :
    RegularInside sys dest (sys.unpack made.tree kind (dir ++ [name])).1 r := by
  obtain hlarger | ⟨hreplaces, hlarger⟩ :=
    extends_unpacked hunpack hmade.larger hmade.same_or_directory hdone
  · exact (hr.mono hmade.larger hreal).mono hlarger (hmade.larger.realPlace hreal)
  · exact (hkept hreplaces).mono hlarger (realPlace_of_below hreal hdir fun q hq => if_neg hq)

/-- The path of an installed entry is a regular file. -/
theorem regular_of_installs (hunpack : Unpacks sys.unpack) {tree : FileTree} {kind : EntryKind}
    {parent dir : Path} {name : List Char} {made : Made}
    (hmade : MadeFrom tree sys.maxLinks dest.place parent made)
    (hreal : RealPlace tree dest.place) (hplace : made.place = some dir)
    (hdir : dest.place <+: dir) (hdone : (sys.unpack made.tree kind (dir ++ [name])).2 = none)
    (hinstalls : installs kind (parent ++ [name]) = true)
    (hthrough : replaces kind (tree (dir ++ [name])) = true →
      (walk (without tree (dir ++ [name])) false sys.maxLinks dest.place parent).isSome = true) :
    RegularInside sys dest (sys.unpack made.tree kind (dir ++ [name])).1 (parent ++ [name]) := by
  obtain ⟨⟨left, hwalk⟩, -⟩ := hmade.arrives dir hplace
  have hfile : (sys.unpack made.tree kind (dir ++ [name])).1 (dir ++ [name]) = some .file := by
    cases kind with
    | file => exact hunpack.file _ _ hdone
    | directory | symlink | hardLink => cases hinstalls
  obtain hlarger | ⟨hreplaces, hlarger⟩ :=
    extends_unpacked hunpack hmade.larger hmade.same_or_directory hdone
  · have hreached := hlarger.walk (hmade.larger.realPlace hreal) hwalk
    exact ⟨parent, name, left, dir, rfl, hreached, hdir, hfile⟩
  · obtain ⟨found, hfound⟩ := Option.isSome_iff_exists.mp (hthrough hreplaces)
    have hreal' : RealPlace (without tree (dir ++ [name])) dest.place :=
      realPlace_of_below hreal hdir fun q hq => if_neg hq
    have hwithout := hmade.larger.walk hreal ((extends_without tree dir name).walk hreal' hfound)
    obtain rfl := Option.some.inj (hwithout.symm.trans hwalk)
    exact ⟨parent, name, left, dir, rfl, hlarger.walk hreal' hfound, hdir, hfile⟩

/-- Unpacking an entry that the condition admits keeps the invariant. -/
theorem place_sound (hunpack : Unpacks sys.unpack) (hs : Sound sys dest before s)
    (hopen : s.error = none) {kind : EntryKind} {parent : Path} {name : List Char}
    (hplain : ∀ n ∈ parent, PlainName n) (hinside : StaysInside sys dest s.tree parent)
    (hkeeps : KeepsReturned sys dest s kind parent name) :
    Sound sys dest before (place sys dest s kind parent name) := by
  have hmade : MadeFrom s.tree sys.maxLinks dest.place parent
      (createDirAll s.tree sys.maxLinks dest.place parent) :=
    createDirAll_made (hs.rooted hopen) (hs.real hopen) (hs.directory hopen) hplain
  rw [place]
  unfold KeepsReturned location at hkeeps
  generalize createDirAll s.tree sys.maxLinks dest.place parent = made at hmade hkeeps ⊢
  have htouched : ∀ p ∈ made.touched, dest.place <+: p := by
    cases hexisting : existingPlace s.tree sys.maxLinks dest.place parent with
    | none => simp [(hmade.nowhere hexisting).1]
    | some top =>
      exact fun p hp => (hinside top hexisting).trans ((hmade.below top hexisting).1 p hp)
  have houtside : ∀ p, ¬ dest.place <+: p → made.tree p = before p := fun p hp =>
    (hmade.same p fun hmem => hp (htouched p hmem)).trans (hs.outside p hp)
  have hbefore : ∀ p ∈ s.touched ++ made.touched, dest.place <+: p := fun p hp =>
    (List.mem_append.mp hp).elim (hs.touched p) (htouched p)
  cases hplace : made.place with
  | none => exact .of_failed rfl hbefore houtside
  | some dir =>
    dsimp only
    have hdir : dest.place <+: dir := by
      cases hexisting : existingPlace s.tree sys.maxLinks dest.place parent with
      | none =>
        rw [(hmade.nowhere hexisting).2] at hplace
        cases hplace
      | some top => exact (hinside top hexisting).trans ((hmade.below top hexisting).2 dir hplace)
    have hspot : dest.place <+: dir ++ [name] := hdir.trans (List.prefix_append _ _)
    have hall : ∀ p ∈ s.touched ++ made.touched ++ [dir ++ [name]], dest.place <+: p := fun p hp =>
      (List.mem_append.mp hp).elim (hbefore p) fun hp => List.mem_singleton.mp hp ▸ hspot
    have hunchanged : ∀ p, ¬ dest.place <+: p →
        (sys.unpack made.tree kind (dir ++ [name])).1 p = before p := fun p hp => by
      have hne : p ≠ dir ++ [name] := fun heq => hp (heq.symm ▸ hspot)
      rw [hunpack.elsewhere _ _ _ _ hne, houtside p hp]
    cases hdone : (sys.unpack made.tree kind (dir ++ [name])).2 with
    | some e => exact .of_failed rfl hall hunchanged
    | none =>
      dsimp only
      obtain ⟨htree, htouch, -⟩ := track_fields { s with
        tree := (sys.unpack made.tree kind (dir ++ [name])).1
        touched := s.touched ++ made.touched ++ [dir ++ [name]] } kind (parent ++ [name])
      dsimp only at htree htouch
      have hreal := hmade.larger.realPlace (hs.real hopen)
      refine ⟨htouch.symm ▸ hall, htree.symm ▸ hunchanged, fun _ => ?_, fun _ => ?_, fun _ => ?_,
        fun _ r hr => ?_⟩
      · rw [htree]
        exact rooted_unpacked hunpack hmade.rooted (hmade.arrives dir hplace).2.2 hdone
      · rw [htree]
        exact realPlace_of_below hreal hdir (hunpack.elsewhere _ _ _)
      · rw [htree, hunpack.elsewhere _ _ _ _ (ne_of_below hdir)]
        exact ne_file_of_extends hmade.larger (hs.real hopen) (hs.directory hopen)
      · rw [htree]
        have hkept := hkeeps (dir ++ [name]) (by rw [hplace]; rfl)
        obtain hold | ⟨rfl, hinstalls⟩ := mem_returned_track hr
        · exact regular_of_returned hunpack hmade (hs.real hopen) hdir hdone
            (hs.regular hopen r hold) fun hreplaces => (hkept hreplaces).1 r hold
        · exact regular_of_installs hunpack hmade (hs.real hopen) hplace hdir hdone hinstalls
            fun hreplaces => (hkept hreplaces).2 hinstalls

/-- The components behind the first one are plain where no double dot is among them. -/
theorem plainName_of_components {path : List Char} (h : ['.', '.'] ∉ components path) :
    ∀ name ∈ (components path).tail, PlainName name := by
  intro name hname
  have hup : name ≠ ['.', '.'] := fun heq => h (heq ▸ List.mem_of_mem_tail hname)
  have hfilter : ∃ pieces : List (List Char), name ∈ pieces.filter fun c => c ≠ [] ∧ c ≠ ['.'] := by
    rw [components] at hname
    split at hname
    · cases hname
    · next first rest _ =>
      refine ⟨rest, ?_⟩
      split at hname
      · exact List.mem_of_mem_tail hname
      · exact hname
  obtain ⟨pieces, hname⟩ := hfilter
  have hkept := of_decide_eq_true (List.mem_filter.mp hname).2
  exact ⟨not_or.mpr hkept, hup⟩

theorem Sound.step (hunpack : Unpacks sys.unpack) (hs : Sound sys dest before s)
    {entry : Except String TarEntry} (h : Contained sys dest s entry) :
    Sound sys dest before (extractEntry sys dest s entry) := by
  by_cases hopen : s.error = none
  · have hrunning : s.error.isSome = false := by rw [hopen]; rfl
    cases entry with
    | error e =>
      rw [extractEntry, hrunning]
      exact .of_failed rfl hs.touched hs.outside
    | ok entry =>
      rw [extractEntry, hrunning, if_neg (by decide)]
      split
      · exact .of_failed rfl hs.touched hs.outside
      · next hrelative =>
        split
        · exact .of_failed rfl hs.touched hs.outside
        · next hup =>
          have hplain := plainName_of_components hup
          split
          · exact hs
          · next name hname =>
            have hshape := (List.dropLast_append_getLast? _ hname).symm
            obtain ⟨hinside, hkeeps⟩ := h hopen hrelative hup _ _ hshape
            refine place_sound hunpack hs hopen (fun n hn => hplain n ?_) hinside hkeeps
            exact (List.dropLast_subset _) hn
  · have hfailed : s.error.isSome = true := Option.ne_none_iff_isSome.mp hopen
    have hsame : extractEntry sys dest s entry = s := by
      cases entry with
      | error e => rw [extractEntry, if_pos hfailed]
      | ok entry => rw [extractEntry, if_pos hfailed]
    rw [hsame]
    exact hs

theorem sound_start {tree : FileTree} (hrooted : Rooted tree) (hreal : RealPlace tree dest.place)
    (hdir : tree dest.place ≠ some .file) : Sound sys dest tree (.start tree) where
  touched := by simp [Extraction.start]
  outside _ _ := rfl
  rooted _ := hrooted
  real _ := hreal
  directory _ := hdir
  regular _ r hr := by cases hr

end Containment

/-- In every extraction whose entries all meet the condition, everything that is created or
written is inside the destination, and the returned paths are regular files in it. -/
theorem extractBundleTarball_contained {sys : System} {dest : Destination} {tree : FileTree}
    {entries : List (Except String TarEntry)} (hunpack : Unpacks sys.unpack)
    (hrooted : Rooted tree) (hreal : RealPlace tree dest.place)
    (hdir : tree dest.place ≠ some .file)
    (h : Meets (extractEntry sys dest) (Contained sys dest) (.start tree) entries) :
    (∀ p ∈ (extractBundleTarball sys dest tree entries).touched, dest.place <+: p) ∧
      (∀ p, ¬ dest.place <+: p → (extractBundleTarball sys dest tree entries).tree p = tree p) ∧
      ∀ bundle, (extractBundleTarball sys dest tree entries).result = .ok bundle →
        ∀ r ∈ bundle.binTp :: bundle.libexec.map Prod.snd,
          RegularInside sys dest (extractBundleTarball sys dest tree entries).tree r := by
  have hsound : Sound sys dest tree (extractBundleTarball sys dest tree entries) :=
    runFrom_induction_of_meets (fun _ _ hs hentry => hs.step hunpack hentry)
      (sound_start hrooted hreal hdir) h
  generalize extractBundleTarball sys dest tree entries = s at hsound
  refine ⟨hsound.touched, hsound.outside, fun bundle hbundle r hr => ?_⟩
  rw [Extraction.result] at hbundle
  split at hbundle
  · cases hbundle
  · cases hbundle
  · next binTp hopen hfound =>
    obtain rfl := Except.ok.inj hbundle
    refine hsound.regular hopen r ?_
    rw [Extraction.returned, hfound]
    exact hr

section Samples

/-- Unpacking as the archive reader does it, but for what it does with hard links. -/
def plainUnpack (tree : FileTree) (kind : EntryKind) (spot : Path) : FileTree × Option String :=
  match kind, tree spot with
  | .file, some .directory => (tree, some "failed to unpack")
  | .file, _ => (put tree spot .file, none)
  | .symlink _, some .directory => (tree, some "failed to unpack")
  | .symlink target, _ => (put tree spot (.link target), none)
  | .directory, none => (put tree spot .directory, none)
  | .directory, some .directory => (tree, none)
  | .directory, some _ => (tree, some "failed to unpack")
  | .hardLink _, _ => (tree, some "failed to unpack")

theorem plainUnpack_unpacks : Unpacks plainUnpack where
  elsewhere tree kind spot q hq := by
    unfold plainUnpack
    split <;> first | rfl | exact put_of_ne _ hq
  created tree kind spot h := by
    unfold plainUnpack at h ⊢
    split at h <;> simp_all [put_self]
  file tree spot h := by
    unfold plainUnpack at h ⊢
    split at h <;> simp_all [put_self]
  kept tree kind spot h hreplaces hentry := by
    unfold plainUnpack at h ⊢
    split at h
    · rfl
    · next hother =>
      refine (put_self _ _ _).trans ?_
      cases hspot : tree spot with
      | none => exact absurd hspot hentry
      | some entry =>
        rw [hspot] at hreplaces hother
        cases entry with
        | directory => exact absurd rfl hother
        | file => rfl
        | link old => cases hreplaces
    · rfl
    · next target hother =>
      refine (put_self _ _ _).trans ?_
      cases hspot : tree spot with
      | none => exact absurd hspot hentry
      | some entry =>
        rw [hspot] at hreplaces hother
        cases entry with
        | directory => exact absurd rfl hother
        | file => cases hreplaces
        | link old => rw [of_not_not (of_decide_eq_false hreplaces)]
    · next hspot => exact absurd hspot hentry
    · rfl
    · rfl
    · rfl

/-- A tree with two directories; the first one is the destination below. -/
def sampleTree : FileTree := fun p =>
  if p = [] ∨ p = [['d']] ∨ p = [['o']] then some .directory else none

def sampleSystem : System := ⟨40, plainUnpack, fun _ _ => "not a directory"⟩

def sampleDest : Destination := ⟨[['d']], "/d"⟩

/-- The program as an entry. -/
def programEntry : Except String TarEntry := .ok ⟨"tp-x/bin/tp".toList, .file⟩

/-- A link as an entry. -/
def linkEntry (path target : List Char) : Except String TarEntry := .ok ⟨path, .symlink target⟩

/-- A directory, a link to it inside the destination, and the program below the link. -/
def linkedArchive : List (Except String TarEntry) :=
  [.ok ⟨"tp-x/files".toList, .directory⟩, linkEntry "tp-x/bin".toList "files".toList, programEntry]

theorem sampleTree_rooted : Rooted sampleTree := by
  intro place name h
  refine .inl ?_
  rw [sampleTree] at h
  split at h
  · next hcases =>
    obtain hnil | hone | hone := hcases
    · simp at hnil
    · exact (List.append_eq_singleton_iff.mp hone).elim And.left fun heq => by simp at heq
    · exact (List.append_eq_singleton_iff.mp hone).elim And.left fun heq => by simp at heq
  · exact absurd rfl h

/-- An entry that stays inside the destination and replaces nothing meets the condition. -/
theorem contained_of_fresh {sys : System} {dest : Destination} {s : Extraction} {entry : TarEntry}
    (parent place spot : Path) (name : List Char)
    (hcomponents : (components entry.path).tail = parent ++ [name])
    (hexisting : existingPlace s.tree sys.maxLinks dest.place parent = some place)
    (hinside : dest.place <+: place) (hspot : location sys dest s.tree parent name = some spot)
    (hfresh : s.tree spot = none) : Contained sys dest s (.ok entry) := by
  intro _ _ _ parent' name' hshape
  obtain ⟨rfl, hname⟩ := List.append_inj' (hcomponents.symm.trans hshape) rfl
  obtain rfl := (List.cons.inj hname).1
  constructor
  · intro found hfound
    rw [hexisting] at hfound
    obtain rfl := Option.some.inj hfound
    exact hinside
  · intro found hfound hreplaces
    rw [hspot] at hfound
    obtain rfl := Option.some.inj hfound
    rw [hfresh] at hreplaces
    cases hkind : entry.kind with
    | _ => rw [hkind] at hreplaces; cases hreplaces

/-- The program below a link that stays inside the destination is extracted there. -/
theorem extractBundleTarball_contained_sample :
    (extractBundleTarball sampleSystem sampleDest sampleTree linkedArchive).touched =
        [[['d'], "files".toList], [['d'], "bin".toList], [['d'], "files".toList, "tp".toList]] ∧
      (∀ p, ¬ sampleDest.place <+: p →
        (extractBundleTarball sampleSystem sampleDest sampleTree linkedArchive).tree p =
          sampleTree p) ∧
      RegularInside sampleSystem sampleDest
        (extractBundleTarball sampleSystem sampleDest sampleTree linkedArchive).tree
          ["bin".toList, "tp".toList] := by
  have hmeets : Meets (extractEntry sampleSystem sampleDest) (Contained sampleSystem sampleDest)
      (.start sampleTree) linkedArchive := by
    refine ⟨?_, ?_, ?_, trivial⟩
    · exact contained_of_fresh [] [['d']] [['d'], "files".toList] "files".toList (by decide) rfl
        (by decide) (by decide) (by decide)
    · exact contained_of_fresh [] [['d']] [['d'], "bin".toList] "bin".toList (by decide) rfl
        (by decide) (by decide) (by decide)
    · exact contained_of_fresh ["bin".toList] [['d'], "files".toList]
        [['d'], "files".toList, "tp".toList] "tp".toList (by decide) (by decide) (by decide)
        (by decide) (by decide)
  have hreal : RealPlace sampleTree sampleDest.place := rfl
  obtain ⟨-, houtside, hregular⟩ := extractBundleTarball_contained plainUnpack_unpacks
    sampleTree_rooted hreal (by decide) hmeets
  exact ⟨by decide, houtside, hregular ⟨["bin".toList, "tp".toList], []⟩ rfl _ List.mem_cons_self⟩

/-- Behind a link that leaves the destination the program is created outside, and a link
that comes later in its place is returned as the program. -/
theorem extractBundleTarball_escapes :
    (extractBundleTarball sampleSystem sampleDest sampleTree
        [linkEntry "tp-x/bin".toList "/o".toList, programEntry]).touched =
          [[['d'], "bin".toList], [['o'], "tp".toList]] ∧
      ¬ sampleDest.place <+: [['o'], "tp".toList] ∧
      (extractBundleTarball sampleSystem sampleDest sampleTree
        [programEntry, linkEntry "tp-x/bin/tp".toList "/o".toList]).result =
          .ok ⟨["bin".toList, "tp".toList], []⟩ ∧
      (extractBundleTarball sampleSystem sampleDest sampleTree
        [programEntry, linkEntry "tp-x/bin/tp".toList "/o".toList]).tree
          [['d'], "bin".toList, "tp".toList] = some (.link "/o".toList) :=
  ⟨by decide, by decide, rfl, by decide⟩

end Samples

end Teleprompter.BundleExtraction
