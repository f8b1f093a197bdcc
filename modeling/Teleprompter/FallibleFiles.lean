import Mathlib.Logic.Basic

/-!
# File operations that may fail

Files are contents under paths. A copy may stop with a part of the content at its
destination; a move is a rename or, between two devices, a copy and a removal of the
source. How an operation turns out is an input, as far as the operation is possible.
-/

namespace Teleprompter.FallibleFiles

variable {κ β : Type} [DecidableEq κ]

/-- The content at each path. -/
abbrev Files (κ β : Type) := κ → Option β

def put (files : Files κ β) (p : κ) (content : β) : Files κ β :=
  fun q => if q = p then some content else files q

def erase (files : Files κ β) (p : κ) : Files κ β := fun q => if q = p then none else files q

@[simp] theorem put_self (files : Files κ β) (p : κ) (content : β) :
    put files p content p = some content :=
  if_pos rfl

@[simp] theorem put_of_ne {p q : κ} (h : q ≠ p) (files : Files κ β) (content : β) :
    put files p content q = files q :=
  if_neg h

@[simp] theorem erase_self (files : Files κ β) (p : κ) : erase files p p = none :=
  if_pos rfl

@[simp] theorem erase_of_ne {p q : κ} (h : q ≠ p) (files : Files κ β) : erase files p q = files q :=
  if_neg h

/-- How a copy turns out. -/
inductive Copied (β : Type) where
  | done
  /-- It fails, and may leave something at the destination. -/
  | failed (left : Option β)

/-- How a move turns out. -/
inductive Moved (β : Type) where
  | renamed
  /-- A rename between two devices fails; the file is copied and its source removed. -/
  | crossDevice (copied : Copied β) (removed : Bool)
  | failed

/-- Copy a file. A file that is not there cannot be copied. -/
def copy (o : Copied β) (src dst : κ) (files : Files κ β) : Files κ β × Bool :=
  match files src with
  | none => (files, false)
  | some content =>
    match o with
    | .done => (put files dst content, true)
    | .failed (some left) => (put files dst left, false)
    | .failed none => (files, false)

/-- Move a file. A strict move fails when the copied source cannot be removed. -/
def move (strict : Bool) (o : Moved β) (src dst : κ) (files : Files κ β) : Files κ β × Bool :=
  match files src with
  | none => (files, false)
  | some content =>
    match o with
    | .renamed => (put (erase files src) dst content, true)
    | .failed => (files, false)
    | .crossDevice copied removed =>
      let copying := copy copied src dst files
      if copying.2 then
        if removed then (erase copying.1 src, true) else (copying.1, !strict)
      else copying

/-- The move succeeds when its source is there. -/
def Moved.succeeds (strict : Bool) : Moved β → Bool
  | .renamed => true
  | .crossDevice .done removed => removed || !strict
  | .crossDevice (.failed _) _ => false
  | .failed => false

/-- The move puts something at its destination when its source is there. -/
def Moved.leaves : Moved β → Bool
  | .renamed => true
  | .crossDevice .done _ => true
  | .crossDevice (.failed left) _ => left.isSome
  | .failed => false

/-- The copy succeeds when its source is there. -/
def Copied.succeeds : Copied β → Bool
  | .done => true
  | .failed _ => false

/-- A copy that fails leaves something when its source is there. -/
def Copied.leaves : Copied β → Bool
  | .done => false
  | .failed left => left.isSome

section Copy

variable {o : Copied β} {src dst p : κ} {files : Files κ β}

theorem copy_of_ne (h : p ≠ dst) : (copy o src dst files).1 p = files p := by
  rw [copy]
  split
  · rfl
  · split
    · exact put_of_ne h files _
    · exact put_of_ne h files _
    · rfl

theorem copy_succeeds (h : files src ≠ none) : (copy o src dst files).2 = o.succeeds := by
  rw [copy]
  split
  · rename_i hsrc
    exact absurd hsrc h
  · split
    · rfl
    · rfl
    · rfl

theorem copy_dst (h : (copy o src dst files).2) : (copy o src dst files).1 dst = files src := by
  revert h
  rw [copy]
  split
  · nofun
  · rename_i content hsrc
    split
    · rw [hsrc]
      exact fun _ => put_self files dst content
    · nofun
    · nofun

/-- A copy takes nothing away. -/
theorem copy_there (h : files p ≠ none) : (copy o src dst files).1 p ≠ none := by
  by_cases hdst : p = dst
  · rw [hdst] at h ⊢
    rw [copy]
    split
    · exact h
    · split
      · exact (put_self files dst _).trans_ne (Option.some_ne_none _)
      · exact (put_self files dst _).trans_ne (Option.some_ne_none _)
      · exact h
  · rw [copy_of_ne hdst]
    exact h

/-- A copy that fails and leaves nothing changes nothing. -/
theorem copy_keeps (hfails : ¬o.succeeds) (hleaves : ¬o.leaves) : (copy o src dst files).1 = files := by
  rw [copy]
  split
  · rfl
  · cases o with
    | done => exact absurd rfl hfails
    | failed left =>
      cases left with
      | some left => exact absurd rfl hleaves
      | none => rfl

end Copy

section Move

variable {strict : Bool} {o : Moved β} {src dst p : κ} {files : Files κ β}

/-- A move touches nothing but its source and its destination. -/
theorem move_of_ne (hsrc : p ≠ src) (hdst : p ≠ dst) : (move strict o src dst files).1 p = files p := by
  rw [move]
  split
  · rfl
  · split
    · dsimp only
      rw [put_of_ne hdst, erase_of_ne hsrc]
    · rfl
    · rename_i copied removed
      dsimp only
      have hcopy : (copy copied src dst files).1 p = files p := copy_of_ne hdst
      split
      · split
        · dsimp only
          rw [erase_of_ne hsrc, hcopy]
        · exact hcopy
      · exact hcopy

theorem move_succeeds (h : files src ≠ none) :
    (move strict o src dst files).2 = o.succeeds strict := by
  rw [move]
  split
  · rename_i hsrc
    exact absurd hsrc h
  · split
    · rfl
    · rfl
    · rename_i copied removed
      dsimp only
      rw [copy_succeeds h]
      cases copied with
      | done => cases removed <;> cases strict <;> rfl
      | failed left =>
        rw [if_neg (by nofun), copy_succeeds h]
        rfl

/-- A move that succeeds brings the content. -/
theorem move_dst (hne : dst ≠ src) (h : (move strict o src dst files).2) :
    (move strict o src dst files).1 dst = files src := by
  revert h
  rw [move]
  split
  · nofun
  · rename_i content hsrc
    split
    · rw [hsrc]
      exact fun _ => put_self (erase files src) dst content
    · nofun
    · rename_i copied removed
      dsimp only
      split
      · rename_i hcopied
        have hcopy : (copy copied src dst files).1 dst = files src := copy_dst hcopied
        split
        · intro _
          dsimp only
          rw [erase_of_ne hne, hcopy]
        · exact fun _ => hcopy
      · rename_i hfailed
        exact fun h => absurd h hfailed

theorem move_none (h : files src = none) : move strict o src dst files = (files, false) := by
  rw [move, h]

/-- A move takes nothing away but its source. -/
theorem move_there (hne : p ≠ src) (h : files p ≠ none) : (move strict o src dst files).1 p ≠ none := by
  by_cases hdst : p = dst
  · subst hdst
    rw [move]
    split
    · exact h
    · split
      · exact (put_self _ p _).trans_ne (Option.some_ne_none _)
      · exact h
      · rename_i copied removed
        have hcopy : (copy copied src p files).1 p ≠ none := copy_there h
        dsimp only
        split
        · split
          · dsimp only
            rw [erase_of_ne hne]
            exact hcopy
          · exact hcopy
        · exact hcopy
  · rw [move_of_ne hne hdst]
    exact h

/-- A strict move that succeeds takes its source away. -/
theorem move_src (hne : dst ≠ src) (h : (move true o src dst files).2) :
    (move true o src dst files).1 src = none := by
  revert h
  rw [move]
  split
  · nofun
  · split
    · intro _
      dsimp only
      rw [put_of_ne hne.symm, erase_self]
    · nofun
    · dsimp only
      split
      · split
        · exact fun _ => erase_self _ src
        · nofun
      · rename_i hfailed
        exact fun h => absurd h hfailed

/-- A move takes its source away or leaves it as it was. -/
theorem move_src_or (hne : src ≠ dst) : (move strict o src dst files).1 src = none ∨
    (move strict o src dst files).1 src = files src := by
  rw [move]
  split
  · exact .inr rfl
  · split
    · exact .inl ((put_of_ne hne _ _).trans (erase_self files src))
    · exact .inr rfl
    · dsimp only
      split
      · split
        · exact .inl (erase_self _ src)
        · exact .inr (copy_of_ne hne)
      · exact .inr (copy_of_ne hne)

/-- A move that leaves something leaves its destination there. -/
theorem move_leaves (hne : dst ≠ src) (h : files src ≠ none) (hleaves : o.leaves) :
    (move strict o src dst files).1 dst ≠ none := by
  obtain ⟨content, hsrc⟩ := Option.ne_none_iff_exists'.mp h
  rw [move, hsrc]
  cases o with
  | renamed =>
    dsimp only
    rw [put_self]
    exact Option.some_ne_none content
  | failed => cases hleaves
  | crossDevice copied removed =>
    dsimp only
    cases copied with
    | done =>
      have hcopy : (copy .done src dst files).2 := copy_succeeds h
      have hdst : (copy .done src dst files).1 dst = some content := (copy_dst hcopy).trans hsrc
      rw [if_pos hcopy]
      cases removed with
      | true =>
        rw [if_pos rfl]
        dsimp only
        rw [erase_of_ne hne, hdst]
        exact Option.some_ne_none content
      | false =>
        rw [if_neg Bool.false_ne_true, hdst]
        exact Option.some_ne_none content
    | failed left =>
      obtain ⟨left, rfl⟩ := Option.isSome_iff_exists.mp hleaves
      rw [copy, hsrc, if_neg Bool.false_ne_true]
      dsimp only
      rw [put_self]
      exact Option.some_ne_none left

/-- A move that leaves nothing changes nothing at its destination. -/
theorem move_keeps (hleaves : ¬o.leaves) : (move strict o src dst files).1 dst = files dst := by
  rw [move]
  split
  · rfl
  · rename_i content hsrc
    cases o with
    | renamed => exact absurd rfl hleaves
    | failed => rfl
    | crossDevice copied removed =>
      cases copied with
      | done => exact absurd rfl hleaves
      | failed left =>
        cases left with
        | some left => exact absurd rfl hleaves
        | none =>
          dsimp only
          rw [copy, hsrc]
          rfl

end Move

end Teleprompter.FallibleFiles
