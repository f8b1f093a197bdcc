import Mathlib.Data.List.Infix
import Mathlib.Data.List.TakeWhile

/-!
# Backtracking patterns and scans that remove matches

A pattern is matched as a backtracking engine does it: the ways to match a front
of the input are tried in an order of preference, and each leaves a rest. A scan
goes from left to right and cuts off what matches where it stands. The scan is
described for any function that cuts, so two ways to cut can be compared.
-/

namespace Teleprompter.PatternScans

variable {α : Type}

section Patterns

/-- Patterns over single elements. The repetitions prefer more rounds or fewer. -/
inductive Pattern (α : Type) where
  | empty
  | one (p : α → Bool)
  | seq (front back : Pattern α)
  | alt (first second : Pattern α)
  | many (body : Pattern α)
  | fewest (body : Pattern α)

/-- Rounds of a repetition. A round that uses up nothing does not count, and the fuel
bounds their number. -/
def rounds (greedy : Bool) (body : List α → List (List α)) : ℕ → List α → List (List α)
  | 0, s => [s]
  | n + 1, s =>
    let more := ((body s).filter fun t => t.length < s.length).flatMap (rounds greedy body n)
    if greedy = true then more ++ [s] else s :: more

/-- What the ways to match leave of the input, the preferred one first. -/
def rests : Pattern α → List α → List (List α)
  | .empty, s => [s]
  | .one _, [] => []
  | .one p, c :: s => if p c = true then [s] else []
  | .seq front back, s => (rests front s).flatMap (rests back)
  | .alt first second, s => rests first s ++ rests second s
  | .many body, s => rounds true (rests body) s.length s
  | .fewest body, s => rounds false (rests body) s.length s

/-- At most a number of rounds, the more the better. -/
def Pattern.upTo : ℕ → Pattern α → Pattern α
  | 0, _ => .empty
  | n + 1, body => .alt (.seq body (upTo n body)) .empty

/-- What the preferred match leaves. -/
def firstRest (pattern : Pattern α) (s : List α) : Option (List α) := (rests pattern s).head?

theorem rounds_zero (greedy : Bool) (body : List α → List (List α)) (s : List α) :
    rounds greedy body 0 s = [s] := rfl

theorem rounds_succ (greedy : Bool) (body : List α → List (List α)) (n : ℕ) (s : List α) :
    rounds greedy body (n + 1) s =
      if greedy = true then
        ((body s).filter fun t => t.length < s.length).flatMap (rounds greedy body n) ++ [s]
      else
        s :: ((body s).filter fun t => t.length < s.length).flatMap (rounds greedy body n) := rfl

theorem rests_one_nil (p : α → Bool) : rests (.one p) [] = [] := rfl

theorem rests_one_cons (p : α → Bool) (c : α) (s : List α) :
    rests (.one p) (c :: s) = if p c = true then [s] else [] := rfl

theorem rests_seq (front back : Pattern α) (s : List α) :
    rests (.seq front back) s = (rests front s).flatMap (rests back) := rfl

theorem rests_seq_one_cons (p : α → Bool) (back : Pattern α) (c : α) (s : List α) :
    rests (.seq (.one p) back) (c :: s) = if p c = true then rests back s else [] := by
  rw [rests_seq, rests_one_cons]
  split
  · rw [List.flatMap_cons, List.flatMap_nil, List.append_nil]
  · rfl

theorem rests_alt (first second : Pattern α) (s : List α) :
    rests (.alt first second) s = rests first s ++ rests second s := rfl

theorem rests_many_rounds (body : Pattern α) (s : List α) :
    rests (.many body) s = rounds true (rests body) s.length s := rfl

theorem rests_fewest_rounds (body : Pattern α) (s : List α) :
    rests (.fewest body) s = rounds false (rests body) s.length s := rfl

theorem rests_many_nil (body : Pattern α) : rests (.many body) [] = [[]] := rfl

theorem rests_upTo_zero (body : Pattern α) (s : List α) : rests (.upTo 0 body) s = [s] := rfl

theorem rests_upTo_succ (n : ℕ) (body : Pattern α) (s : List α) : rests (.upTo (n + 1) body) s =
    (rests body s).flatMap (rests (.upTo n body)) ++ [s] := rfl

theorem rounds_fuel {greedy : Bool} {body : List α → List (List α)} {n m : ℕ} {s : List α}
    (hn : s.length ≤ n) (hm : s.length ≤ m) :
    rounds greedy body n s = rounds greedy body m s := by
  induction n generalizing m s with
  | zero =>
    obtain rfl := List.length_eq_zero_iff.mp (Nat.le_zero.mp hn)
    cases m with
    | zero => rfl
    | succ m => cases greedy <;> simp [rounds_zero, rounds_succ]
  | succ n ih =>
    cases m with
    | zero =>
      obtain rfl := List.length_eq_zero_iff.mp (Nat.le_zero.mp hm)
      cases greedy <;> simp [rounds_zero, rounds_succ]
    | succ m =>
      have hsame : ((body s).filter fun t => t.length < s.length).flatMap (rounds greedy body n) =
          ((body s).filter fun t => t.length < s.length).flatMap (rounds greedy body m) := by
        refine List.flatMap_congr fun t ht => ?_
        have hshort : t.length < s.length := by simpa using (List.mem_filter.mp ht).2
        exact ih (by omega) (by omega)
      rw [rounds_succ, rounds_succ, hsame]

/-- A repetition tries one more round and then goes on without it. -/
theorem rests_many (body : Pattern α) (s : List α) : rests (.many body) s =
    ((rests body s).filter fun t => t.length < s.length).flatMap (rests (.many body)) ++ [s] := by
  rw [rests_many_rounds, rounds_fuel (le_refl _) (Nat.le_succ s.length), rounds_succ, if_pos rfl]
  congr 1
  refine List.flatMap_congr fun t ht => ?_
  have hshort : t.length < s.length := by simpa using (List.mem_filter.mp ht).2
  rw [rests_many_rounds, rounds_fuel (Nat.le_of_lt hshort) (le_refl _)]

theorem rests_fewest (body : Pattern α) (s : List α) : rests (.fewest body) s =
    s :: ((rests body s).filter fun t => t.length < s.length).flatMap (rests (.fewest body)) := by
  rw [rests_fewest_rounds, rounds_fuel (le_refl _) (Nat.le_succ s.length), rounds_succ,
    if_neg (by decide)]
  congr 1
  refine List.flatMap_congr fun t ht => ?_
  have hshort : t.length < s.length := by simpa using (List.mem_filter.mp ht).2
  rw [rests_fewest_rounds, rounds_fuel (Nat.le_of_lt hshort) (le_refl _)]

/-- What is left is an end of the input. -/
theorem suffix_of_mem_rests {pattern : Pattern α} {s t : List α} (h : t ∈ rests pattern s) :
    t <:+ s := by
  have hrounds {greedy : Bool} {body : Pattern α}
      (ih : ∀ {s t : List α}, t ∈ rests body s → t <:+ s) {n : ℕ} {s t : List α}
      (h : t ∈ rounds greedy (rests body) n s) : t <:+ s := by
    induction n generalizing s with
    | zero => rw [List.mem_singleton.mp h]
    | succ n ihn =>
      have hcases : (∃ u ∈ rests body s, t ∈ rounds greedy (rests body) n u) ∨ t = s := by
        rw [rounds_succ] at h
        cases greedy with
        | true =>
          rw [if_pos rfl, List.mem_append, List.mem_singleton, List.mem_flatMap] at h
          exact h.imp (fun ⟨u, hu, ht⟩ => ⟨u, (List.mem_filter.mp hu).1, ht⟩) id
        | false =>
          rw [if_neg (by decide), List.mem_cons, List.mem_flatMap] at h
          exact h.symm.imp (fun ⟨u, hu, ht⟩ => ⟨u, (List.mem_filter.mp hu).1, ht⟩) id
      obtain ⟨u, hu, ht⟩ | rfl := hcases
      · exact (ihn ht).trans (ih hu)
      · exact List.suffix_rfl
  induction pattern generalizing s t with
  | empty => rw [List.mem_singleton.mp h]
  | one p =>
    cases s with
    | nil => cases h
    | cons c s =>
      rw [rests_one_cons] at h
      split at h
      · rw [List.mem_singleton.mp h]
        exact List.suffix_cons c s
      · cases h
  | seq front back ihf ihb =>
    obtain ⟨u, hu, ht⟩ := List.mem_flatMap.mp h
    exact (ihb ht).trans (ihf hu)
  | alt first second ih₁ ih₂ => exact (List.mem_append.mp h).elim ih₁ ih₂
  | many body ih | fewest body ih => exact hrounds ih h

/-- A repetition of single elements in front of something that none of them begins
takes as many as there are. -/
theorem flatMap_rests_many_one {p : α → Bool} {f : List α → List (List α)}
    (h : ∀ c s, p c = true → f (c :: s) = []) (s : List α) :
    (rests (.many (.one p)) s).flatMap f = f (s.dropWhile p) := by
  induction s with
  | nil => simp [rests_many_nil]
  | cons c s ih =>
    rw [rests_many, rests_one_cons]
    cases hc : p c with
    | false => simp [hc]
    | true => simp [hc, ih, h c s hc]

/-- A bounded repetition of single elements in front of something that none of them
begins takes as many as there are and may be taken. -/
theorem flatMap_rests_upTo_one {p : α → Bool} {f : List α → List (List α)}
    (h : ∀ c s, p c = true → f (c :: s) = []) (n : ℕ) (s : List α) :
    (rests (.upTo n (.one p)) s).flatMap f = f (s.drop (min n (s.takeWhile p).length)) := by
  induction n generalizing s with
  | zero => simp [rests_upTo_zero]
  | succ n ih =>
    cases s with
    | nil => simp [rests_upTo_succ, rests_one_nil]
    | cons c s =>
      rw [rests_upTo_succ, rests_one_cons]
      cases hc : p c with
      | false => simp [hc]
      | true => simp [hc, ih, h c s hc, Nat.succ_min_succ]

/-- The preferred way to repeat a single element takes as many as there are. -/
theorem firstRest_many_one (p : α → Bool) (s : List α) :
    firstRest (.many (.one p)) s = some (s.dropWhile p) := by
  rw [firstRest]
  induction s with
  | nil => simp [rests_many_nil]
  | cons c s ih =>
    rw [rests_many, rests_one_cons]
    cases hc : p c with
    | false => simp [hc]
    | true => simp [hc, ih]

/-- Where the preferred way through the front goes on, it is the preferred one. -/
theorem firstRest_seq {front back : Pattern α} {s t u : List α}
    (hfront : firstRest front s = some t) (hback : firstRest back t = some u) :
    firstRest (.seq front back) s = some u := by
  obtain ⟨others, hs⟩ := List.head?_eq_some_iff.mp hfront
  obtain ⟨more, ht⟩ := List.head?_eq_some_iff.mp hback
  rw [firstRest, rests_seq, hs, List.flatMap_cons, ht]
  rfl

/-- The front of the input that the preferred match takes. -/
def matched (pattern : Pattern α) (s : List α) : Option (List α) :=
  (firstRest pattern s).map fun rest => s.take (s.length - rest.length)

theorem matched_append {pattern : Pattern α} {front rest : List α}
    (h : firstRest pattern (front ++ rest) = some rest) :
    matched pattern (front ++ rest) = some front := by
  rw [matched, h, Option.map_some, List.length_append, Nat.add_sub_cancel, List.take_left]

/-- The fewest elements in front of something are those in front of its first place. -/
theorem flatMap_rests_fewest_any {f : List α → List (List α)} (c : α) (s : List α) :
    (rests (.fewest (.one fun _ => true)) (c :: s)).flatMap f =
      f (c :: s) ++ (rests (.fewest (.one fun _ => true)) s).flatMap f := by
  rw [rests_fewest, rests_one_cons]
  simp

end Patterns

section Scans

/-- The scan with a bound on its steps. -/
def removeFrom (cut : List α → Option (List α)) : ℕ → List α → List α
  | 0, _ => []
  | _ + 1, [] => []
  | n + 1, c :: s =>
    match cut (c :: s) with
    | some rest => removeFrom cut n rest
    | none => c :: removeFrom cut n s

/-- What a scan leaves that cuts off wherever it can. -/
def removeAll (cut : List α → Option (List α)) (s : List α) : List α := removeFrom cut s.length s

/-- A cut leaves less than there was. -/
def Shortens (cut : List α → Option (List α)) : Prop :=
  ∀ s rest, cut s = some rest → rest.length < s.length

variable {cut other : List α → Option (List α)}

theorem removeFrom_succ_cons (n : ℕ) (c : α) (s : List α) : removeFrom cut (n + 1) (c :: s) =
    match cut (c :: s) with
    | some rest => removeFrom cut n rest
    | none => c :: removeFrom cut n s := rfl

theorem removeFrom_fuel (hcut : Shortens cut) {n m : ℕ} {s : List α} (hn : s.length ≤ n)
    (hm : s.length ≤ m) : removeFrom cut n s = removeFrom cut m s := by
  induction n generalizing m s with
  | zero =>
    obtain rfl := List.length_eq_zero_iff.mp (Nat.le_zero.mp hn)
    cases m <;> rfl
  | succ n ih =>
    cases s with
    | nil => cases m <;> rfl
    | cons c s =>
      cases m with
      | zero => exact absurd hm (Nat.not_succ_le_zero _)
      | succ m =>
        rw [List.length_cons] at hn hm
        rw [removeFrom_succ_cons, removeFrom_succ_cons]
        cases hrest : cut (c :: s) with
        | none =>
          have hsame := ih (m := m) (s := s) (by omega) (by omega)
          simp only [hsame]
        | some rest =>
          have hshort := hcut _ _ hrest
          rw [List.length_cons] at hshort
          exact ih (by omega) (by omega)

theorem removeAll_nil : removeAll cut [] = [] := rfl

/-- Where the scan can cut, it goes on with the rest. -/
theorem removeAll_of_some (hcut : Shortens cut) {s rest : List α} (h : cut s = some rest) :
    removeAll cut s = removeAll cut rest := by
  have hshort := hcut _ _ h
  cases s with
  | nil => exact absurd hshort (Nat.not_lt_zero _)
  | cons c s =>
    rw [List.length_cons] at hshort
    rw [removeAll, List.length_cons, removeFrom_succ_cons, h]
    exact removeFrom_fuel hcut (by omega) (le_refl _)

/-- Where it cannot cut, it keeps one element. -/
theorem removeAll_of_none {c : α} {s : List α} (h : cut (c :: s) = none) :
    removeAll cut (c :: s) = c :: removeAll cut s := by
  rw [removeAll, List.length_cons, removeFrom_succ_cons, h]
  rfl

/-- What nothing can be cut off at is kept. -/
theorem removeAll_append {front : List α} (h : ∀ c ∈ front, ∀ s, cut (c :: s) = none)
    (s : List α) : removeAll cut (front ++ s) = front ++ removeAll cut s := by
  induction front with
  | nil => rfl
  | cons c front ih =>
    rw [List.cons_append, removeAll_of_none (h c List.mem_cons_self _),
      ih fun d hd => h d (List.mem_cons_of_mem c hd), List.cons_append]

/-- Property of every place where a scan stands. -/
inductive AllScanned (cut : List α → Option (List α)) (P : List α → Prop) : List α → Prop where
  | nil : AllScanned cut P []
  | cut {s rest : List α} (here : P s) (h : cut s = some rest) (later : AllScanned cut P rest) :
      AllScanned cut P s
  | keep {c : α} {s : List α} (here : P (c :: s)) (h : cut (c :: s) = none)
      (later : AllScanned cut P s) : AllScanned cut P (c :: s)

/-- Two ways to cut that agree wherever the scan stands leave the same. -/
theorem AllScanned.removeAll_eq (hcut : Shortens cut) (hother : Shortens other) {s : List α}
    (h : AllScanned cut (fun s => cut s = other s) s) : removeAll cut s = removeAll other s := by
  induction h with
  | nil => rfl
  | cut here h _ ih => rw [removeAll_of_some hcut h, removeAll_of_some hother (here ▸ h), ih]
  | keep here h _ ih => rw [removeAll_of_none h, removeAll_of_none (here ▸ h), ih]

theorem AllScanned.imp {P Q : List α → Prop} (hPQ : ∀ s, P s → Q s) {s : List α}
    (h : AllScanned cut P s) : AllScanned cut Q s := by
  induction h with
  | nil => exact .nil
  | cut here h _ ih => exact .cut (hPQ _ here) h ih
  | keep here h _ ih => exact .keep (hPQ _ here) h ih

end Scans

end Teleprompter.PatternScans
