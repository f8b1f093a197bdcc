import Mathlib.Data.List.Infix
import Mathlib.Data.Nat.Find
import Mathlib.Order.Basic

/-!
# Runs of a deterministic step function

A system is a step function from a state and an event to the next state. A
finite run folds the step over an event list; an infinite schedule gives one
event per instant. Step conditions are evaluated in the state each event
meets. The rules below turn a fact about one step into a fact about every
run, and an exact step condition into an exact run condition.
-/

namespace Teleprompter.StepRuns

variable {σ ε : Type}

/-- The state after all events, taken in list order. -/
def runFrom (step : σ → ε → σ) (s : σ) (events : List ε) : σ := events.foldl step s

/-- Every event satisfies the condition in the state it meets. -/
def Meets (step : σ → ε → σ) (cond : σ → ε → Prop) : σ → List ε → Prop
  | _, [] => True
  | s, e :: events => cond s e ∧ Meets step cond (step s e) events

/-- Meeting a decidable condition along a run is decidable. -/
instance Meets.decidable (step : σ → ε → σ) (cond : σ → ε → Prop)
    [∀ s e, Decidable (cond s e)] : (s : σ) → (events : List ε) → Decidable (Meets step cond s events)
  | _, [] => isTrue trivial
  | s, e :: events =>
    have := Meets.decidable step cond (step s e) events
    inferInstanceAs (Decidable (cond s e ∧ Meets step cond (step s e) events))

/-- The state reached before instant `n` of an infinite schedule. -/
def stateAt (step : σ → ε → σ) (s : σ) (schedule : ℕ → ε) : ℕ → σ
  | 0 => s
  | n + 1 => step (stateAt step s schedule n) (schedule n)

@[simp] theorem runFrom_nil (step : σ → ε → σ) (s : σ) : runFrom step s [] = s := rfl

@[simp] theorem runFrom_cons (step : σ → ε → σ) (s : σ) (e : ε) (events : List ε) :
    runFrom step s (e :: events) = runFrom step (step s e) events := rfl

/-- A property kept by every step holds after every run. -/
theorem runFrom_induction {step : σ → ε → σ} {inv : σ → Prop}
    (hstep : ∀ s e, inv s → inv (step s e)) {s : σ} (hs : inv s) (events : List ε) :
    inv (runFrom step s events) := by
  induction events generalizing s with
  | nil => exact hs
  | cons e events ih => exact ih (hstep s e hs)

/-- A property kept by every step that meets the condition holds after
every run whose steps all meet it. -/
theorem runFrom_induction_of_meets {step : σ → ε → σ} {cond : σ → ε → Prop} {inv : σ → Prop}
    (hstep : ∀ s e, inv s → cond s e → inv (step s e)) {s : σ} (hs : inv s) {events : List ε}
    (hm : Meets step cond s events) : inv (runFrom step s events) := by
  induction events generalizing s with
  | nil => exact hs
  | cons e events ih => exact ih (hstep s e hs hm.1) hm.2

/-- Conditions met along a run are met along each of its prefixes. -/
theorem meets_of_isPrefix {step : σ → ε → σ} {cond : σ → ε → Prop} {s : σ}
    {before events : List ε} (hp : before <+: events) (hm : Meets step cond s events) :
    Meets step cond s before := by
  induction before generalizing s events with
  | nil => trivial
  | cons e before ih =>
    cases events with
    | nil => exact absurd (List.prefix_nil.mp hp) (List.cons_ne_nil e before)
    | cons e' events =>
      obtain ⟨rfl, htail⟩ := List.cons_prefix_cons.mp hp
      exact ⟨hm.1, ih htail hm.2⟩

/-- The state after a run that goes on. -/
theorem runFrom_append (step : σ → ε → σ) (s : σ) (before after : List ε) :
    runFrom step s (before ++ after) = runFrom step (runFrom step s before) after :=
  List.foldl_append

/-- A run that goes on meets a condition when each part does. -/
theorem meets_append {step : σ → ε → σ} {cond : σ → ε → Prop} {s : σ} {before after : List ε} :
    Meets step cond s (before ++ after) ↔
      Meets step cond s before ∧ Meets step cond (runFrom step s before) after := by
  induction before generalizing s with
  | nil => exact ⟨fun h => ⟨trivial, h⟩, And.right⟩
  | cons e before ih =>
    rw [List.cons_append, Meets, Meets, ih, runFrom_cons]
    exact and_assoc.symm

/-- A longer run meets a condition when the shorter one does and the last
event does in the state it meets. -/
theorem meets_concat {step : σ → ε → σ} {cond : σ → ε → Prop} {s : σ} {before : List ε} {e : ε} :
    Meets step cond s (before ++ [e]) ↔
      Meets step cond s before ∧ cond (runFrom step s before) e := by
  rw [meets_append, Meets, Meets, and_true]

/-- A condition is met along a run exactly when every event of it meets it in the
state that the events before it lead to. -/
theorem meets_iff_forall_split {step : σ → ε → σ} {cond : σ → ε → Prop} {s : σ}
    {events : List ε} : Meets step cond s events ↔
      ∀ before e after, events = before ++ e :: after → cond (runFrom step s before) e := by
  induction events generalizing s with
  | nil => exact ⟨fun _ before e after h => absurd h.symm (List.append_ne_nil_of_right_ne_nil _
      (List.cons_ne_nil e after)), fun _ => trivial⟩
  | cons e events ih =>
    rw [Meets, ih]
    constructor
    · rintro ⟨hfirst, hrest⟩ before e' after hsplit
      cases before with
      | nil =>
        obtain ⟨rfl, -⟩ := List.cons.inj hsplit
        exact hfirst
      | cons b before =>
        obtain ⟨rfl, htail⟩ := List.cons.inj hsplit
        exact hrest before e' after htail
    · intro h
      exact ⟨h [] e events rfl, fun before e' after hsplit =>
        h (e :: before) e' after (congrArg (e :: ·) hsplit)⟩

/-- When a step from a good state is good exactly under the condition, a run
stays good at every prefix exactly when all of its steps meet the condition.
Steps are taken from an admissible run, and the background invariant is kept
by every admissible step. -/
theorem forall_prefix_iff_meets_within {step : σ → ε → σ} {adm cond : σ → ε → Prop}
    {base good : σ → Prop} (hbase : ∀ s e, base s → adm s e → base (step s e))
    (hstep : ∀ s e, base s → adm s e → good s → (good (step s e) ↔ cond s e))
    {s : σ} (hb : base s) (hg : good s) {events : List ε} (hadm : Meets step adm s events) :
    (∀ before, before <+: events → good (runFrom step s before)) ↔
      Meets step cond s events := by
  induction events generalizing s with
  | nil =>
    refine ⟨fun _ => trivial, fun _ before hp => ?_⟩
    rw [List.prefix_nil.mp hp]
    exact hg
  | cons e events ih =>
    have hnext := hstep s e hb hadm.1 hg
    have hb' := hbase s e hb hadm.1
    constructor
    · intro h
      have hgood : good (step s e) := h [e] ⟨events, rfl⟩
      refine ⟨hnext.mp hgood, (ih hb' hgood hadm.2).mp fun before hp => ?_⟩
      exact h (e :: before) (List.cons_prefix_cons.mpr ⟨rfl, hp⟩)
    · rintro ⟨hc, hm⟩ before hp
      cases before with
      | nil => exact hg
      | cons e' before =>
        obtain ⟨rfl, htail⟩ := List.cons_prefix_cons.mp hp
        exact (ih hb' (hnext.mpr hc) hadm.2).mpr hm before htail

/-- A condition that the events of a run meet in every state is met along it. -/
theorem meets_of_forall_mem {step : σ → ε → σ} {cond : σ → ε → Prop} {events : List ε}
    (h : ∀ e ∈ events, ∀ s, cond s e) (s : σ) : Meets step cond s events := by
  induction events generalizing s with
  | nil => trivial
  | cons e events ih =>
    exact ⟨h e List.mem_cons_self s, ih (fun e' he => h e' (List.mem_cons_of_mem e he)) (step s e)⟩

/-- A condition that every step meets is met along every run. -/
theorem meets_of_forall {step : σ → ε → σ} {cond : σ → ε → Prop} (h : ∀ s e, cond s e) (s : σ)
    (events : List ε) : Meets step cond s events :=
  meets_of_forall_mem (fun e _ s => h s e) s

/-- Exact run conditions when every step is admissible. -/
theorem forall_prefix_iff_meets {step : σ → ε → σ} {cond : σ → ε → Prop} {base good : σ → Prop}
    (hbase : ∀ s e, base s → base (step s e))
    (hstep : ∀ s e, base s → good s → (good (step s e) ↔ cond s e))
    {s : σ} (hb : base s) (hg : good s) (events : List ε) :
    (∀ before, before <+: events → good (runFrom step s before)) ↔
      Meets step cond s events := by
  have hadm : Meets step (fun _ _ => True) s events :=
    meets_of_forall (fun _ _ => trivial) s events
  exact forall_prefix_iff_meets_within (fun s e h _ => hbase s e h)
    (fun s e h _ => hstep s e h) hb hg hadm

/-- Two conditions are met together exactly when each is. -/
theorem meets_and {step : σ → ε → σ} {p q : σ → ε → Prop} {s : σ} {events : List ε} :
    Meets step (fun s e => p s e ∧ q s e) s events ↔
      Meets step p s events ∧ Meets step q s events := by
  induction events generalizing s with
  | nil => exact ⟨fun _ => ⟨trivial, trivial⟩, fun _ => trivial⟩
  | cons e events ih =>
    rw [Meets, Meets, Meets, ih]
    exact and_and_and_comm

/-- The first event of a schedule can be taken beforehand. -/
theorem stateAt_succ_eq (step : σ → ε → σ) (s : σ) (schedule : ℕ → ε) (n : ℕ) :
    stateAt step s schedule (n + 1) =
      stateAt step (step s (schedule 0)) (fun i => schedule (i + 1)) n := by
  induction n with
  | zero => rfl
  | succ n ih => rw [stateAt, ih, stateAt]

/-- A finite run first, then a schedule. -/
def followedBy : List ε → (ℕ → ε) → ℕ → ε
  | [], tail, n => tail n
  | e :: _, _, 0 => e
  | _ :: events, tail, n + 1 => followedBy events tail n

/-- After its finite run a schedule continues from the state reached. -/
theorem stateAt_followedBy (step : σ → ε → σ) (s : σ) (events : List ε) (tail : ℕ → ε) (n : ℕ) :
    stateAt step s (followedBy events tail) (events.length + n) =
      stateAt step (runFrom step s events) tail n := by
  induction events generalizing s with
  | nil =>
    have htail : followedBy [] tail = tail := by
      funext i
      rw [followedBy]
    rw [htail, List.length_nil, Nat.zero_add, runFrom_nil]
  | cons e events ih =>
    rw [List.length_cons, Nat.add_right_comm, stateAt_succ_eq]
    exact ih (step s e)

/-- After its finite run a schedule takes the events of its tail. -/
theorem followedBy_length_add (events : List ε) (tail : ℕ → ε) (n : ℕ) :
    followedBy events tail (events.length + n) = tail n := by
  induction events with
  | nil => rw [followedBy, List.length_nil, Nat.zero_add]
  | cons e events ih =>
    rw [List.length_cons, Nat.add_right_comm, followedBy]
    exact ih

/-- From some instant on it does not happen. -/
def FinitelyOften (p : ℕ → Prop) : Prop := ∃ start, ∀ n, start ≤ n → ¬p n

/-- What happens only finitely often in each of two ways does so in either. -/
theorem FinitelyOften.or {p q : ℕ → Prop} (hp : FinitelyOften p) (hq : FinitelyOften q) :
    FinitelyOften fun n => p n ∨ q n := by
  obtain ⟨a, ha⟩ := hp
  obtain ⟨b, hb⟩ := hq
  refine ⟨max a b, fun n hn => not_or.mpr ⟨ha n ?_, hb n ?_⟩⟩
  · omega
  · omega

/-- A sequence of numbers takes a smallest value after any instant. -/
theorem exists_smallest_from (f : ℕ → ℕ) (start : ℕ) :
    ∃ least, start ≤ least ∧ ∀ n, start ≤ n → f least ≤ f n := by
  classical
  have hex : ∃ value, ∃ n, start ≤ n ∧ f n = value := ⟨f start, start, le_rfl, rfl⟩
  obtain ⟨least, hle, hleast⟩ := Nat.find_spec hex
  refine ⟨least, hle, fun n hn => ?_⟩
  rw [hleast]
  exact Nat.find_min' hex ⟨n, hn, rfl⟩

/-- What a potential pays for happens only finitely often. -/
theorem finitelyOften_of_potential (potential cost : ℕ → ℕ) (start : ℕ)
    (h : ∀ n, start ≤ n → potential (n + 1) + cost n ≤ potential n) :
    FinitelyOften fun n => cost n ≠ 0 := by
  obtain ⟨least, hle, hmin⟩ := exists_smallest_from potential start
  have hconst : ∀ n, least ≤ n → potential n = potential least := by
    intro n hn
    induction n, hn using Nat.le_induction with
    | base => rfl
    | succ n hn ih =>
      have hstep := h n (by omega)
      have hnext := hmin (n + 1) (by omega)
      omega
  refine ⟨least, fun n hn hcost => hcost ?_⟩
  have hstep := h n (by omega)
  rw [hconst n hn, hconst (n + 1) (by omega)] at hstep
  omega

end Teleprompter.StepRuns
