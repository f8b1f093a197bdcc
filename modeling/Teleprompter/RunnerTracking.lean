import Teleprompter.RunnerProcesses
import Teleprompter.SpawnedTasks
import Teleprompter.StepRuns

/-!
# One tracked runner per session

A live child is reachable through the registration of its session, and then
there is at most one per session. A spawn replaces the registration and an
unregistration drops it, whoever is behind it; so the live children stay
reachable exactly when both happen only to sessions without a live child.
-/

namespace Teleprompter.RunnerTracking

open FiniteDictionary SpawnedTasks SessionStore RunnerProcesses StepRuns

/-- At most one live child serves a session, and a kill of the session
reaches it. -/
structure OneTracked (sys : RunnerSystem) : Prop where
  /-- Two live children serve different sessions. -/
  single : ∀ (c c' : ChildId) (child child' : Child), sys.children[c]? = some child →
    sys.children[c']? = some child' → child.alive = true → child'.alive = true → child.sid = child'.sid → c = c'
  /-- A kill reaches every live child. -/
  reachable : ∀ (c : ChildId) (child : Child), sys.children[c]? = some child → child.alive = true →
    killTarget sys child.sid = some c

/-- No live child serves a session. -/
def NoLiveChild (sys : RunnerSystem) (sid : String) : Prop :=
  ∀ child ∈ sys.children, child.alive = true → child.sid ≠ sid

/-- Children are spawned, and registrations are dropped by a handler, only
for sessions without a live child. -/
def AfterExit (sys : RunnerSystem) : RunnerEvent → Prop
  | .create sid _ => NoLiveChild sys sid
  | .advance i spawned => ∀ handler ∈ sys.handlers[i]?,
      (∀ sid ∈ unregisteredBy handler, NoLiveChild sys sid) ∧
        ∀ sid ∈ spawnedBy handler, spawned.isSome = true → NoLiveChild sys sid
  | _ => True

/-- Being reachable is enough: one registration reaches one child. -/
theorem oneTracked_iff (sys : RunnerSystem) : OneTracked sys ↔
    ∀ (c : ChildId) (child : Child), sys.children[c]? = some child → child.alive = true →
      killTarget sys child.sid = some c := by
  refine ⟨fun h => h.reachable, fun h => ⟨?_, h⟩⟩
  intro c c' child child' hc hc' halive halive' hsid
  have htarget := h c child hc halive
  rw [hsid, h c' child' hc' halive', Option.some.injEq] at htarget
  exact htarget.symm

/-- Live children and kills as before keep everything tracked. -/
theorem OneTracked.congr {sys sys' : RunnerSystem} (h : OneTracked sys)
    (hchildren : ∀ (c : ChildId) (child' : Child), sys'.children[c]? = some child' → child'.alive = true →
      ∃ child : Child, sys.children[c]? = some child ∧ child.alive = true ∧ child.sid = child'.sid)
    (htarget : ∀ sid, killTarget sys' sid = killTarget sys sid) : OneTracked sys' := by
  rw [oneTracked_iff]
  intro c child' hc' halive'
  obtain ⟨child, hc, halive, hsid⟩ := hchildren c child' hc' halive'
  rw [htarget, ← hsid]
  exact h.reachable c child hc halive

/-- A change of one child that does not revive it. -/
theorem children_setChild {sys : RunnerSystem} {c : ChildId} {old new : Child}
    (hold : sys.children[c]? = some old) (hsid : new.sid = old.sid)
    (halive : new.alive = true → old.alive = true) :
    ∀ (d : ChildId) (child' : Child), (setChild sys c new).children[d]? = some child' → child'.alive = true →
      ∃ child : Child, sys.children[d]? = some child ∧ child.alive = true ∧ child.sid = child'.sid := by
  intro d child' hd hlive
  rcases getElem?_set_eq_some hd with ⟨rfl, rfl⟩ | ⟨-, hother⟩
  · exact ⟨old, hold, halive hlive, hsid.symm⟩
  · exact ⟨child', hother, hlive, rfl⟩

/-- Spawning keeps everything tracked exactly when the session has no live
child. -/
theorem oneTracked_spawnRunner_iff {sys : RunnerSystem} (h : OneTracked sys) (sid : String)
    (pid : ℕ) : OneTracked (spawnRunner sys sid pid) ↔ NoLiveChild sys sid := by
  constructor
  · intro hafter child hmem halive hsid
    obtain ⟨c, hc⟩ := List.mem_iff_getElem?.mp hmem
    have hlt : c < sys.children.length := (List.getElem?_eq_some_iff.mp hc).1
    have hc' : (spawnRunner sys sid pid).children[c]? = some child := by
      rw [spawnRunner, List.getElem?_append_left hlt, hc]
    have htarget := hafter.reachable c child hc' halive
    rw [killTarget_spawnRunner, if_pos hsid, Option.some.injEq] at htarget
    omega
  · intro hnone
    rw [oneTracked_iff]
    intro c child hc halive
    rw [spawnRunner] at hc
    dsimp only at hc
    rw [killTarget_spawnRunner]
    by_cases hlt : c < sys.children.length
    · rw [List.getElem?_append_left hlt] at hc
      rw [if_neg (hnone child (List.mem_of_getElem? hc) halive)]
      exact h.reachable c child hc halive
    · have hge : sys.children.length ≤ c := Nat.le_of_not_lt hlt
      rw [List.getElem?_append_right hge] at hc
      have hin : c - sys.children.length < 1 := (List.getElem?_eq_some_iff.mp hc).1
      have hlast : c = sys.children.length := by
        have hin' : c - sys.children.length = 0 := Nat.lt_one_iff.mp hin
        exact Nat.le_antisymm (Nat.le_of_sub_eq_zero hin') hge
      rw [hlast, Nat.sub_self, List.getElem?_cons_zero, Option.some.injEq] at hc
      rw [← hc, if_pos rfl, hlast]

/-- Dropping a registration keeps everything tracked exactly when the session
has no live child. -/
theorem oneTracked_unregisterRunner_iff {sys : RunnerSystem} (h : OneTracked sys) (sid : String) :
    OneTracked (unregisterRunner sys sid) ↔ NoLiveChild sys sid := by
  constructor
  · intro hafter child hmem halive hsid
    obtain ⟨c, hc⟩ := List.mem_iff_getElem?.mp hmem
    have htarget := hafter.reachable c child hc halive
    rw [killTarget_unregisterRunner, if_pos hsid] at htarget
    contradiction
  · intro hnone
    rw [oneTracked_iff]
    intro c child hc halive
    rw [killTarget_unregisterRunner, if_neg (hnone child (List.mem_of_getElem? hc) halive)]
    exact h.reachable c child hc halive

/-- Stages of handlers do not matter. -/
theorem oneTracked_setHandler {sys : RunnerSystem} {i : ℕ} {handler : Handler} :
    OneTracked (setHandler sys i handler) ↔ OneTracked sys :=
  ⟨fun h => ⟨h.single, h.reachable⟩, fun h => ⟨h.single, h.reachable⟩⟩

/-- The next lock section of a handler keeps everything tracked exactly when
it drops and spawns for sessions without a live child. -/
theorem oneTracked_advanceHandler_iff {sys : RunnerSystem} (h : OneTracked sys) (i : ℕ)
    (spawned : Option ℕ) (handler : Handler) :
    OneTracked (advanceHandler sys i spawned handler) ↔
      (∀ sid ∈ unregisteredBy handler, NoLiveChild sys sid) ∧
        ∀ sid ∈ spawnedBy handler, spawned.isSome = true → NoLiveChild sys sid := by
  have hunregister := oneTracked_unregisterRunner_iff h
  have hspawn := oneTracked_spawnRunner_iff h
  have hregister : ∀ sid pid, OneTracked (registerRunner sys sid pid) := fun sid pid =>
    h.congr (fun c child hc halive => ⟨child, hc, halive, rfl⟩)
      (fun other => killTarget_registerRunner sys sid other pid)
  have hrows : ∀ rows, OneTracked { sys with rows } := fun _ => ⟨h.single, h.reachable⟩
  fun_cases advanceHandler sys i spawned handler
  all_goals simp [oneTracked_setHandler, unregisteredBy, spawnedBy, markSession, h, hunregister,
    hspawn, hregister, hrows]

/-- The exit of a dead child finds no live child of its session. -/
theorem OneTracked.noLiveChild_of_exitOwns {sys : RunnerSystem} (h : OneTracked sys) {c : ChildId}
    {child : Child} (hc : sys.children[c]? = some child) (hdead : child.alive = false)
    (howns : exitOwns sys c child.sid = true) : NoLiveChild sys child.sid := by
  intro other hmem halive hsid
  obtain ⟨d, hd⟩ := List.mem_iff_getElem?.mp hmem
  have htarget := h.reachable d other hd halive
  rw [hsid] at htarget
  obtain ⟨info, hinfo, hprocess⟩ := Option.bind_eq_some_iff.mp htarget
  simp only [exitOwns, hinfo, hprocess, Bool.or_eq_true, beq_iff_eq, Option.some.injEq] at howns
  rcases howns with hnone | rfl
  · contradiction
  · rw [hc, Option.some.injEq] at hd
    rw [← hd, hdead] at halive
    contradiction

/-- The exit of a child leaves no live child untracked. -/
theorem OneTracked.exitRemove {sys : RunnerSystem} (h : OneTracked sys) {c : ChildId}
    {child : Child} (hc : sys.children[c]? = some child) :
    OneTracked (exitRemove sys c child) := by
  have hset : ∀ {s : RunnerSystem}, OneTracked s → s.children[c]? = some child → ∀ watch,
      OneTracked (setChild s c { child with watch }) := fun hs hs' watch =>
    hs.congr (children_setChild hs' rfl id) (fun _ => rfl)
  unfold RunnerProcesses.exitRemove
  by_cases hdue : child.alive = false ∧ child.watch = .polling
  · rw [if_pos hdue]
    by_cases howns : exitOwns sys c child.sid = true
    · rw [if_pos howns]
      have hnone := h.noLiveChild_of_exitOwns hc hdue.1 howns
      exact hset ((oneTracked_unregisterRunner_iff h child.sid).mpr hnone) hc .notifying
    · rw [if_neg howns]
      exact hset h hc .done
  · rw [if_neg hdue]
    exact h

/-- The report of an exit leaves the children alone. -/
theorem OneTracked.exitNotify {sys : RunnerSystem} (h : OneTracked sys) {c : ChildId}
    {child : Child} (hc : sys.children[c]? = some child) :
    OneTracked (exitNotify sys c child) := by
  have hset : OneTracked (setChild sys c { child with watch := .done }) :=
    h.congr (children_setChild hc rfl id) (fun _ => rfl)
  unfold RunnerProcesses.exitNotify
  by_cases hdue : child.watch = .notifying
  · rw [if_pos hdue]
    by_cases hrow : sys.rows.lookup child.sid = some .running
    · rw [if_pos hrow]
      exact ⟨hset.single, hset.reachable⟩
    · rw [if_neg hrow]
      exact hset
  · rw [if_neg hdue]
    exact h

/-- One event keeps live children tracked exactly when it spawns and drops
for sessions without a live child. -/
theorem oneTracked_runnerStep_iff {sys : RunnerSystem} (h : OneTracked sys)
    (event : RunnerEvent) : OneTracked (runnerStep sys event) ↔ AfterExit sys event := by
  have hstart : ∀ rows handler, OneTracked (startHandler { sys with rows } handler) :=
    fun _ _ => ⟨h.single, h.reachable⟩
  cases event with
  | create sid pid => exact oneTracked_spawnRunner_iff h sid pid
  | hello sid pid => exact iff_of_true (hstart _ _) trivial
  | bye sid pid named state =>
    refine iff_of_true ?_ trivial
    rw [runnerStep]
    split
    · exact hstart sys.rows _
    · exact h
  | stop sid => exact iff_of_true h trivial
  | restart sid =>
    refine iff_of_true ?_ trivial
    rw [runnerStep]
    split
    · exact hstart sys.rows _
    · exact h
  | delete sid =>
    refine iff_of_true ?_ trivial
    rw [runnerStep]
    split
    · exact h
    · exact hstart sys.rows _
    · exact hstart sys.rows _
  | forceStop sid =>
    refine iff_of_true ?_ trivial
    rw [runnerStep]
    split
    · exact hstart sys.rows _
    · exact h
  | dies c =>
    refine iff_of_true ?_ trivial
    rw [runnerStep]
    cases hc : sys.children[c]? with
    | none => exact h
    | some child => exact h.congr (children_setChild hc rfl (by simp)) (fun _ => rfl)
  | exitRemove c =>
    refine iff_of_true ?_ trivial
    rw [runnerStep]
    cases hc : sys.children[c]? with
    | none => exact h
    | some child => exact h.exitRemove hc
  | exitNotify c =>
    refine iff_of_true ?_ trivial
    rw [runnerStep]
    cases hc : sys.children[c]? with
    | none => exact h
    | some child => exact h.exitNotify hc
  | advance i spawned =>
    rw [runnerStep, AfterExit]
    cases hi : sys.handlers[i]? with
    | none => simp [h]
    | some handler =>
      dsimp only
      rw [oneTracked_advanceHandler_iff h]
      simp

/-- Without children everything is tracked. -/
theorem oneTracked_initial : OneTracked RunnerSystem.initial :=
  (oneTracked_iff _).mpr fun _ _ hc => by simp [RunnerSystem.initial] at hc

/-- In every run, each session has at most one live child and a kill reaches
it, exactly when children are spawned and registrations dropped for sessions
without a live child. -/
theorem one_tracked_runner_iff (events : List RunnerEvent) :
    (∀ before, before <+: events →
        OneTracked (runFrom runnerStep RunnerSystem.initial before)) ↔
      Meets runnerStep AfterExit RunnerSystem.initial events := by
  have hbase : ∀ (sys : RunnerSystem) (event : RunnerEvent), True → True := fun _ _ h => h
  have hstep : ∀ sys event, True → OneTracked sys →
      (OneTracked (runnerStep sys event) ↔ AfterExit sys event) :=
    fun _ event _ h => oneTracked_runnerStep_iff h event
  exact forall_prefix_iff_meets hbase hstep trivial oneTracked_initial events

/-- Two frontends restart the session `s` at the same time. -/
def concurrentRestarts : List RunnerEvent :=
  [.create "s" 1, .hello "s" 1, .advance 0 none, .restart "s", .restart "s",
    .advance 1 none, .advance 2 none, .advance 1 none, .advance 2 none, .dies 0,
    .advance 1 none, .advance 2 none, .advance 1 none, .advance 1 (some 2),
    .advance 2 none, .advance 2 (some 3)]

/-- Both restarts spawn, and nothing reaches the child of the first. -/
theorem restart_orphans_child :
    (runFrom runnerStep RunnerSystem.initial concurrentRestarts).children =
        [⟨"s", 1, false, .polling⟩, ⟨"s", 2, true, .polling⟩, ⟨"s", 3, true, .polling⟩] ∧
      killTarget (runFrom runnerStep RunnerSystem.initial concurrentRestarts) "s" = some 2 ∧
      ¬∀ before, before <+: concurrentRestarts →
        OneTracked (runFrom runnerStep RunnerSystem.initial before) := by
  have hchildren : (runFrom runnerStep RunnerSystem.initial concurrentRestarts).children =
      [⟨"s", 1, false, .polling⟩, ⟨"s", 2, true, .polling⟩, ⟨"s", 3, true, .polling⟩] := by
    decide +kernel
  refine ⟨hchildren, by decide +kernel, fun htracked => ?_⟩
  have hsingle := (htracked concurrentRestarts List.prefix_rfl).single 1 2
    ⟨"s", 2, true, .polling⟩ ⟨"s", 3, true, .polling⟩ (by rw [hchildren]; rfl)
    (by rw [hchildren]; rfl) rfl rfl rfl
  contradiction

end Teleprompter.RunnerTracking
