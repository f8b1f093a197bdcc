import Teleprompter.RunnerProcesses
import Teleprompter.SpawnedTasks
import Teleprompter.StepRuns

/-!
# Generations of runners

The exit of a child and the goodbye of a runner remove the registration they
find and mark its session. They are meant for their own runner only. The pid
check of a goodbye and the handle check of an exit happen before the steps
they guard, a goodbye need not name its pid, and a registration may track no
child or the child of another runner. Under the condition below these gaps are
closed, and nothing of an earlier runner reaches a later one.
-/

namespace Teleprompter.RunnerGenerations

open FiniteDictionary SpawnedTasks SessionStore RunnerProcesses StepRuns

/-- Whose event it is. -/
inductive Cause where
  | runner (pid : ℕ)
  | request
  deriving DecidableEq

/-- Exits and goodbyes belong to a runner, everything else is a request. -/
def causeOf (sys : RunnerSystem) : RunnerEvent → Cause
  | .exitRemove c =>
    match sys.children[c]? with
    | some child => .runner child.pid
    | none => .request
  | .exitNotify c =>
    match sys.children[c]? with
    | some child => .runner child.pid
    | none => .request
  | .bye _ pid _ _ => .runner pid
  | .advance i _ =>
    match sys.handlers[i]? with
    | some (.bye _ pid _ _) => .runner pid
    | _ => .request
  | _ => .request

/-- The pid of a runner whose hello for the session is under way. -/
def helloPid (sid : String) : Handler → Option ℕ
  | .hello other pid => if other = sid then some pid else none
  | _ => none

/-- The pid of a runner whose goodbye for the session is under way. -/
def byePid (sid : String) : Handler → Option ℕ
  | .bye other pid _ _ => if other = sid then some pid else none
  | _ => none

/-- Runners that serve a session: the registered one, and those whose hello is
under way. -/
def presentPids (sys : RunnerSystem) (sid : String) : List ℕ :=
  (sys.runners.lookup sid).toList.map RunnerInfo.pid ++ sys.handlers.filterMap (helloPid sid)

/-- Runners that are being removed from a session: by their goodbye, or by
their exit. -/
def endingPids (sys : RunnerSystem) (sid : String) : List ℕ :=
  sys.handlers.filterMap (byePid sid) ++
    (sys.children.filter fun child => child.sid = sid ∧ child.watch = .notifying).map Child.pid

/-- A request may concern any runner, an event of a runner only itself. -/
def Concerns (cause : Cause) (pid : ℕ) : Prop := cause = .request ∨ cause = .runner pid

/-- An event removes a registration and marks a session only if it is a
request or an event of the runner concerned. -/
structure OwnGeneration (sys : RunnerSystem) (event : RunnerEvent) : Prop where
  /-- A registration is removed. -/
  removal : ∀ sid info, sys.runners.lookup sid = some info →
    (runnerStep sys event).runners.lookup sid = none → Concerns (causeOf sys event) info.pid
  /-- A session is shown as stopped or failed. -/
  mark : ∀ sid state, (runnerStep sys event).rows.lookup sid = some state → state ≠ .running →
    sys.rows.lookup sid ≠ some state → ∀ pid ∈ presentPids sys sid,
      Concerns (causeOf sys event) pid

/-- A hello registers over the tracked child with that child's pid, and
without a tracked child only when no watcher of another runner polls. -/
def RegistersOwn (sys : RunnerSystem) (sid : String) (pid : ℕ) : Prop :=
  match killTarget sys sid with
  | some c => ∀ child ∈ sys.children[c]?, child.pid = pid
  | none => ∀ child ∈ sys.children, child.sid = sid → child.watch = .polling → child.pid = pid

/-- A handler registers its own runner, and spawns when no other runner is
being removed. -/
def HandlerWaits (sys : RunnerSystem) (spawned : Option ℕ) : Handler → Prop
  | .hello sid pid => RegistersOwn sys sid pid
  | .restart sid .spawning => ∀ pid ∈ spawned, ∀ q ∈ endingPids sys sid, q = pid
  | _ => True

/-- Runners come and go one after the other: none starts while another one of
its session is being removed, and none is being removed while the hello of
another one is under way. A goodbye that does not name its pid comes from the
runner that is registered. -/
def OneAfterAnother (sys : RunnerSystem) : RunnerEvent → Prop
  | .create sid pid => ∀ q ∈ endingPids sys sid, q = pid
  | .hello sid pid => ∀ q ∈ endingPids sys sid, q = pid
  | .bye sid pid named _ => byeAccepted sys sid pid named = true →
      ∀ p ∈ presentPids sys sid, p = pid
  | .exitRemove c => ∀ child ∈ sys.children[c]?, exitOwns sys c child.sid = true →
      ∀ p ∈ sys.handlers.filterMap (helloPid child.sid), p = child.pid
  | .advance i spawned => ∀ handler ∈ sys.handlers[i]?, HandlerWaits sys spawned handler
  | _ => True

/-- What holds between the registrations, the children and the handlers. -/
structure Guarded (sys : RunnerSystem) : Prop where
  /-- The tracked child of a registration is its own runner. -/
  tracked : ∀ sid info c, sys.runners.lookup sid = some info → info.process = some c →
    ∃ child, sys.children[c]? = some child ∧ child.pid = info.pid
  /-- Without a tracked child no watcher of another runner polls. -/
  untracked : ∀ sid info, sys.runners.lookup sid = some info → info.process = none →
    ∀ child ∈ sys.children, child.sid = sid → child.watch = .polling → child.pid = info.pid
  /-- Runners that are being removed do not meet others. -/
  apart : ∀ sid, ∀ p ∈ presentPids sys sid, ∀ q ∈ endingPids sys sid, p = q

/-- Who serves a session. -/
theorem mem_presentPids {sys : RunnerSystem} {sid : String} {p : ℕ} :
    p ∈ presentPids sys sid ↔ (∃ info, sys.runners.lookup sid = some info ∧ info.pid = p) ∨
      Handler.hello sid p ∈ sys.handlers := by
  have hhello : p ∈ sys.handlers.filterMap (helloPid sid) ↔
      Handler.hello sid p ∈ sys.handlers := by
    rw [List.mem_filterMap]
    constructor
    · rintro ⟨handler, hmem, heq⟩
      cases handler with
      | hello other pid =>
        simp only [helloPid, Option.ite_none_right_eq_some, Option.some.injEq] at heq
        rw [← heq.1, ← heq.2]
        exact hmem
      | _ => simp [helloPid] at heq
    · intro hmem
      exact ⟨_, hmem, by simp [helloPid]⟩
  rw [presentPids, List.mem_append, hhello]
  simp

/-- Who is being removed from a session. -/
theorem mem_endingPids {sys : RunnerSystem} {sid : String} {q : ℕ} :
    q ∈ endingPids sys sid ↔ (∃ state marked, Handler.bye sid q state marked ∈ sys.handlers) ∨
      ∃ child ∈ sys.children, child.sid = sid ∧ child.watch = .notifying ∧ child.pid = q := by
  have hbye : q ∈ sys.handlers.filterMap (byePid sid) ↔
      ∃ state marked, Handler.bye sid q state marked ∈ sys.handlers := by
    rw [List.mem_filterMap]
    constructor
    · rintro ⟨handler, hmem, heq⟩
      cases handler with
      | bye other pid state marked =>
        simp only [byePid, Option.ite_none_right_eq_some, Option.some.injEq] at heq
        rw [← heq.1, ← heq.2]
        exact ⟨state, marked, hmem⟩
      | _ => simp [byePid] at heq
    · rintro ⟨state, marked, hmem⟩
      exact ⟨_, hmem, by simp [byePid]⟩
  rw [endingPids, List.mem_append, hbye, List.mem_map]
  simp [and_assoc]

/-- Steps that only remove: registrations, hellos, goodbyes, and stages of
watchers. -/
structure Shrinks (sys sys' : RunnerSystem) : Prop where
  /-- Registrations were there before. -/
  registered : ∀ sid info, sys'.runners.lookup sid = some info →
    sys.runners.lookup sid = some info
  /-- No child is forgotten. -/
  length : sys'.children.length = sys.children.length
  /-- Children were there before, and no watcher went back. -/
  child : ∀ (c : ChildId) (child' : Child), sys'.children[c]? = some child' →
    ∃ child : Child, sys.children[c]? = some child ∧ child.pid = child'.pid ∧
      child.sid = child'.sid ∧ (child'.watch = child.watch ∨ child'.watch = .done)
  /-- Hellos were under way before. -/
  hello : ∀ sid p, Handler.hello sid p ∈ sys'.handlers → Handler.hello sid p ∈ sys.handlers
  /-- Goodbyes were under way before. -/
  bye : ∀ sid q state marked, Handler.bye sid q state marked ∈ sys'.handlers →
    ∃ marked', Handler.bye sid q state marked' ∈ sys.handlers

/-- A child of the later system, by membership. -/
theorem Shrinks.mem_child {sys sys' : RunnerSystem} (h : Shrinks sys sys') {child' : Child}
    (hmem : child' ∈ sys'.children) : ∃ child ∈ sys.children, child.pid = child'.pid ∧
      child.sid = child'.sid ∧ (child'.watch = child.watch ∨ child'.watch = .done) := by
  obtain ⟨c, hc⟩ := List.mem_iff_getElem?.mp hmem
  obtain ⟨child, hold, hrest⟩ := h.child c child' hc
  exact ⟨child, List.mem_of_getElem? hold, hrest⟩

/-- Who serves a session did so before. -/
theorem Shrinks.present {sys sys' : RunnerSystem} (h : Shrinks sys sys') {sid : String} {p : ℕ}
    (hp : p ∈ presentPids sys' sid) : p ∈ presentPids sys sid := by
  rw [mem_presentPids] at hp ⊢
  rcases hp with ⟨info, hinfo, hpid⟩ | hhello
  · exact Or.inl ⟨info, h.registered sid info hinfo, hpid⟩
  · exact Or.inr (h.hello sid p hhello)

/-- Who is being removed from a session was so before. -/
theorem Shrinks.ending {sys sys' : RunnerSystem} (h : Shrinks sys sys') {sid : String} {q : ℕ}
    (hq : q ∈ endingPids sys' sid) : q ∈ endingPids sys sid := by
  rw [mem_endingPids] at hq ⊢
  rcases hq with ⟨state, marked, hbye⟩ | ⟨child', hmem, hsid, hwatch, hpid⟩
  · obtain ⟨marked', hold⟩ := h.bye sid q state marked hbye
    exact Or.inl ⟨state, marked', hold⟩
  · obtain ⟨child, hold, hpid', hsid', hwatch'⟩ := h.mem_child hmem
    rw [hwatch] at hwatch'
    rcases hwatch' with heq | heq
    · exact Or.inr ⟨child, hold, hsid'.trans hsid, heq.symm, hpid'.trans hpid⟩
    · contradiction

/-- Removing keeps the system guarded. -/
theorem Guarded.shrink {sys sys' : RunnerSystem} (h : Guarded sys) (hs : Shrinks sys sys') :
    Guarded sys' := by
  refine ⟨?_, ?_, ?_⟩
  · intro sid info c hinfo hprocess
    obtain ⟨child, hold, hpid⟩ := h.tracked sid info c (hs.registered sid info hinfo) hprocess
    have hlt : c < sys'.children.length := by
      rw [hs.length]
      exact (List.getElem?_eq_some_iff.mp hold).1
    obtain ⟨old, hold', hpid', -⟩ := hs.child c _ (List.getElem?_eq_getElem hlt)
    rw [hold, Option.some.injEq] at hold'
    refine ⟨_, List.getElem?_eq_getElem hlt, ?_⟩
    rw [← hpid', ← hold', hpid]
  · intro sid info hinfo hprocess child' hmem hsid hwatch
    obtain ⟨child, hold, hpid, hsid', hwatch'⟩ := hs.mem_child hmem
    rw [hwatch] at hwatch'
    rcases hwatch' with heq | heq
    · rw [← hpid]
      exact h.untracked sid info (hs.registered sid info hinfo) hprocess child hold
        (hsid'.trans hsid) heq.symm
    · contradiction
  · intro sid p hp q hq
    exact h.apart sid p (hs.present hp) q (hs.ending hq)

/-- The same children as before. -/
theorem same_children (sys : RunnerSystem) (c : ChildId) (child' : Child)
    (hc : sys.children[c]? = some child') : ∃ child : Child, sys.children[c]? = some child ∧
      child.pid = child'.pid ∧ child.sid = child'.sid ∧
        (child'.watch = child.watch ∨ child'.watch = .done) :=
  ⟨child', hc, rfl, rfl, Or.inl rfl⟩

/-- A handler that moves on adds no hello and no goodbye, unless it is one. -/
theorem shrinks_setHandler {sys : RunnerSystem} {i : ℕ} {handler : Handler}
    (hhello : ∀ sid p, handler ≠ .hello sid p)
    (hbye : ∀ sid q state marked, handler = .bye sid q state marked →
      ∃ marked', Handler.bye sid q state marked' ∈ sys.handlers) :
    Shrinks sys (setHandler sys i handler) := by
  refine ⟨fun _ _ h => h, rfl, same_children sys, ?_, ?_⟩
  · intro sid p hmem
    rcases List.mem_or_eq_of_mem_set hmem with hold | heq
    · exact hold
    · exact absurd heq.symm (hhello sid p)
  · intro sid q state marked hmem
    rcases List.mem_or_eq_of_mem_set hmem with hold | heq
    · exact ⟨marked, hold⟩
    · exact hbye sid q state marked heq.symm

/-- Removing a registration removes only. -/
theorem shrinks_unregisterRunner (sys : RunnerSystem) (sid : String) :
    Shrinks sys (unregisterRunner sys sid) := by
  refine ⟨?_, rfl, same_children sys, fun _ _ h => h, fun _ _ _ marked h => ⟨marked, h⟩⟩
  intro other info hinfo
  have hlookup : (unregisterRunner sys sid).runners.lookup other =
      if other = sid then none else sys.runners.lookup other := lookup_erase_eq _ _ _
  rw [hlookup] at hinfo
  by_cases heq : other = sid
  · rw [if_pos heq] at hinfo
    contradiction
  · rw [if_neg heq] at hinfo
    exact hinfo

/-- Rows do not matter. -/
theorem shrinks_rows (sys : RunnerSystem) (rows : Dict String RunState) :
    Shrinks sys { sys with rows } :=
  ⟨fun _ _ h => h, rfl, same_children sys, fun _ _ h => h, fun _ _ _ marked h => ⟨marked, h⟩⟩

/-- A watcher that is done, or an exit. -/
theorem shrinks_setChild {sys : RunnerSystem} {c : ChildId} {old new : Child}
    (hold : sys.children[c]? = some old) (hpid : old.pid = new.pid) (hsid : old.sid = new.sid)
    (hwatch : new.watch = old.watch ∨ new.watch = .done) : Shrinks sys (setChild sys c new) := by
  refine ⟨fun _ _ h => h, List.length_set, ?_, fun _ _ h => h,
    fun _ _ _ marked h => ⟨marked, h⟩⟩
  intro d child' hd
  rcases getElem?_set_eq_some hd with ⟨rfl, rfl⟩ | ⟨-, hother⟩
  · exact ⟨old, hold, hpid, hsid, hwatch⟩
  · exact same_children sys d child' hother

/-- A spawn keeps the system guarded when no other runner is being removed
from the session. -/
theorem Guarded.spawnRunner {sys : RunnerSystem} (h : Guarded sys) {sid : String} {pid : ℕ}
    (hq : ∀ q ∈ endingPids sys sid, q = pid) : Guarded (spawnRunner sys sid pid) := by
  have hlookup : ∀ other, (RunnerProcesses.spawnRunner sys sid pid).runners.lookup other =
      if other = sid then some ⟨pid, some sys.children.length⟩ else sys.runners.lookup other :=
    fun other => lookup_insert_eq _ _ _ _
  have hending : ∀ other q, q ∈ endingPids (RunnerProcesses.spawnRunner sys sid pid) other →
      q ∈ endingPids sys other := by
    intro other q hmem
    rw [mem_endingPids] at hmem ⊢
    rcases hmem with hbye | ⟨child, hmem, hsid, hwatch, hpid⟩
    · exact Or.inl hbye
    · rcases List.mem_append.mp hmem with hold | hnew
      · exact Or.inr ⟨child, hold, hsid, hwatch, hpid⟩
      · rw [List.mem_singleton.mp hnew] at hwatch
        contradiction
  refine ⟨?_, ?_, ?_⟩
  · intro other info c hinfo hprocess
    rw [hlookup] at hinfo
    by_cases heq : other = sid
    · rw [if_pos heq, Option.some.injEq] at hinfo
      rw [← hinfo, Option.some.injEq] at hprocess
      refine ⟨⟨sid, pid, true, .polling⟩, ?_, by rw [← hinfo]⟩
      rw [← hprocess]
      exact List.getElem?_concat_length
    · rw [if_neg heq] at hinfo
      obtain ⟨child, hold, hpid⟩ := h.tracked other info c hinfo hprocess
      refine ⟨child, ?_, hpid⟩
      have hlt := (List.getElem?_eq_some_iff.mp hold).1
      exact (List.getElem?_append_left hlt).trans hold
  · intro other info hinfo hprocess child hmem hsid hwatch
    rw [hlookup] at hinfo
    by_cases heq : other = sid
    · rw [if_pos heq, Option.some.injEq] at hinfo
      rw [← hinfo] at hprocess
      contradiction
    · rw [if_neg heq] at hinfo
      rcases List.mem_append.mp hmem with hold | hnew
      · exact h.untracked other info hinfo hprocess child hold hsid hwatch
      · rw [List.mem_singleton.mp hnew] at hsid
        exact absurd hsid.symm heq
  · intro other p hp q hmem
    have hold := hending other q hmem
    rw [mem_presentPids, hlookup] at hp
    rcases hp with ⟨info, hinfo, hpid⟩ | hhello
    · by_cases heq : other = sid
      · rw [if_pos heq, Option.some.injEq] at hinfo
        rw [← hpid, ← hinfo, hq q (heq ▸ hold)]
      · rw [if_neg heq] at hinfo
        exact h.apart other p (mem_presentPids.mpr (Or.inl ⟨info, hinfo, hpid⟩)) q hold
    · exact h.apart other p (mem_presentPids.mpr (Or.inr hhello)) q hold

/-- A hello keeps the system guarded when no other runner is being removed
from the session. -/
theorem Guarded.startHello {sys : RunnerSystem} (h : Guarded sys) {sid : String} {pid : ℕ}
    (hq : ∀ q ∈ endingPids sys sid, q = pid) :
    Guarded (startHandler sys (.hello sid pid)) := by
  refine ⟨h.tracked, h.untracked, ?_⟩
  intro other p hp q hmem
  have hold : q ∈ endingPids sys other := by
    rw [mem_endingPids] at hmem ⊢
    rcases hmem with ⟨state, marked, hbye⟩ | hchild
    · rcases List.mem_append.mp hbye with hbye' | hnew
      · exact Or.inl ⟨state, marked, hbye'⟩
      · simp at hnew
    · exact Or.inr hchild
  rw [mem_presentPids] at hp
  rcases hp with hinfo | hhello
  · exact h.apart other p (mem_presentPids.mpr (Or.inl hinfo)) q hold
  · rcases List.mem_append.mp hhello with hhello' | hnew
    · exact h.apart other p (mem_presentPids.mpr (Or.inr hhello')) q hold
    · simp only [List.mem_singleton, Handler.hello.injEq] at hnew
      rw [hnew.2, hq q (hnew.1 ▸ hold)]

/-- A goodbye keeps the system guarded when no other runner serves the
session. -/
theorem Guarded.startBye {sys : RunnerSystem} (h : Guarded sys) {sid : String} {pid : ℕ}
    {state : RunState} (hp : ∀ p ∈ presentPids sys sid, p = pid) :
    Guarded (startHandler sys (.bye sid pid state false)) := by
  refine ⟨h.tracked, h.untracked, ?_⟩
  intro other p hmem q hq
  have hold : p ∈ presentPids sys other := by
    rw [mem_presentPids] at hmem ⊢
    rcases hmem with hinfo | hhello
    · exact Or.inl hinfo
    · rcases List.mem_append.mp hhello with hhello' | hnew
      · exact Or.inr hhello'
      · simp at hnew
  rw [mem_endingPids] at hq
  rcases hq with ⟨state', marked, hbye⟩ | hchild
  · rcases List.mem_append.mp hbye with hbye' | hnew
    · exact h.apart other p hold q (mem_endingPids.mpr (Or.inl ⟨state', marked, hbye'⟩))
    · simp only [List.mem_singleton, Handler.bye.injEq] at hnew
      rw [hnew.2.1, hp p (hnew.1 ▸ hold)]
  · exact h.apart other p hold q (mem_endingPids.mpr (Or.inr hchild))

/-- A hello that registers for its own child keeps the system guarded. -/
theorem Guarded.register {sys : RunnerSystem} (h : Guarded sys) {i : ℕ} {sid : String} {pid : ℕ}
    (hi : sys.handlers[i]? = some (.hello sid pid)) (hown : RegistersOwn sys sid pid) :
    Guarded (setHandler (registerRunner sys sid pid) i .finished) := by
  have hshrink : Shrinks sys (setHandler sys i .finished) :=
    shrinks_setHandler (by simp) (by simp)
  have hlookup : ∀ other, (setHandler (registerRunner sys sid pid) i
      .finished).runners.lookup other =
        if other = sid then some ⟨pid, killTarget sys sid⟩ else sys.runners.lookup other :=
    fun other => lookup_insert_eq _ _ _ _
  refine ⟨?_, ?_, ?_⟩
  · intro other info c hinfo hprocess
    rw [hlookup] at hinfo
    by_cases heq : other = sid
    · rw [if_pos heq, Option.some.injEq] at hinfo
      rw [← hinfo] at hprocess ⊢
      obtain ⟨old, hold, hprocess'⟩ := Option.bind_eq_some_iff.mp hprocess
      obtain ⟨child, hc, -⟩ := h.tracked sid old c hold hprocess'
      have hkill : killTarget sys sid = some c := hprocess
      unfold RegistersOwn at hown
      rw [hkill] at hown
      exact ⟨child, hc, hown child hc⟩
    · rw [if_neg heq] at hinfo
      exact h.tracked other info c hinfo hprocess
  · intro other info hinfo hprocess child hmem hsid hwatch
    rw [hlookup] at hinfo
    by_cases heq : other = sid
    · rw [if_pos heq, Option.some.injEq] at hinfo
      rw [← hinfo] at hprocess ⊢
      have hkill : killTarget sys sid = none := hprocess
      unfold RegistersOwn at hown
      rw [hkill] at hown
      exact hown child hmem (hsid.trans heq) hwatch
    · rw [if_neg heq] at hinfo
      exact h.untracked other info hinfo hprocess child hmem hsid hwatch
  · intro other p hp q hq
    have hold : q ∈ endingPids sys other := hshrink.ending hq
    rw [mem_presentPids, hlookup] at hp
    rcases hp with ⟨info, hinfo, hpid⟩ | hhello
    · by_cases heq : other = sid
      · rw [if_pos heq, Option.some.injEq] at hinfo
        have hpresent : p ∈ presentPids sys other := by
          rw [mem_presentPids, ← hpid, ← hinfo, heq]
          exact Or.inr (List.mem_of_getElem? hi)
        exact h.apart other p hpresent q hold
      · rw [if_neg heq] at hinfo
        exact h.apart other p (mem_presentPids.mpr (Or.inl ⟨info, hinfo, hpid⟩)) q hold
    · exact h.apart other p (hshrink.present (mem_presentPids.mpr (Or.inr hhello))) q hold

/-- A watcher that starts to report keeps the system guarded when no other
runner serves the session. -/
theorem Guarded.setNotifying {sys : RunnerSystem} (h : Guarded sys) {c : ChildId} {child : Child}
    (hc : sys.children[c]? = some child) (hp : ∀ p ∈ presentPids sys child.sid, p = child.pid) :
    Guarded (setChild sys c { child with watch := .notifying }) := by
  refine ⟨?_, ?_, ?_⟩
  · intro sid info d hinfo hprocess
    obtain ⟨old, hold, hpid⟩ := h.tracked sid info d hinfo hprocess
    by_cases hcd : c = d
    · have hlt : c < sys.children.length := (List.getElem?_eq_some_iff.mp hc).1
      rw [← hcd, hc, Option.some.injEq] at hold
      refine ⟨{ child with watch := .notifying }, ?_, by rw [← hpid, ← hold]⟩
      rw [← hcd]
      exact List.getElem?_set_self hlt
    · exact ⟨old, (List.getElem?_set_ne hcd).trans hold, hpid⟩
  · intro sid info hinfo hprocess other hmem hsid hwatch
    rcases List.mem_or_eq_of_mem_set hmem with hold | heq
    · exact h.untracked sid info hinfo hprocess other hold hsid hwatch
    · rw [heq] at hwatch
      contradiction
  · intro sid p hmem q hq
    have hpresent : p ∈ presentPids sys sid := hmem
    rw [mem_endingPids] at hq
    rcases hq with hbye | ⟨other, hother, hsid, hwatch, hpid⟩
    · exact h.apart sid p hpresent q (mem_endingPids.mpr (Or.inl hbye))
    · rcases List.mem_or_eq_of_mem_set hother with hold | heq
      · exact h.apart sid p hpresent q
          (mem_endingPids.mpr (Or.inr ⟨other, hold, hsid, hwatch, hpid⟩))
      · rw [heq] at hsid hpid
        rw [← hpid]
        exact hp p (hsid ▸ hpresent)

/-- An exit keeps the system guarded when no hello of another runner is under
way for the session. -/
theorem Guarded.exitRemove {sys : RunnerSystem} (h : Guarded sys) {c : ChildId} {child : Child}
    (hc : sys.children[c]? = some child)
    (hcond : exitOwns sys c child.sid = true →
      ∀ p ∈ sys.handlers.filterMap (helloPid child.sid), p = child.pid) :
    Guarded (exitRemove sys c child) := by
  unfold RunnerProcesses.exitRemove
  by_cases hdue : child.alive = false ∧ child.watch = .polling
  · rw [if_pos hdue]
    by_cases howns : exitOwns sys c child.sid = true
    · rw [if_pos howns]
      have hremoved := h.shrink (shrinks_unregisterRunner sys child.sid)
      refine hremoved.setNotifying hc fun p hp => hcond howns p ?_
      have hnone : (unregisterRunner sys child.sid).runners.lookup child.sid = none :=
        AList.lookup_erase _ _
      rw [presentPids, hnone] at hp
      exact hp
    · rw [if_neg howns]
      exact h.shrink (shrinks_setChild hc rfl rfl (Or.inr rfl))
  · rw [if_neg hdue]
    exact h

/-- A handler other than a hello or a goodbye may always start. -/
theorem shrinks_startHandler {sys : RunnerSystem} {handler : Handler}
    (hhello : ∀ sid p, handler ≠ .hello sid p)
    (hbye : ∀ sid q state marked, handler ≠ .bye sid q state marked) :
    Shrinks sys (startHandler sys handler) := by
  refine ⟨fun _ _ h => h, rfl, same_children sys, ?_, ?_⟩
  · intro sid p hmem
    rcases List.mem_append.mp hmem with hold | hnew
    · exact hold
    · exact absurd (List.mem_singleton.mp hnew).symm (hhello sid p)
  · intro sid q state marked hmem
    rcases List.mem_append.mp hmem with hold | hnew
    · exact ⟨marked, hold⟩
    · exact absurd (List.mem_singleton.mp hnew).symm (hbye sid q state marked)

/-- The next lock section of a handler keeps the system guarded. -/
theorem Guarded.advanceHandler {sys : RunnerSystem} (h : Guarded sys) {i : ℕ}
    {spawned : Option ℕ} {handler : Handler} (hi : sys.handlers[i]? = some handler)
    (hcond : HandlerWaits sys spawned handler) :
    Guarded (advanceHandler sys i spawned handler) := by
  have hmove : ∀ {s : RunnerSystem} {handler' : Handler}, Guarded s →
      (∀ sid p, handler' ≠ .hello sid p) → (∀ sid q state marked, handler' ≠ .bye sid q state marked) →
      Guarded (setHandler s i handler') := fun hs hhello hbye =>
    hs.shrink (shrinks_setHandler hhello fun sid q state marked heq =>
      absurd heq (hbye sid q state marked))
  have hunregister : ∀ sid, Guarded (unregisterRunner sys sid) :=
    fun sid => h.shrink (shrinks_unregisterRunner sys sid)
  have hrows : ∀ rows, Guarded { sys with rows } := fun rows => h.shrink (shrinks_rows sys rows)
  fun_cases RunnerProcesses.advanceHandler sys i spawned handler
  case case1 sid pid => exact h.register hi hcond
  case case2 sid pid state =>
    refine (hrows _).shrink (shrinks_setHandler (by simp) ?_)
    intro other q state' marked heq
    simp only [Handler.bye.injEq] at heq
    rw [← heq.1, ← heq.2.1, ← heq.2.2.1]
    exact ⟨false, List.mem_of_getElem? hi⟩
  case case10 sid pid =>
    have hspawn : Guarded (RunnerProcesses.spawnRunner sys sid pid) := by
      exact h.spawnRunner (hcond pid rfl)
    exact hmove hspawn (by simp) (by simp)
  all_goals first
    | exact h
    | exact hmove h (by simp) (by simp)
    | exact hmove (hunregister _) (by simp) (by simp)
    | exact hmove (hrows _) (by simp) (by simp)

/-- Every event that meets the condition keeps the system guarded. -/
theorem guarded_runnerStep (sys : RunnerSystem) (event : RunnerEvent) (h : Guarded sys)
    (hcond : OneAfterAnother sys event) : Guarded (runnerStep sys event) := by
  have hstart : ∀ {handler : Handler}, (∀ sid p, handler ≠ .hello sid p) →
      (∀ sid q state marked, handler ≠ .bye sid q state marked) →
      Guarded (startHandler sys handler) :=
    fun hhello hbye => h.shrink (shrinks_startHandler hhello hbye)
  cases event with
  | create sid pid => exact h.spawnRunner hcond
  | hello sid pid =>
    have hrows := h.shrink (shrinks_rows sys (sys.rows.insert sid .running))
    exact hrows.startHello hcond
  | bye sid pid named state =>
    rw [runnerStep]
    by_cases haccepted : byeAccepted sys sid pid named = true
    · rw [if_pos haccepted]
      exact h.startBye (hcond haccepted)
    · rw [if_neg haccepted]
      exact h
  | stop sid => exact h
  | restart sid =>
    rw [runnerStep]
    by_cases hrow : sid ∈ sys.rows
    · rw [if_pos hrow]
      exact hstart (by simp) (by simp)
    · rw [if_neg hrow]
      exact h
  | delete sid =>
    rw [runnerStep]
    cases hrow : sys.rows.lookup sid with
    | none => exact h
    | some state => cases state <;> exact hstart (by simp) (by simp)
  | forceStop sid =>
    rw [runnerStep]
    by_cases htarget : (killTarget sys sid).isSome = true
    · rw [if_pos htarget]
      exact hstart (by simp) (by simp)
    · rw [if_neg htarget]
      exact h
  | dies c =>
    rw [runnerStep]
    cases hc : sys.children[c]? with
    | none => exact h
    | some child => exact h.shrink (shrinks_setChild hc rfl rfl (Or.inl rfl))
  | exitRemove c =>
    rw [runnerStep]
    cases hc : sys.children[c]? with
    | none => exact h
    | some child => exact h.exitRemove hc (hcond child hc)
  | exitNotify c =>
    rw [runnerStep]
    cases hc : sys.children[c]? with
    | none => exact h
    | some child =>
      have hdone : Guarded (setChild sys c { child with watch := .done }) :=
        h.shrink (shrinks_setChild hc rfl rfl (Or.inr rfl))
      dsimp only
      rw [exitNotify]
      by_cases hdue : child.watch = .notifying
      · rw [if_pos hdue]
        by_cases hrow : sys.rows.lookup child.sid = some .running
        · rw [if_pos hrow]
          exact hdone.shrink (shrinks_rows _ _)
        · rw [if_neg hrow]
          exact hdone
      · rw [if_neg hdue]
        exact h
  | advance i spawned =>
    rw [runnerStep]
    cases hi : sys.handlers[i]? with
    | none => exact h
    | some handler => exact h.advanceHandler hi (hcond handler hi)

/-- The exit of a child finds its own registration. -/
theorem Guarded.exitRemove_own {sys : RunnerSystem} (h : Guarded sys) {c : ChildId}
    {child : Child} (hc : sys.children[c]? = some child) {sid : String} {info : RunnerInfo}
    (hinfo : sys.runners.lookup sid = some info)
    (hremoved : (RunnerProcesses.exitRemove sys c child).runners.lookup sid = none) :
    child.pid = info.pid := by
  unfold RunnerProcesses.exitRemove at hremoved
  by_cases hdue : child.alive = false ∧ child.watch = .polling
  · rw [if_pos hdue] at hremoved
    by_cases howns : exitOwns sys c child.sid = true
    · rw [if_pos howns] at hremoved
      have hlookup : (unregisterRunner sys child.sid).runners.lookup sid =
          if sid = child.sid then none else sys.runners.lookup sid := lookup_erase_eq _ _ _
      by_cases heq : sid = child.sid
      · rw [heq] at hinfo
        simp only [exitOwns, hinfo, Bool.or_eq_true, beq_iff_eq] at howns
        rcases howns with hnone | hsome
        · exact h.untracked child.sid info hinfo hnone child (List.mem_of_getElem? hc) rfl hdue.2
        · obtain ⟨own, hown, hpid⟩ := h.tracked child.sid info c hinfo hsome
          rw [hc, Option.some.injEq] at hown
          rw [hown, hpid]
      · have hkept : (unregisterRunner sys child.sid).runners.lookup sid = none := hremoved
        rw [hlookup, if_neg heq, hinfo] at hkept
        contradiction
    · rw [if_neg howns] at hremoved
      exact absurd (hinfo.symm.trans hremoved) (by simp)
  · rw [if_neg hdue] at hremoved
    exact absurd (hinfo.symm.trans hremoved) (by simp)

/-- The report of an exit marks the session of its own runner. -/
theorem Guarded.exitNotify_own {sys : RunnerSystem} (h : Guarded sys) {c : ChildId}
    {child : Child} (hc : sys.children[c]? = some child) {sid : String} {state : RunState}
    (hmarked : (RunnerProcesses.exitNotify sys c child).rows.lookup sid = some state)
    (hchanged : sys.rows.lookup sid ≠ some state) :
    ∀ pid ∈ presentPids sys sid, child.pid = pid := by
  intro pid hpid
  unfold RunnerProcesses.exitNotify at hmarked
  by_cases hdue : child.watch = .notifying
  · rw [if_pos hdue] at hmarked
    have hending : child.pid ∈ endingPids sys child.sid :=
      mem_endingPids.mpr (Or.inr ⟨child, List.mem_of_getElem? hc, rfl, hdue, rfl⟩)
    by_cases hrow : sys.rows.lookup child.sid = some .running
    · rw [if_pos hrow] at hmarked
      by_cases heq : sid = child.sid
      · exact (h.apart sid pid hpid child.pid (heq ▸ hending)).symm
      · have hlookup : (alterKey child.sid (fun _ => RunState.stopped) sys.rows).lookup sid =
            some state := hmarked
        rw [lookup_alterKey, if_neg heq] at hlookup
        exact absurd hlookup hchanged
    · rw [if_neg hrow] at hmarked
      exact absurd hmarked hchanged
  · rw [if_neg hdue] at hmarked
    exact absurd hmarked hchanged

/-- A goodbye removes and marks for its own runner only. -/
theorem Guarded.bye_own {sys : RunnerSystem} (h : Guarded sys) {i : ℕ} {spawned : Option ℕ}
    {sid : String} {pid : ℕ} {state : RunState} {marked : Bool}
    (hi : sys.handlers[i]? = some (.bye sid pid state marked)) :
    OwnGeneration sys (.advance i spawned) := by
  have hcause : causeOf sys (.advance i spawned) = .runner pid := by rw [causeOf, hi]
  have hown : ∀ p ∈ presentPids sys sid, pid = p := by
    intro p hp
    have hending : pid ∈ endingPids sys sid :=
      mem_endingPids.mpr (Or.inl ⟨state, marked, List.mem_of_getElem? hi⟩)
    exact (h.apart sid p hp pid hending).symm
  have hstep : runnerStep sys (.advance i spawned) =
      RunnerProcesses.advanceHandler sys i spawned (.bye sid pid state marked) := by
    rw [runnerStep, hi]
  cases marked with
  | false =>
    refine ⟨?_, ?_⟩
    · intro other info hinfo hremoved
      rw [hstep] at hremoved
      exact absurd (hinfo.symm.trans hremoved) (by simp)
    · intro other state' hmarked _ hchanged p hp
      rw [hstep] at hmarked
      have hlookup : (alterKey sid (fun _ => state) sys.rows).lookup other = some state' := hmarked
      by_cases heq : other = sid
      · right
        rw [hcause, hown p (heq ▸ hp)]
      · rw [lookup_alterKey, if_neg heq] at hlookup
        exact absurd hlookup hchanged
  | true =>
    refine ⟨?_, ?_⟩
    · intro other info hinfo hremoved
      rw [hstep] at hremoved
      have hlookup : (unregisterRunner sys sid).runners.lookup other = none := hremoved
      by_cases heq : other = sid
      · right
        rw [hcause, hown info.pid (mem_presentPids.mpr (Or.inl ⟨info, heq ▸ hinfo, rfl⟩))]
      · have hkept : (unregisterRunner sys sid).runners.lookup other =
            if other = sid then none else sys.runners.lookup other := lookup_erase_eq _ _ _
        rw [hkept, if_neg heq, hinfo] at hlookup
        contradiction
    · intro other state' hmarked _ hchanged
      rw [hstep] at hmarked
      exact absurd hmarked hchanged

/-- Requests may concern any runner. -/
theorem ownGeneration_of_request {sys : RunnerSystem} {event : RunnerEvent}
    (h : causeOf sys event = .request) : OwnGeneration sys event :=
  ⟨fun _ _ _ _ => Or.inl h, fun _ _ _ _ _ _ _ => Or.inl h⟩

/-- In a guarded system an event reaches its own runner only. -/
theorem Guarded.ownGeneration {sys : RunnerSystem} (h : Guarded sys) (event : RunnerEvent) :
    OwnGeneration sys event := by
  cases event with
  | bye sid pid named state =>
    have hkept : (runnerStep sys (.bye sid pid named state)).runners = sys.runners ∧
        (runnerStep sys (.bye sid pid named state)).rows = sys.rows := by
      rw [runnerStep]
      by_cases haccepted : byeAccepted sys sid pid named = true
      · rw [if_pos haccepted]
        exact ⟨rfl, rfl⟩
      · rw [if_neg haccepted]
        exact ⟨rfl, rfl⟩
    refine ⟨?_, ?_⟩
    · intro other info hinfo hremoved
      rw [hkept.1, hinfo] at hremoved
      contradiction
    · intro other state' hmarked _ hchanged
      rw [hkept.2] at hmarked
      exact absurd hmarked hchanged
  | exitRemove c =>
    cases hc : sys.children[c]? with
    | none => exact ownGeneration_of_request (by rw [causeOf, hc])
    | some child =>
      have hcause : causeOf sys (.exitRemove c) = .runner child.pid := by rw [causeOf, hc]
      have hstep : runnerStep sys (.exitRemove c) = RunnerProcesses.exitRemove sys c child := by
        rw [runnerStep, hc]
      refine ⟨?_, ?_⟩
      · intro sid info hinfo hremoved
        rw [hstep] at hremoved
        right
        rw [hcause, h.exitRemove_own hc hinfo hremoved]
      · intro sid state hmarked _ hchanged
        have hrows : (RunnerProcesses.exitRemove sys c child).rows = sys.rows := by
          unfold RunnerProcesses.exitRemove
          split_ifs <;> rfl
        rw [hstep, hrows] at hmarked
        exact absurd hmarked hchanged
  | exitNotify c =>
    cases hc : sys.children[c]? with
    | none => exact ownGeneration_of_request (by rw [causeOf, hc])
    | some child =>
      have hcause : causeOf sys (.exitNotify c) = .runner child.pid := by rw [causeOf, hc]
      have hstep : runnerStep sys (.exitNotify c) = RunnerProcesses.exitNotify sys c child := by
        rw [runnerStep, hc]
      refine ⟨?_, ?_⟩
      · intro sid info hinfo hremoved
        have hrunners : (RunnerProcesses.exitNotify sys c child).runners = sys.runners := by
          unfold RunnerProcesses.exitNotify
          dsimp only
          split_ifs <;> rfl
        rw [hstep, hrunners, hinfo] at hremoved
        contradiction
      · intro sid state hmarked _ hchanged pid hpid
        rw [hstep] at hmarked
        right
        rw [hcause, h.exitNotify_own hc hmarked hchanged pid hpid]
  | advance i spawned =>
    cases hi : sys.handlers[i]? with
    | none => exact ownGeneration_of_request (by rw [causeOf, hi])
    | some handler =>
      cases handler with
      | bye sid pid state marked => exact h.bye_own hi
      | _ => exact ownGeneration_of_request (by rw [causeOf, hi])
  | _ => exact ownGeneration_of_request rfl

/-- A system without runners is guarded. -/
theorem guarded_initial : Guarded RunnerSystem.initial := by
  have hnone : ∀ sid info, RunnerSystem.initial.runners.lookup sid ≠ some info := by
    intro sid info hinfo
    cases hinfo
  refine ⟨fun sid info _ h => absurd h (hnone sid info), fun sid info h => absurd h (hnone sid info),
    ?_⟩
  intro sid p hp
  rw [mem_presentPids] at hp
  rcases hp with ⟨info, hinfo, -⟩ | hhello
  · exact absurd hinfo (hnone sid info)
  · exact absurd hhello List.not_mem_nil

instance (sys : RunnerSystem) (sid : String) (pid : ℕ) : Decidable (RegistersOwn sys sid pid) :=
  match h : killTarget sys sid with
  | some c => decidable_of_iff (∀ child ∈ sys.children[c]?, child.pid = pid) (by
      rw [RegistersOwn, h])
  | none => decidable_of_iff
      (∀ child ∈ sys.children, child.sid = sid → child.watch = .polling → child.pid = pid) (by
        rw [RegistersOwn, h])

instance (sys : RunnerSystem) (spawned : Option ℕ) :
    (handler : Handler) → Decidable (HandlerWaits sys spawned handler)
  | .hello sid pid => inferInstanceAs (Decidable (RegistersOwn sys sid pid))
  | .restart sid .spawning =>
    inferInstanceAs (Decidable (∀ pid ∈ spawned, ∀ q ∈ endingPids sys sid, q = pid))
  | .restart _ .checking => isTrue trivial
  | .restart _ .awaiting => isTrue trivial
  | .restart _ (.waiting _) => isTrue trivial
  | .restart _ .unregistering => isTrue trivial
  | .bye .. => isTrue trivial
  | .delete .. => isTrue trivial
  | .forceStop .. => isTrue trivial
  | .finished => isTrue trivial

instance (sys : RunnerSystem) : (event : RunnerEvent) → Decidable (OneAfterAnother sys event)
  | .create sid pid => inferInstanceAs (Decidable (∀ q ∈ endingPids sys sid, q = pid))
  | .hello sid pid => inferInstanceAs (Decidable (∀ q ∈ endingPids sys sid, q = pid))
  | .bye sid pid named _ => inferInstanceAs (Decidable (byeAccepted sys sid pid named = true →
      ∀ p ∈ presentPids sys sid, p = pid))
  | .exitRemove c => inferInstanceAs (Decidable (∀ child ∈ sys.children[c]?,
      exitOwns sys c child.sid = true →
        ∀ p ∈ sys.handlers.filterMap (helloPid child.sid), p = child.pid))
  | .advance i spawned =>
    inferInstanceAs (Decidable (∀ handler ∈ sys.handlers[i]?, HandlerWaits sys spawned handler))
  | .stop _ => isTrue trivial
  | .restart _ => isTrue trivial
  | .delete _ => isTrue trivial
  | .forceStop _ => isTrue trivial
  | .dies _ => isTrue trivial
  | .exitNotify _ => isTrue trivial

/-- A session whose runner is restarted, and says goodbye under its pid. -/
def restartedSession : List RunnerEvent :=
  [.create "s" 1, .hello "s" 1, .advance 0 none, .restart "s", .advance 1 none, .advance 1 none,
    .dies 0, .exitRemove 0, .exitNotify 0, .advance 1 none, .advance 1 none, .advance 1 (some 2),
    .hello "s" 2, .advance 2 none, .bye "s" 1 true .stopped, .bye "s" 2 true .stopped,
    .advance 3 none, .advance 3 none]

/-- A session whose first runner said goodbye, and whose second runner was
started elsewhere before the watcher saw the exit of the first. -/
def staleExit : List RunnerEvent :=
  [.create "s" 1, .hello "s" 1, .advance 0 none, .bye "s" 1 true .stopped, .advance 1 none,
    .advance 1 none, .hello "s" 7, .advance 2 none, .dies 0, .exitRemove 0]

end Teleprompter.RunnerGenerations
