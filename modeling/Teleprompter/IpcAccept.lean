import Teleprompter.StepRuns

/-!
# Accept loops of the local socket

Starting the server binds its socket and spawns a loop that accepts
connections. A second task looks at the socket file from time to time, and
when the file is gone it binds again and spawns a loop of its own, which it
keeps in a slot of its own. Stopping the server aborts the second task and
the loop that starting had spawned. The calls and the task are interleaved
one access to the shared state at a time.
-/

namespace Teleprompter.IpcAccept

open StepRuns

/-- A file path. -/
abbrev Path := String

/-- What a start call does next. -/
inductive StartPc where
  | removeFile
  | bind
  | takeAccept
  | install
  | setPath
  | startHeal
  deriving DecidableEq

/-- What a stop call does next. -/
inductive StopPc where
  | takeHeal
  | takeAccept
  | clearPath
  | clearRunners
  deriving DecidableEq

/-- A call of the owner. A stop call knows how many start calls had begun when
it began. -/
inductive Call where
  | start (path : Path) (pc : StartPc)
  | stop (pc : StopPc) (starts : ℕ)
  | returned
  deriving DecidableEq

/-- What a healing task does next. It can be cancelled while it waits for the
next tick or for the file system. -/
inductive HealPc where
  | tick
  | readPath
  | stat (path : Path)
  | removeFile (path : Path)
  | bind (path : Path)
  | takeSlot (path : Path)
  | install (path : Path)
  deriving DecidableEq

/-- A healing task. -/
structure Heal where
  /-- Next action. -/
  pc : HealPc
  /-- An abort was asked for. -/
  aborted : Bool
  /-- It has returned or was cancelled. -/
  ended : Bool
  /-- The accept loop that it spawned last. -/
  slot : Option ℕ
  deriving DecidableEq

/-- The server with its calls and tasks. -/
structure Server where
  /-- The flag that stopping sets. -/
  stopped : Bool
  /-- The path the socket is bound at. -/
  boundPath : Option Path
  /-- The accept loop of the last start. -/
  acceptTask : Option ℕ
  /-- The healing task. -/
  healTask : Option ℕ
  /-- All healing tasks, by number. -/
  heals : List Heal
  /-- Accept loops that run and were not aborted. -/
  live : List ℕ
  /-- Accept loops that a healing task spawned. -/
  rebound : List ℕ
  /-- The number of the next accept loop. -/
  nextLoop : ℕ
  /-- All calls, by number. -/
  calls : List Call
  /-- Start calls begun so far. -/
  starts : ℕ
  /-- A stop call has returned and no start call has begun since it began. -/
  quiet : Bool
  deriving DecidableEq

/-- A server before its first call. -/
def Server.new : Server where
  stopped := false
  boundPath := none
  acceptTask := none
  healTask := none
  heals := []
  live := []
  rebound := []
  nextLoop := 0
  calls := []
  starts := 0
  quiet := false

/-- What can happen next. Outcomes of the file system are part of it. -/
inductive Event where
  | callStart (path : Path)
  | callStop
  /-- The next action of a call; removing the file and binding may fail. -/
  | callStep (call : ℕ) (ok : Bool)
  /-- The next action of a healing task; the file may not be healthy, and
  removing it and binding may fail. -/
  | healStep (heal : ℕ) (ok : Bool)
  /-- A healing task that was aborted is cancelled where it waits. -/
  | healCancel (heal : ℕ)
  /-- An accept loop ends because accepting failed. -/
  | acceptError (loop : ℕ)
  deriving DecidableEq

/-- Abort a loop, if there is one. -/
def Server.abortLoop (s : Server) : Option ℕ → Server
  | none => s
  | some loop => { s with live := s.live.filter (· ≠ loop) }

/-- Abort the loop of the last start. -/
def Server.takeAccept (s : Server) : Server :=
  { s with acceptTask := none }.abortLoop s.acceptTask

/-- A call goes on. -/
def Server.setCall (s : Server) (call : ℕ) (next : Call) : Server :=
  { s with calls := s.calls.set call next }

/-- A healing task goes on. -/
def Server.setHeal (s : Server) (heal : ℕ) (next : Heal) : Server :=
  { s with heals := s.heals.set heal next }

/-- The next action of a start call: listen, remember the path, start the
healing task unless there is one. -/
def stepStart (s : Server) (call : ℕ) (path : Path) (ok : Bool) : StartPc → Server
  | .removeFile => s.setCall call (if ok then .start path .bind else .returned)
  | .bind => s.setCall call (if ok then .start path .takeAccept else .returned)
  | .takeAccept => s.takeAccept.setCall call (.start path .install)
  | .install =>
    { s with
      live := s.live ++ [s.nextLoop]
      acceptTask := some s.nextLoop
      nextLoop := s.nextLoop + 1 }.setCall call (.start path .setPath)
  | .setPath => { s with boundPath := some path }.setCall call (.start path .startHeal)
  | .startHeal =>
    (if s.healTask.isSome then s
    else { s with
      healTask := some s.heals.length
      heals := s.heals ++ [⟨.tick, false, false, none⟩] }).setCall call .returned

/-- The next action of a stop call. -/
def stepStop (s : Server) (call starts : ℕ) : StopPc → Server
  | .takeHeal =>
    { s with
      healTask := none
      heals := match s.healTask with
        | none => s.heals
        | some heal => s.heals.modify heal fun task => { task with aborted := true }
    }.setCall call (.stop .takeAccept starts)
  | .takeAccept => s.takeAccept.setCall call (.stop .clearPath starts)
  | .clearPath => { s with boundPath := none }.setCall call (.stop .clearRunners starts)
  | .clearRunners => { s with quiet := s.quiet || starts == s.starts }.setCall call .returned

/-- The next action of a healing task. -/
def stepHeal (s : Server) (heal : ℕ) (task : Heal) (ok : Bool) : Server :=
  match task.pc with
  | .tick =>
    if task.aborted then s
    else if s.stopped then s.setHeal heal { task with ended := true }
    else s.setHeal heal { task with pc := .readPath }
  | .readPath =>
    match s.boundPath with
    | none => s.setHeal heal { task with pc := .tick }
    | some path => s.setHeal heal { task with pc := .stat path }
  | .stat path =>
    if task.aborted then s
    else s.setHeal heal { task with pc := if ok then .tick else .removeFile path }
  | .removeFile path => s.setHeal heal { task with pc := if ok then .bind path else .tick }
  | .bind path => s.setHeal heal { task with pc := if ok then .takeSlot path else .tick }
  | .takeSlot path =>
    (s.abortLoop task.slot).setHeal heal { task with pc := .install path, slot := none }
  | .install _ =>
    { s with
      live := s.live ++ [s.nextLoop]
      rebound := s.rebound ++ [s.nextLoop]
      nextLoop := s.nextLoop + 1 }.setHeal heal { task with pc := .tick, slot := some s.nextLoop }

/-- A healing task waits, so that an abort ends it. -/
def HealPc.waits : HealPc → Bool
  | .tick => true
  | .stat _ => true
  | _ => false

/-- One step of the server. -/
def step (s : Server) : Event → Server
  | .callStart path =>
    { s with
      stopped := false
      starts := s.starts + 1
      quiet := false
      calls := s.calls ++ [.start path .removeFile] }
  | .callStop =>
    { s with
      stopped := true
      calls := s.calls ++ [.stop .takeHeal s.starts] }
  | .callStep call ok =>
    match s.calls[call]? with
    | some (.start path pc) => stepStart s call path ok pc
    | some (.stop pc starts) => stepStop s call starts pc
    | _ => s
  | .healStep heal ok =>
    match s.heals[heal]? with
    | some task => if task.ended then s else stepHeal s heal task ok
    | none => s
  | .healCancel heal =>
    match s.heals[heal]? with
    | some task =>
      if task.aborted ∧ task.pc.waits then s.setHeal heal { task with ended := true } else s
    | none => s
  | .acceptError loop => s.abortLoop (some loop)

/-- At most one accept loop is live, and none after stopping. -/
def Guarded (s : Server) : Prop := s.live.length ≤ 1 ∧ (s.quiet = true → s.live = [])

instance : DecidablePred Guarded := fun _ => inferInstanceAs (Decidable (_ ∧ _))

/-- A healing task is about to spawn its loop. -/
def Heal.installs (task : Heal) : Bool :=
  match task.pc with
  | .install _ => !task.ended
  | _ => false

/-- A start call has still to spawn its loop. -/
def Call.pending : Call → Bool
  | .start _ .removeFile => true
  | .start _ .bind => true
  | .start _ .takeAccept => true
  | .start _ .install => true
  | _ => false

/-- A call is made only while no start call has still to spawn its loop and no
loop of a healing task is live; a healing task spawns its loop only while no
start call has still to spawn its own, the server is not stopped and no loop
is live. -/
def Careful (s : Server) : Event → Prop
  | .callStart _ => (∀ call ∈ s.calls, call.pending = false) ∧ ∀ loop ∈ s.live, loop ∉ s.rebound
  | .callStop => (∀ call ∈ s.calls, call.pending = false) ∧ ∀ loop ∈ s.live, loop ∉ s.rebound
  | .healStep heal _ =>
    ∀ task ∈ s.heals[heal]?, task.installs = true →
      (∀ call ∈ s.calls, call.pending = false) ∧ s.stopped = false ∧ s.live = []
  | _ => True

instance (s : Server) : DecidablePred (Careful s)
  | .callStart _ => inferInstanceAs (Decidable (_ ∧ _))
  | .callStop => inferInstanceAs (Decidable (_ ∧ _))
  | .callStep _ _ => isTrue trivial
  | .healStep heal _ => inferInstanceAs (Decidable (∀ task ∈ s.heals[heal]?, _))
  | .healCancel _ => isTrue trivial
  | .acceptError _ => isTrue trivial

section Invariant

/-- The number of start calls a stop call saw when it began. -/
def Call.saw : Call → Option ℕ
  | .stop _ starts => some starts
  | _ => none

/-- Every live loop is the one that the last start had spawned. -/
def Server.Kept (s : Server) : Prop := ∀ loop ∈ s.live, s.acceptTask = some loop

/-- What holds while a call is under way. What a stop call has done counts
only until another start call begins. -/
def Call.Holds (s : Server) : Call → Prop
  | .start _ .removeFile => s.Kept
  | .start _ .bind => s.Kept
  | .start _ .takeAccept => s.Kept
  | .start _ .install => s.live = []
  | .stop .takeHeal starts => starts = s.starts → s.stopped = true ∧ s.Kept
  | .stop .takeAccept starts => starts = s.starts → s.stopped = true ∧ s.Kept
  | .stop _ starts => starts = s.starts → s.stopped = true ∧ s.live = []
  | _ => True

/-- What holds in careful runs. -/
structure Inv (s : Server) : Prop where
  /-- At most one loop is live. -/
  one : s.live.length ≤ 1
  /-- A live loop is that of the last start or one of a healing task. -/
  owned : ∀ loop ∈ s.live, s.acceptTask = some loop ∨ loop ∈ s.rebound
  /-- At most one start call has still to spawn its loop. -/
  sole : ∀ i j : ℕ, ∀ a b, s.calls[i]? = some a → s.calls[j]? = some b → a.pending = true →
    b.pending = true → i = j
  /-- Stop calls saw no more start calls than there are, and fewer while one of
  these has still to spawn its loop. -/
  seen : ∀ call ∈ s.calls, ∀ n, call.saw = some n → n ≤ s.starts ∧
    ∀ other ∈ s.calls, other.pending = true → n ≠ s.starts
  /-- Every call is where its past allows it to be. -/
  calls : ∀ call ∈ s.calls, call.Holds s
  /-- After stopping nothing is live and no start call is to spawn a loop. -/
  silent : s.quiet = true → s.live = [] ∧ s.stopped = true ∧ ∀ call ∈ s.calls, call.pending = false

theorem inv_new : Inv .new where
  one := by decide
  owned := by simp [Server.new]
  sole := by simp [Server.new]
  seen := by simp [Server.new]
  calls := by simp [Server.new]
  silent := by simp [Server.new]

/-- What a call needs is kept when a step keeps each of the three facts. -/
theorem Call.Holds.imp {s t : Server} {call : Call} (h : call.Holds s)
    (hstarts : t.starts = s.starts) (hstopped : s.stopped = true → t.stopped = true)
    (hkept : s.Kept → t.Kept) (hnil : s.live = [] → t.live = []) : call.Holds t := by
  cases call with
  | returned => trivial
  | start path pc =>
    cases pc with
    | removeFile | bind | takeAccept => exact hkept h
    | install => exact hnil h
    | setPath | startHeal => trivial
  | stop pc starts =>
    have hsaw : starts = t.starts → starts = s.starts := fun heq => heq.trans hstarts
    cases pc with
    | takeHeal | takeAccept => exact fun heq => (h (hsaw heq)).imp hstopped hkept
    | clearPath | clearRunners => exact fun heq => (h (hsaw heq)).imp hstopped hnil

/-- Loops may end, and what the invariant does not speak of may change. -/
theorem Inv.of_sublist {s t : Server} (h : Inv s) (hlive : t.live.Sublist s.live)
    (haccept : t.acceptTask = s.acceptTask) (hrebound : t.rebound = s.rebound)
    (hstopped : t.stopped = s.stopped) (hstarts : t.starts = s.starts)
    (hcalls : t.calls = s.calls) (hquiet : t.quiet = s.quiet) : Inv t where
  one := Nat.le_trans hlive.length_le h.one
  owned := by
    intro loop hmem
    rw [haccept, hrebound]
    exact h.owned loop (hlive.subset hmem)
  sole := by
    rw [hcalls]
    exact h.sole
  seen := by
    rw [hcalls, hstarts]
    exact h.seen
  calls := by
    rw [hcalls]
    intro call hmem
    refine (h.calls call hmem).imp hstarts (fun hstop => hstopped.trans hstop) ?_ ?_
    · intro hkept loop hloop
      rw [haccept]
      exact hkept loop (hlive.subset hloop)
    · intro hnil
      rw [hnil] at hlive
      exact List.sublist_nil.mp hlive
  silent := by
    intro hq
    rw [hquiet] at hq
    obtain ⟨hnil, hstop, hpending⟩ := h.silent hq
    rw [hnil] at hlive
    rw [hcalls]
    exact ⟨List.sublist_nil.mp hlive, hstopped.trans hstop, hpending⟩

theorem Inv.abortLoop {s : Server} (h : Inv s) (loop : Option ℕ) : Inv (s.abortLoop loop) := by
  cases loop with
  | none => exact h
  | some loop => exact h.of_sublist List.filter_sublist rfl rfl rfl rfl rfl rfl

theorem Inv.setHeal {s : Server} (h : Inv s) (heal : ℕ) (next : Heal) : Inv (s.setHeal heal next) :=
  h.of_sublist (List.Sublist.refl _) rfl rfl rfl rfl rfl rfl

/-- Aborting the loop of the last start ends it and no other. -/
theorem mem_takeAccept_live {s : Server} {loop : ℕ} :
    loop ∈ s.takeAccept.live ↔ loop ∈ s.live ∧ s.acceptTask ≠ some loop := by
  unfold Server.takeAccept Server.abortLoop
  cases s.acceptTask with
  | none => simp
  | some current =>
    rw [List.mem_filter, decide_eq_true_eq, ne_eq, ne_eq, Option.some_inj]
    exact and_congr_right fun _ => not_congr eq_comm

/-- When only the loop of the last start is live, aborting it leaves none. -/
theorem Server.Kept.takeAccept {s : Server} (h : s.Kept) : s.takeAccept.live = [] := by
  rw [List.eq_nil_iff_forall_not_mem]
  intro loop hmem
  obtain ⟨hlive, hne⟩ := mem_takeAccept_live.mp hmem
  exact hne (h loop hlive)

/-- Aborting the loop of the last start changes the loops only. -/
theorem takeAccept_eq (s : Server) :
    s.takeAccept = { s with acceptTask := none, live := s.takeAccept.live } := by
  unfold Server.takeAccept Server.abortLoop
  cases s.acceptTask with
  | none => rfl
  | some current => rfl

theorem Inv.takeAccept {s : Server} (h : Inv s) : Inv s.takeAccept := by
  have hsub : ∀ loop ∈ s.takeAccept.live, loop ∈ s.live ∧ s.acceptTask ≠ some loop :=
    fun loop hmem => mem_takeAccept_live.mp hmem
  have hnil : s.live = [] → s.takeAccept.live = [] := fun hlive =>
    Server.Kept.takeAccept (by rw [Server.Kept, hlive]; simp)
  have hlength : s.takeAccept.live.length ≤ s.live.length := by
    unfold Server.takeAccept Server.abortLoop
    cases s.acceptTask with
    | none => exact le_rfl
    | some current => exact List.length_filter_le _ _
  rw [takeAccept_eq]
  refine ⟨hlength.trans h.one, fun loop hmem => ?_, h.sole, h.seen, fun call hmem => ?_, fun hq => ?_⟩
  · obtain ⟨hlive, hne⟩ := hsub loop hmem
    exact (h.owned loop hlive).imp (fun heq => absurd heq hne) id
  · refine (h.calls call hmem).imp rfl id (fun hkept loop hloop => ?_) hnil
    exact absurd (hkept loop (hsub loop hloop).1) (hsub loop hloop).2
  · obtain ⟨hlive, hrest⟩ := h.silent hq
    exact ⟨hnil hlive, hrest⟩

/-- After one call went on, every call is the new one or an old one in another
place. -/
theorem mem_set_cases {calls : List Call} {i : ℕ} {next call : Call} (h : call ∈ calls.set i next) :
    call = next ∨ ∃ j, j ≠ i ∧ calls[j]? = some call := by
  obtain ⟨j, hj⟩ := List.mem_iff_getElem?.mp h
  by_cases heq : i = j
  · rw [heq, List.getElem?_set_self'] at hj
    obtain ⟨_, _, hnext⟩ := Option.map_eq_some_iff.mp hj
    exact .inl hnext.symm
  · rw [List.getElem?_set_ne heq] at hj
    exact .inr ⟨j, Ne.symm heq, hj⟩

/-- A call in a place of the list after one call went on. -/
theorem getElem?_set_pending {calls : List Call} {i j : ℕ} {c next call : Call}
    (hcall : calls[i]? = some c) (hpending : next.pending = true → c.pending = true)
    (h : (calls.set i next)[j]? = some call) (hp : call.pending = true) :
    ∃ old, calls[j]? = some old ∧ old.pending = true := by
  by_cases heq : i = j
  · rw [← heq, List.getElem?_set_self', hcall] at h
    obtain rfl : next = call := Option.some.inj h
    exact ⟨c, heq ▸ hcall, hpending hp⟩
  · rw [List.getElem?_set_ne heq] at h
    exact ⟨call, h, hp⟩

/-- A call goes on to a place that its past allows, and the other calls may
stay where they are. -/
theorem Inv.advance {s t : Server} (h : Inv s) {i : ℕ} {c next : Call}
    (hcall : s.calls[i]? = some c) (hcalls : t.calls = s.calls.set i next)
    (hstarts : t.starts = s.starts) (hpending : next.pending = true → c.pending = true)
    (hsaw : ∀ n, next.saw = some n → c.saw = some n) (hone : t.live.length ≤ 1)
    (howned : ∀ loop ∈ t.live, t.acceptTask = some loop ∨ loop ∈ t.rebound)
    (hnext : next.Holds t)
    (hothers : ∀ j other, j ≠ i → s.calls[j]? = some other → other.Holds s → other.Holds t)
    (hsilent : t.quiet = true →
      t.live = [] ∧ t.stopped = true ∧ ∀ call ∈ s.calls, call.pending = false) : Inv t := by
  have hold : ∀ call ∈ s.calls.set i next, call.pending = true →
      ∃ old ∈ s.calls, old.pending = true := by
    intro call hmem hp
    obtain ⟨j, hj⟩ := List.mem_iff_getElem?.mp hmem
    obtain ⟨old, hget, hpend⟩ := getElem?_set_pending hcall hpending hj hp
    exact ⟨old, List.mem_of_getElem? hget, hpend⟩
  have hsaw' : ∀ call ∈ s.calls.set i next, ∀ n, call.saw = some n →
      ∃ old ∈ s.calls, old.saw = some n := by
    intro call hmem n hn
    rcases mem_set_cases hmem with rfl | ⟨j, -, hj⟩
    · exact ⟨c, List.mem_of_getElem? hcall, hsaw n hn⟩
    · exact ⟨call, List.mem_of_getElem? hj, hn⟩
  refine ⟨hone, howned, ?_, ?_, ?_, ?_⟩
  · rw [hcalls]
    intro j k a b ha hb hpa hpb
    obtain ⟨a', ha', hpa'⟩ := getElem?_set_pending hcall hpending ha hpa
    obtain ⟨b', hb', hpb'⟩ := getElem?_set_pending hcall hpending hb hpb
    exact h.sole j k a' b' ha' hb' hpa' hpb'
  · rw [hcalls, hstarts]
    intro call hmem n hn
    obtain ⟨old, hmem', hn'⟩ := hsaw' call hmem n hn
    refine ⟨(h.seen old hmem' n hn').1, fun other hother hp => ?_⟩
    obtain ⟨old', hother', hp'⟩ := hold other hother hp
    exact (h.seen old hmem' n hn').2 old' hother' hp'
  · rw [hcalls]
    intro call hmem
    rcases mem_set_cases hmem with rfl | ⟨j, hne, hj⟩
    · exact hnext
    · exact hothers j call hne hj (h.calls call (List.mem_of_getElem? hj))
  · intro hq
    obtain ⟨hnil, hstop, hnone⟩ := hsilent hq
    refine ⟨hnil, hstop, ?_⟩
    rw [hcalls]
    intro call hmem
    by_contra hp
    obtain ⟨old, hmem', hp'⟩ := hold call hmem (by simpa using hp)
    rw [hnone old hmem'] at hp'
    cases hp'

/-- A call goes on and nothing else that matters changes. -/
theorem Inv.setCall {s : Server} (h : Inv s) {i : ℕ} {c next : Call} (hcall : s.calls[i]? = some c)
    (hpending : next.pending = true → c.pending = true)
    (hsaw : ∀ n, next.saw = some n → c.saw = some n) (hnext : next.Holds s) :
    Inv (s.setCall i next) :=
  h.advance hcall rfl rfl hpending hsaw h.one h.owned (hnext.imp rfl id id id)
    (fun _ _ _ _ hother => hother.imp rfl id id id) h.silent

/-- While a start call has still to spawn its loop, no stop call is the last
word and no other start call is to spawn one. -/
theorem Inv.others_of_pending {s : Server} (h : Inv s) {i j : ℕ} {c other : Call}
    (hcall : s.calls[i]? = some c) (hpending : c.pending = true) (hne : j ≠ i)
    (hother : s.calls[j]? = some other) :
    other.pending = false ∧ ∀ n, other.saw = some n → n ≠ s.starts := by
  refine ⟨?_, fun n hn => ?_⟩
  · by_contra hp
    exact hne (h.sole j i other c hother hcall (by simpa using hp) hpending)
  · exact (h.seen other (List.mem_of_getElem? hother) n hn).2 c (List.mem_of_getElem? hcall) hpending

/-- A call that is not to spawn a loop and is not the last word needs nothing. -/
theorem Call.holds_of_past {s : Server} {call : Call} (hpending : call.pending = false)
    (hsaw : ∀ n, call.saw = some n → n ≠ s.starts) : call.Holds s := by
  cases call with
  | returned => trivial
  | start path pc =>
    cases pc with
    | setPath | startHeal => trivial
    | removeFile | bind | takeAccept | install => cases hpending
  | stop pc starts =>
    have hne : starts ≠ s.starts := hsaw starts rfl
    cases pc with
    | takeHeal | takeAccept | clearPath | clearRunners => exact fun heq => absurd heq hne

/-- A stop call that is the last word has set the flag. -/
theorem Call.Holds.stopped {s : Server} {call : Call} (h : call.Holds s)
    (hsaw : call.saw = some s.starts) : s.stopped = true := by
  cases call with
  | returned => cases hsaw
  | start path pc => cases hsaw
  | stop pc starts =>
    obtain rfl : starts = s.starts := Option.some.inj hsaw
    cases pc with
    | takeHeal | takeAccept | clearPath | clearRunners => exact (h rfl).1

/-- While a start call has still to spawn its loop, stopping is not over. -/
theorem Inv.quiet_of_pending {s : Server} (h : Inv s) {c : Call} (hmem : c ∈ s.calls)
    (hpending : c.pending = true) : s.quiet = false := by
  by_contra hq
  have hnone := (h.silent (by simpa using hq)).2.2 c hmem
  rw [hpending] at hnone
  cases hnone

theorem Inv.stepStart {s : Server} (h : Inv s) {call : ℕ} {path : Path} {pc : StartPc} (ok : Bool)
    (hcall : s.calls[call]? = some (.start path pc)) : Inv (stepStart s call path ok pc) := by
  have hholds := h.calls _ (List.mem_of_getElem? hcall)
  cases pc with
  | removeFile | bind =>
    cases ok with
    | false => exact h.setCall hcall (fun hp => by cases hp) (fun _ hn => by cases hn) trivial
    | true => exact h.setCall hcall (fun _ => rfl) (fun _ hn => by cases hn) hholds
  | takeAccept =>
    have hget : s.takeAccept.calls[call]? = some (.start path .takeAccept) := by
      rw [takeAccept_eq]
      exact hcall
    exact h.takeAccept.setCall hget (fun _ => rfl) (fun _ hn => by cases hn)
      (Server.Kept.takeAccept hholds)
  | install =>
    have hnil : s.live = [] := hholds
    refine h.advance hcall rfl rfl (fun hp => by cases hp) (fun _ hn => by cases hn) ?_ ?_ trivial
      ?_ ?_
    · show (s.live ++ [s.nextLoop]).length ≤ 1
      simp [hnil]
    · show ∀ loop ∈ s.live ++ [s.nextLoop], some s.nextLoop = some loop ∨ loop ∈ s.rebound
      simp [hnil]
    · intro j other hne hother _
      obtain ⟨hpending, hsaw⟩ := h.others_of_pending hcall rfl hne hother
      exact Call.holds_of_past hpending hsaw
    · intro hq
      have hquiet := h.quiet_of_pending (List.mem_of_getElem? hcall) rfl
      change s.quiet = true at hq
      rw [hquiet] at hq
      cases hq
  | setPath =>
    have hpath : Inv { s with boundPath := some path } :=
      h.of_sublist (List.Sublist.refl _) rfl rfl rfl rfl rfl rfl
    exact hpath.setCall hcall (fun hp => by cases hp) (fun _ hn => by cases hn) trivial
  | startHeal =>
    have hheal : Inv (if s.healTask.isSome then s
        else { s with
          healTask := some s.heals.length
          heals := s.heals ++ [⟨.tick, false, false, none⟩] }) := by
      split
      · exact h
      · exact h.of_sublist (List.Sublist.refl _) rfl rfl rfl rfl rfl rfl
    refine hheal.setCall (c := .start path .startHeal) ?_ (fun hp => by cases hp)
      (fun _ hn => by cases hn) trivial
    split
    · exact hcall
    · exact hcall

theorem Inv.stepStop {s : Server} (h : Inv s) {call starts : ℕ} {pc : StopPc}
    (hcall : s.calls[call]? = some (.stop pc starts)) : Inv (stepStop s call starts pc) := by
  have hmem := List.mem_of_getElem? hcall
  have hholds := h.calls _ hmem
  cases pc with
  | takeHeal =>
    have hheal : Inv { s with
        healTask := none
        heals := match s.healTask with
          | none => s.heals
          | some heal => s.heals.modify heal fun task => { task with aborted := true } } :=
      h.of_sublist (List.Sublist.refl _) rfl rfl rfl rfl rfl rfl
    exact hheal.setCall hcall (fun hp => by cases hp) (fun _ hn => hn) hholds
  | takeAccept =>
    have hget : s.takeAccept.calls[call]? = some (.stop .takeAccept starts) := by
      rw [takeAccept_eq]
      exact hcall
    refine h.takeAccept.setCall hget (fun hp => by cases hp) (fun _ hn => hn) fun heq => ?_
    rw [takeAccept_eq] at heq
    obtain ⟨hstop, hkept⟩ := hholds heq
    refine ⟨?_, hkept.takeAccept⟩
    rw [takeAccept_eq]
    exact hstop
  | clearPath =>
    have hpath : Inv { s with boundPath := none } :=
      h.of_sublist (List.Sublist.refl _) rfl rfl rfl rfl rfl rfl
    exact hpath.setCall hcall (fun hp => by cases hp) (fun _ hn => hn) hholds
  | clearRunners =>
    refine h.advance hcall rfl rfl (fun hp => by cases hp) (fun _ hn => by cases hn) h.one h.owned
      trivial (fun _ _ _ _ hother => hother.imp rfl id id id) fun hq => ?_
    change (s.quiet || starts == s.starts) = true at hq
    have hor : s.quiet = true ∨ starts = s.starts := by simpa using hq
    rcases hor with hquiet | heq
    · exact h.silent hquiet
    · obtain ⟨hstop, hnil⟩ := hholds heq
      refine ⟨hnil, hstop, fun other hother => ?_⟩
      by_contra hp
      exact (h.seen _ hmem starts rfl).2 other hother (by simpa using hp) heq

/-- A healing task keeps the invariant, when it spawns its loop carefully. -/
theorem Inv.stepHeal {s : Server} (h : Inv s) (heal : ℕ) {task : Heal} (ok : Bool)
    (hcareful : (∃ path, task.pc = .install path) →
      (∀ call ∈ s.calls, call.pending = false) ∧ s.stopped = false ∧ s.live = []) :
    Inv (stepHeal s heal task ok) := by
  unfold IpcAccept.stepHeal
  split
  · split
    · exact h
    · split
      · exact h.setHeal heal _
      · exact h.setHeal heal _
  · split
    · exact h.setHeal heal _
    · exact h.setHeal heal _
  · split
    · exact h
    · exact h.setHeal heal _
  · exact h.setHeal heal _
  · exact h.setHeal heal _
  · exact (h.abortLoop task.slot).setHeal heal _
  · rename_i path hpc
    obtain ⟨hnone, hstopped, hnil⟩ := hcareful ⟨path, hpc⟩
    refine Inv.setHeal ?_ heal _
    refine ⟨?_, ?_, h.sole, h.seen, fun call hmem => ?_, fun hq => ?_⟩
    · show (s.live ++ [s.nextLoop]).length ≤ 1
      simp [hnil]
    · show ∀ loop ∈ s.live ++ [s.nextLoop],
        s.acceptTask = some loop ∨ loop ∈ s.rebound ++ [s.nextLoop]
      simp [hnil]
    · refine Call.holds_of_past (hnone call hmem) fun n hn heq => ?_
      have hstop := (h.calls call hmem).stopped (hn.trans (congrArg some heq))
      rw [hstopped] at hstop
      cases hstop
    · have hstop := (h.silent hq).2.1
      rw [hstopped] at hstop
      cases hstop

/-- A live loop that no healing task spawned is that of the last start. -/
theorem Inv.kept {s : Server} (h : Inv s) (hrebound : ∀ loop ∈ s.live, loop ∉ s.rebound) :
    s.Kept :=
  fun loop hmem => (h.owned loop hmem).resolve_right (hrebound loop hmem)

theorem Inv.callStart {s : Server} (h : Inv s) (path : Path)
    (hnone : ∀ call ∈ s.calls, call.pending = false)
    (hrebound : ∀ loop ∈ s.live, loop ∉ s.rebound) : Inv (step s (.callStart path)) := by
  have hpast : ∀ call ∈ s.calls, ∀ n, call.saw = some n → n ≤ s.starts :=
    fun call hmem n hn => (h.seen call hmem n hn).1
  refine ⟨h.one, h.owned, ?_, ?_, ?_, fun hq => by cases hq⟩
  · have hlast : ∀ i a, (s.calls ++ [.start path .removeFile])[i]? = some a → a.pending = true →
        i = s.calls.length := by
      intro i a ha hp
      rw [List.getElem?_append] at ha
      split at ha
      · rw [hnone a (List.mem_of_getElem? ha)] at hp
        cases hp
      · have hbound := (List.getElem?_eq_some_iff.mp ha).1
        rw [List.length_singleton] at hbound
        omega
    exact fun i j a b ha hb hpa hpb => (hlast i a ha hpa).trans (hlast j b hb hpb).symm
  · intro call hmem n hn
    show n ≤ s.starts + 1 ∧ ∀ other ∈ s.calls ++ [Call.start path .removeFile],
      other.pending = true → n ≠ s.starts + 1
    rcases List.mem_append.mp hmem with hold | hnew
    · have hle := hpast call hold n hn
      exact ⟨by omega, fun _ _ _ => by omega⟩
    · rw [List.mem_singleton.mp hnew] at hn
      cases hn
  · intro call hmem
    rcases List.mem_append.mp hmem with hold | hnew
    · refine Call.holds_of_past (hnone call hold) fun n hn heq => ?_
      have hle := hpast call hold n hn
      change n = s.starts + 1 at heq
      omega
    · rw [List.mem_singleton.mp hnew]
      exact h.kept hrebound

theorem Inv.callStop {s : Server} (h : Inv s) (hnone : ∀ call ∈ s.calls, call.pending = false)
    (hrebound : ∀ loop ∈ s.live, loop ∉ s.rebound) : Inv (step s .callStop) := by
  have hnone' : ∀ call ∈ s.calls ++ [.stop .takeHeal s.starts], call.pending = false := by
    intro call hmem
    rcases List.mem_append.mp hmem with hold | hnew
    · exact hnone call hold
    · rw [List.mem_singleton.mp hnew]
      rfl
  refine ⟨h.one, h.owned, ?_, ?_, ?_, ?_⟩
  · intro i j a b ha hb hp _
    rw [hnone' a (List.mem_of_getElem? ha)] at hp
    cases hp
  · intro call hmem n hn
    refine ⟨?_, fun other hother hp => ?_⟩
    · rcases List.mem_append.mp hmem with hold | hnew
      · exact (h.seen call hold n hn).1
      · rw [List.mem_singleton.mp hnew] at hn
        exact (Option.some.inj hn).ge
    · rw [hnone' other hother] at hp
      cases hp
  · intro call hmem
    rcases List.mem_append.mp hmem with hold | hnew
    · exact (h.calls call hold).imp rfl (fun _ => rfl) id id
    · rw [List.mem_singleton.mp hnew]
      exact fun _ => ⟨rfl, h.kept hrebound⟩
  · exact fun hq => ⟨(h.silent hq).1, rfl, hnone'⟩

/-- A careful step keeps the invariant. -/
theorem inv_step (s : Server) (e : Event) (h : Inv s) (hcareful : Careful s e) : Inv (step s e) := by
  cases e with
  | callStart path => exact h.callStart path hcareful.1 hcareful.2
  | callStop => exact h.callStop hcareful.1 hcareful.2
  | callStep call ok =>
    unfold step
    dsimp only
    split
    · rename_i path pc hcall
      exact h.stepStart ok hcall
    · rename_i pc starts hcall
      exact h.stepStop hcall
    · exact h
  | healStep heal ok =>
    unfold step
    dsimp only
    split
    · rename_i task htask
      by_cases hended : task.ended = true
      · rw [if_pos hended]
        exact h
      · rw [if_neg hended]
        refine h.stepHeal heal ok ?_
        rintro ⟨path, hpc⟩
        refine hcareful task htask ?_
        simpa [Heal.installs, hpc] using hended
    · exact h
  | healCancel heal =>
    unfold step
    dsimp only
    split
    · split
      · exact h.setHeal heal _
      · exact h
    · exact h
  | acceptError loop => exact h.abortLoop (some loop)

end Invariant

/-- In every run whose calls and rebinds are careful, at most one accept loop is
live in every state reached, and none is live or starts after a stop call has
returned. -/
theorem careful_runs_guarded (events : List Event) (h : Meets step Careful .new events)
    (before : List Event) (hbefore : before <+: events) : Guarded (runFrom step .new before) := by
  have hmeets : Meets step Careful .new before := meets_of_isPrefix hbefore h
  have hinv : Inv (runFrom step .new before) := runFrom_induction_of_meets inv_step inv_new hmeets
  exact ⟨hinv.one, fun hq => (hinv.silent hq).1⟩

/-- A start call that runs to its end. -/
def startAt (path : Path) (call : ℕ) : List Event :=
  .callStart path :: List.replicate 6 (.callStep call true)

/-- A stop call that runs to its end. -/
def stopAt (call : ℕ) : List Event := .callStop :: List.replicate 4 (.callStep call true)

/-- A healing task finds the file gone and binds again. -/
def rebindBy (heal : ℕ) : List Event :=
  [.healStep heal true, .healStep heal true, .healStep heal false, .healStep heal true,
    .healStep heal true, .healStep heal true, .healStep heal true]

/-- A run in which the loops of a start and of a rebind end before the next
one, with a stop and a second start. -/
def carefulRun : List Event :=
  startAt "daemon.sock" 0 ++ [.acceptError 0] ++ rebindBy 0 ++ [.acceptError 1] ++ stopAt 1 ++
    [.healCancel 0] ++ startAt "daemon.sock" 2

theorem careful_runs_guarded_carefulRun :
    Meets step Careful .new carefulRun ∧ (runFrom step .new carefulRun).live = [2] ∧
      Guarded (runFrom step .new carefulRun) :=
  ⟨by decide +kernel, by decide +kernel,
    careful_runs_guarded carefulRun (by decide +kernel) carefulRun List.prefix_rfl⟩

/-- A rebind leaves the loop of the start live beside its own, and the loop of
the rebind is still live after the stop call has returned. -/
theorem rebind_leaves_two_loops :
    (runFrom step .new (startAt "daemon.sock" 0 ++ rebindBy 0)).live = [0, 1] ∧
      ¬Guarded (runFrom step .new (startAt "daemon.sock" 0 ++ rebindBy 0)) ∧
      (runFrom step .new (startAt "daemon.sock" 0 ++ rebindBy 0 ++ stopAt 1)).quiet = true ∧
      (runFrom step .new (startAt "daemon.sock" 0 ++ rebindBy 0 ++ stopAt 1)).live = [1] := by
  decide +kernel

end Teleprompter.IpcAccept
