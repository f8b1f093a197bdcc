import Teleprompter.RelayConnection

/-!
# The dead-pairing throttle

A relay client counts connections that ended without a frontend, and after
three of them waits half an hour before each attempt. The count is advanced
where a reconnect is scheduled, which a failed attempt does as well as a
close, and it reads a flag that every attempt has reset. The counter is
therefore the number of both, and what it should be exactly while no attempt
failed since the last key exchange.
-/

namespace Teleprompter.RelayConnection

open StepRuns

/-- What happens to a client that connects again and again. -/
inductive LifeEvent where
  /-- An attempt to connect fails. -/
  | failed
  /-- An attempt to connect succeeds. -/
  | established
  /-- A frontend completes a key exchange. -/
  | keyExchange
  /-- The connection is closed. -/
  | closed
  deriving DecidableEq

/-- A client between the sections of its tasks. -/
structure Lifecycle where
  /-- The state behind the lock. -/
  conn : ConnState
  /-- Connections so far. -/
  connections : ℕ
  /-- A connection is established. -/
  live : Bool
  /-- Delay until the next attempt. -/
  delay : Option ℕ
  deriving DecidableEq

/-- A client before its first attempt. -/
def Lifecycle.new : Lifecycle := ⟨ConnState.new, 0, false, none⟩

/-- An attempt cleans up and counts a generation. -/
def ConnState.attempt (st : ConnState) : ConnState := st.cleanup.nextGeneration

/-- One event. Attempts are made while no connection is established. -/
def lifeStep (s : Lifecycle) : LifeEvent → Lifecycle
  | .failed =>
    if s.live then s
    else { s with conn := s.conn.attempt.account.1, delay := some s.conn.attempt.account.2 }
  | .established =>
    if s.live then s
    else ⟨{ s.conn.attempt.install s.connections with reconnectAttempt := 0 },
      s.connections + 1, true, none⟩
  | .keyExchange => if s.live then { s with conn := s.conn.keyExchanged } else s
  | .closed =>
    if s.live then
      let st := { s.conn with authenticated := false }
      { s with conn := st.account.1, live := false, delay := some st.account.2 }
    else s

/-- What the events say, without the client. -/
structure History where
  /-- A connection is established. -/
  live : Bool
  /-- Established connections that ended without a key exchange since the
  last key exchange. -/
  ended : ℕ
  /-- Attempts that failed since the last key exchange. -/
  failed : ℕ
  /-- The last established connection saw a frontend. -/
  sawFrontend : Bool
  deriving DecidableEq

/-- Nothing has happened. -/
def History.new : History := ⟨false, 0, 0, false⟩

/-- One event, recorded. -/
def History.step (h : History) : LifeEvent → History
  | .failed => if h.live then h else { h with failed := h.failed + 1 }
  | .established => if h.live then h else { h with live := true, sawFrontend := false }
  | .keyExchange =>
    if h.live then { h with ended := 0, failed := 0, sawFrontend := true } else h
  | .closed =>
    if h.live then
      { h with live := false, ended := if h.sawFrontend then h.ended else h.ended + 1 }
    else h

/-- The counter is the number of established connections without a key
exchange, and a pairing whose last connection saw a frontend is not delayed
beyond the cap of the backoff. -/
def ThrottleSound (s : Lifecycle) (h : History) : Prop :=
  s.conn.peerlessReconnects = h.ended ∧
    (h.sawFrontend = true → ∀ delay ∈ s.delay, delay ≤ reconnectMaxMs)

/-- A delay is within the cap exactly below the threshold. -/
theorem computeReconnectPlan_le_iff (attempt peerless : ℕ) :
    (computeReconnectPlan attempt peerless).delayMs ≤ reconnectMaxMs ↔
      peerless < peerlessReconnectThreshold := by
  unfold computeReconnectPlan
  split
  · rename_i h
    have hlong : ¬peerlessReconnectMs ≤ reconnectMaxMs := by decide
    exact ⟨fun hle => absurd hle hlong, fun hlt => absurd h (Nat.not_le.mpr hlt)⟩
  · rename_i h
    exact ⟨fun _ => Nat.not_le.mp h, fun _ => Nat.min_le_right _ _⟩

/-- What the client and the record of its events have in common. -/
structure Agrees (s : Lifecycle) (h : History) : Prop where
  live : s.live = h.live
  /-- The flag of an established connection is its record. -/
  hadPeer : h.live = true → s.conn.hadPeerThisConnection = h.sawFrontend
  /-- The counter counts failed attempts too. -/
  counter : s.conn.peerlessReconnects = (h.ended + h.failed) % 4294967296
  /-- Nothing was counted since a connection that saw a frontend, but for
  attempts after it. -/
  fresh : h.sawFrontend = true → h.ended = 0 ∧ (h.live = true → h.failed = 0)
  /-- The delay was computed from the counter. -/
  planned : ∀ delay ∈ s.delay, delay ≤ reconnectMaxMs ↔
    s.conn.peerlessReconnects < peerlessReconnectThreshold
  /-- Nothing is planned while a connection is established. -/
  unplanned : h.live = true → s.delay = none

/-- The plan of an accounting goes with its counter. -/
theorem account_le_iff (st : ConnState) : st.account.2 ≤ reconnectMaxMs ↔
    st.account.1.peerlessReconnects < peerlessReconnectThreshold :=
  computeReconnectPlan_le_iff _ _

/-- One event keeps client and record together. -/
theorem Agrees.step {s : Lifecycle} {h : History} (ha : Agrees s h) (e : LifeEvent) :
    Agrees (lifeStep s e) (h.step e) := by
  cases hl : h.live with
  | true =>
    have hs : s.live = true := ha.live.trans hl
    cases e with
    | failed | established =>
      simp only [lifeStep, History.step, hs, hl, if_true]
      exact ha
    | keyExchange =>
      simp only [lifeStep, History.step, hs, hl, if_true]
      exact ⟨rfl, fun _ => rfl, rfl, fun _ => ⟨rfl, fun _ => rfl⟩,
        by simp [ha.unplanned hl], fun _ => ha.unplanned hl⟩
    | closed =>
      simp only [lifeStep, History.step, hs, hl, if_true]
      refine ⟨rfl, fun h => absurd h Bool.false_ne_true, ?_, ?_, ?_,
        fun h => absurd h Bool.false_ne_true⟩
      · have hpeer := ha.hadPeer hl
        have hcount := ha.counter
        simp only [ConnState.account, nextPeerlessReconnects, hpeer]
        cases hsaw : h.sawFrontend with
        | true =>
          obtain ⟨hended, hfailed⟩ := ha.fresh hsaw
          simp only [if_true, hended, hfailed hl]
        | false =>
          simp only [Bool.false_eq_true, if_false, hcount]
          omega
      · intro hsaw
        have hsaw' : h.sawFrontend = true := hsaw
        simp only [hsaw', if_true]
        exact ⟨(ha.fresh hsaw').1, fun h => absurd h Bool.false_ne_true⟩
      · intro delay hd
        obtain rfl := Option.some.inj hd
        exact account_le_iff _
  | false =>
    have hs : s.live = false := ha.live.trans hl
    cases e with
    | keyExchange | closed =>
      simp only [lifeStep, History.step, hs, hl, Bool.false_eq_true, if_false]
      exact ha
    | failed =>
      simp only [lifeStep, History.step, hs, hl, Bool.false_eq_true, if_false]
      refine ⟨rfl, fun h => absurd h Bool.false_ne_true, ?_, ?_, ?_,
        fun h => absurd h Bool.false_ne_true⟩
      · have hcount := ha.counter
        simp only [ConnState.account, ConnState.attempt, ConnState.cleanup,
          ConnState.nextGeneration, nextPeerlessReconnects, Bool.false_eq_true, if_false, hcount]
        omega
      · exact fun hsaw => ⟨(ha.fresh hsaw).1, fun h => absurd h Bool.false_ne_true⟩
      · intro delay hd
        obtain rfl := Option.some.inj hd
        exact account_le_iff _
    | established =>
      simp only [lifeStep, History.step, hs, hl, Bool.false_eq_true, if_false]
      exact ⟨rfl, fun _ => rfl, ha.counter, fun h => absurd h Bool.false_ne_true, by simp,
        fun _ => rfl⟩

/-- Client and record agree after every run. -/
theorem agrees_runFrom (events : List LifeEvent) :
    Agrees (runFrom lifeStep Lifecycle.new events) (runFrom History.step History.new events) := by
  have hstart : Agrees Lifecycle.new History.new :=
    ⟨rfl, fun _ => rfl, rfl, fun h => absurd h Bool.false_ne_true, by simp [Lifecycle.new],
      fun _ => rfl⟩
  have hrun : ∀ (events : List LifeEvent) s h, Agrees s h →
      Agrees (runFrom lifeStep s events) (runFrom History.step h events) := by
    intro events
    induction events with
    | nil => exact fun s h ha => ha
    | cons e events ih => exact fun s h ha => ih _ _ (ha.step e)
  exact hrun events _ _ hstart

/-- The throttle is sound after a run exactly when no attempt failed since
the last key exchange, up to the range of the counter. -/
theorem throttle_sound_iff (events : List LifeEvent) :
    ThrottleSound (runFrom lifeStep Lifecycle.new events)
      (runFrom History.step History.new events) ↔
    (runFrom History.step History.new events).ended < 4294967296 ∧
      4294967296 ∣ (runFrom History.step History.new events).failed := by
  have ha := agrees_runFrom events
  have hcount := ha.counter
  constructor
  · rintro ⟨hc, _⟩
    rw [hc] at hcount
    omega
  · rintro ⟨hlt, hdvd⟩
    have hc : (runFrom lifeStep Lifecycle.new events).conn.peerlessReconnects =
        (runFrom History.step History.new events).ended := by omega
    refine ⟨hc, fun hsaw delay hd => (ha.planned delay hd).mpr ?_⟩
    rw [hc, (ha.fresh hsaw).1]
    decide

/-- A pairing whose last connection saw a frontend waits half an hour after
three attempts that failed. -/
theorem throttle_counts_failed_attempts :
    ¬ThrottleSound (runFrom lifeStep Lifecycle.new
        [.established, .keyExchange, .closed, .failed, .failed, .failed])
      (runFrom History.step History.new
        [.established, .keyExchange, .closed, .failed, .failed, .failed]) ∧
    (runFrom lifeStep Lifecycle.new
      [.established, .keyExchange, .closed, .failed, .failed, .failed]).conn.peerlessReconnects = 3 ∧
    (runFrom lifeStep Lifecycle.new
      [.established, .keyExchange, .closed, .failed, .failed, .failed]).delay = some 1800000 ∧
    runFrom History.step History.new
      [.established, .keyExchange, .closed, .failed, .failed, .failed] = ⟨false, 0, 3, true⟩ := by
  refine ⟨fun h => absurd h.1 ?_, ?_⟩
  · decide +kernel
  · decide +kernel

section Client

/-- A world in which dials succeed and the socket delivers a message, or is
closed. -/
def delivering (incoming : Option Incoming) : Env := ⟨true, incoming, 0⟩

/-- A task of the client is at a stage, with actions to perform first. -/
structure Performs (st : ConnState) (connections i : ℕ) (stage : Stage) (todo : List Action)
    (s : RelayClient) : Prop where
  conn : s.conn = st
  channels : s.channels.length = connections
  proc : ∃ p, s.procs[i]? = some p ∧ p.stage = stage ∧ p.todo = todo ∧ p.clone = none

/-- A task with nothing to perform stands at a stage. -/
abbrev Stands (st : ConnState) (connections i : ℕ) (stage : Stage) (s : RelayClient) : Prop :=
  Performs st connections i stage [] s

/-- Some run of the client leads from one kind of states to another. -/
def Leads (before after : RelayClient → Prop) : Prop :=
  ∀ s, before s → ∃ events, after (runFrom clientStep s events)

variable {st st' : ConnState} {n i : ℕ} {stage stage' : Stage} {s : RelayClient}

/-- Runs compose. -/
theorem Leads.trans {first second third : RelayClient → Prop} (h : Leads first second)
    (h' : Leads second third) : Leads first third := by
  intro s hs
  obtain ⟨events, hmid⟩ := h s hs
  obtain ⟨events', hend⟩ := h' _ hmid
  refine ⟨events ++ events', ?_⟩
  rw [runFrom, List.foldl_append]
  exact hend

/-- A task that goes on is one step. -/
theorem runFrom_advance {p : Proc} (hget : s.procs[i]? = some p) (htodo : p.todo = []) (env : Env) :
    runFrom clientStep s [.run i env] = s.advance i p env := by
  simp only [runFrom_cons, runFrom_nil, clientStep, RelayClient.run, hget, htodo]

/-- The task stands at the stage it was set to. -/
theorem stands_setProc {p p' : Proc} (hst : s.conn = st) (hc : s.channels.length = n)
    (hget : s.procs[i]? = some p) (hstage : p'.stage = stage) (htodo : p'.todo = [])
    (hclone : p'.clone = none) : Stands st n i stage (s.setProc i p') :=
  ⟨hst, hc, p', List.getElem?_set_self (List.getElem?_eq_some_iff.mp hget).1, hstage, htodo, hclone⟩

/-- A task that only changes the state behind the lock goes on. -/
theorem leads_goto (env : Env) (h : ∀ (s : RelayClient) (p : Proc), s.conn = st → p.stage = stage →
      s.advance i p env = { s with conn := st' }.setProc i { p with stage := stage' }) :
    Leads (Stands st n i stage) (Stands st' n i stage') := by
  intro s hs
  obtain ⟨p, hget, hst, htodo, hclone⟩ := hs.proc
  refine ⟨[.run i env], ?_⟩
  rw [runFrom_advance hget htodo, h s p hs.conn hst]
  exact stands_setProc rfl hs.channels hget rfl htodo hclone

/-- An abort moves no task. -/
theorem Stands.drain (h : Stands st n i stage s) : Stands st n i stage s.drain := by
  obtain ⟨p, hget, hst, htodo, hclone⟩ := h.proc
  have hget' : s.drain.procs[i]? =
      some (if Handle.reader i ∈ s.tasks then { p with aborted := true } else p) := by
    rw [RelayClient.drain, List.getElem?_mapIdx, hget]
    rfl
  refine ⟨h.conn, ?_, _, hget', ?_⟩
  · rw [← h.channels]
    exact List.length_mapIdx
  · split
    · exact ⟨hst, htodo, hclone⟩
    · exact ⟨hst, htodo, hclone⟩

/-- A new task does not move the others. -/
theorem Stands.spawn (h : Stands st n i stage s) (new : Stage) :
    Stands st n i stage (s.spawn new) := by
  obtain ⟨p, hget, hp⟩ := h.proc
  refine ⟨h.conn, h.channels, p, ?_, hp⟩
  rw [RelayClient.spawn, List.getElem?_append_left (List.getElem?_eq_some_iff.mp hget).1, hget]

/-- A new task stands at its first stage. -/
theorem stands_spawn (hst : s.conn = st) (hc : s.channels.length = n) (new : Stage) :
    Stands st n s.procs.length new (s.spawn new) :=
  ⟨hst, hc, Proc.start new, List.getElem?_concat_length, rfl, rfl, rfl⟩

/-- A connect runs up to its dial. -/
theorem leads_connect (hd : st.disposed = false) :
    Leads (Stands st n i .connectStart) (Stands st.attempt n i (.dialing st.attempt.generation)) := by
  have hstart : Leads (Stands st n i .connectStart) (Stands st n i .connectKeyed) :=
    leads_goto (delivering none) fun s p hs hp => by
      simp only [RelayClient.advance, hp, hs, hd, Bool.false_eq_true, if_false]
      rw [← hs]
  have hkeyed : Leads (Stands st n i .connectKeyed) (Stands st n i .connectChecked) :=
    leads_goto (delivering none) fun s p hs hp => by
      simp only [RelayClient.advance, hp, hs, hd, Bool.false_eq_true, if_false]
      rw [← hs]
  have hchecked : Leads (Stands st n i .connectChecked) (Stands st.cleanup n i .connectCleared) :=
    leads_goto (delivering none) fun s p hs hp => by simp only [RelayClient.advance, hp, hs]
  have hcleared : Leads (Stands st.cleanup n i .connectCleared)
      (Stands st.cleanup n i .connectDrained) := by
    intro s hs
    obtain ⟨p, hget, hst, htodo, hclone⟩ := hs.proc
    refine ⟨[.run i (delivering none)], ?_⟩
    rw [runFrom_advance hget htodo]
    have hset : Stands st.cleanup n i .connectDrained (s.setProc i { p with stage := .connectDrained }) :=
      stands_setProc hs.conn hs.channels hget rfl htodo hclone
    simpa only [RelayClient.advance, hst] using hset.drain
  have hdrained : Leads (Stands st.cleanup n i .connectDrained)
      (Stands st.attempt n i (.dialing st.attempt.generation)) :=
    leads_goto (delivering none) fun s p hs hp => by
      simp only [RelayClient.advance, hp, hs]
      rfl
  exact (((hstart.trans hkeyed).trans hchecked).trans hcleared).trans hdrained

/-- A scheduled reconnect accounts, sleeps and connects again. -/
theorem leads_reconnect (hd : st.disposed = false) :
    Leads (Stands st n i .reconnectStart) (Stands st.account.1 n i .connectStart) := by
  have hstart : Leads (Stands st n i .reconnectStart) (Stands st n i .reconnectChecked) :=
    leads_goto (delivering none) fun s p hs hp => by
      simp only [RelayClient.advance, hp, hs, hd, Bool.false_eq_true, if_false]
      rw [← hs]
  have hchecked : Leads (Stands st n i .reconnectChecked)
      (Stands st.account.1 n i (.sleeping st.generation)) :=
    leads_goto (delivering none) fun s p hs hp => by simp only [RelayClient.advance, hp, hs]
  have hsleeping : Leads (Stands st.account.1 n i (.sleeping st.generation))
      (Stands st.account.1 n i .connectStart) :=
    leads_goto (delivering none) fun s p hs hp => by
      have hstale : st.account.1.stale st.generation = false := by
        simp [ConnState.stale, ConnState.account, hd]
      simp only [RelayClient.advance, hp, hs, hstale, Bool.false_eq_true, if_false]
      rw [← hs]
  exact (hstart.trans hchecked).trans hsleeping

/-- No connection is established, and the next attempt is about to start. -/
def Idle (st : ConnState) (n : ℕ) (s : RelayClient) : Prop := ∃ i, Stands st n i .connectStart s

/-- The read loop of the connection waits for a message. -/
def Live (st : ConnState) (n : ℕ) (s : RelayClient) : Prop :=
  ∃ i, Stands st n i (.reading st.generation) s

/-- Where a run leads from each place, it leads from any. -/
theorem leads_exists {before : ℕ → RelayClient → Prop} {after : RelayClient → Prop}
    (h : ∀ i, Leads (before i) after) : Leads (fun s => ∃ i, before i s) after :=
  fun s ⟨i, hs⟩ => h i s hs

/-- A task ends by scheduling a reconnect. -/
theorem leads_schedule (hd : st'.disposed = false) (env : Env)
    (h : ∀ (s : RelayClient) (p : Proc), s.conn = st → p.stage = stage →
      s.advance i p env =
        ({ s with conn := st' }.setProc i { p with stage := .finished }).spawn .reconnectStart) :
    Leads (Stands st n i stage) (Idle st'.account.1 n) := by
  intro s hs
  obtain ⟨p, hget, hst, htodo, hclone⟩ := hs.proc
  have hspawn : Stands st' n (s.procs.set i { p with stage := .finished }).length .reconnectStart
      (runFrom clientStep s [.run i env]) := by
    rw [runFrom_advance hget htodo, h s p hs.conn hst]
    have hc : ({ s with conn := st' }.setProc i { p with stage := .finished }).channels.length = n :=
      hs.channels
    exact stands_spawn rfl hc .reconnectStart
  obtain ⟨events, hend⟩ := leads_reconnect hd _ hspawn
  exact ⟨.run i env :: events, _, hend⟩

/-- An attempt fails. -/
theorem leads_failed (hd : st.disposed = false) :
    Leads (Idle st n) (Idle st.attempt.account.1 n) := by
  refine leads_exists fun i => (leads_connect hd).trans ?_
  refine leads_schedule hd ⟨false, none, 0⟩ fun s p hs hp => ?_
  simp only [RelayClient.advance, hp, Bool.false_eq_true, if_false]
  rw [← hs]

/-- A connection is closed. -/
theorem leads_closed (hd : st.disposed = false) :
    Leads (Live st n) (Idle ({ st with authenticated := false }).account.1 n) := by
  refine leads_exists fun i => ?_
  have hreading : Leads (Stands st n i (.reading st.generation))
      (Stands st n i (.received st.generation none)) :=
    leads_goto (delivering none) fun s p hs hp => by
      simp only [RelayClient.advance, hp]
      rw [← hs]
      rfl
  have hreceived : Leads (Stands st n i (.received st.generation none))
      (Stands st n i (.closing st.generation)) :=
    leads_goto (delivering none) fun s p hs hp => by
      simp only [RelayClient.advance, hp, hs, ne_eq, not_true_eq_false, if_false]
      rw [← hs]
  have hclosing : Leads (Stands st n i (.closing st.generation))
      (Idle ({ st with authenticated := false }).account.1 n) :=
    leads_schedule hd (delivering none) fun s p hs hp => by
      simp only [RelayClient.advance, hp, hs, ne_eq, not_true_eq_false, if_false]
  exact (hreading.trans hreceived).trans hclosing

/-- A task stands while another one goes on. -/
theorem leads_beside {r : ℕ} {stage'' : Stage} (hne : i ≠ r) (env : Env)
    (h : ∀ (s : RelayClient) (p : Proc), s.conn = st → p.stage = stage →
      ∃ tasks, s.advance i p env = { s with conn := st', tasks }.setProc i { p with stage := stage' }) :
    Leads (fun s => Stands st n i stage s ∧ Stands st n r stage'' s)
      (fun s => Stands st' n i stage' s ∧ Stands st' n r stage'' s) := by
  rintro s ⟨hs, hr⟩
  obtain ⟨p, hget, hst, htodo, hclone⟩ := hs.proc
  obtain ⟨q, hgetq, hq⟩ := hr.proc
  obtain ⟨tasks, hadv⟩ := h s p hs.conn hst
  refine ⟨[.run i env], ?_⟩
  rw [runFrom_advance hget htodo, hadv]
  refine ⟨stands_setProc rfl hs.channels hget rfl htodo hclone, rfl, hs.channels, q, ?_, hq⟩
  rw [RelayClient.setProc, List.getElem?_set_ne hne, hgetq]

/-- A connect installs its channel and starts its read loop. -/
theorem leads_install (g : ℕ) : Leads (Stands st n i (.rechecked g)) fun s => ∃ r, i ≠ r ∧
    Stands (st.install n) (n + 1) i (.installed n r) s ∧
    Stands (st.install n) (n + 1) r (.reading g) s := by
  intro s hs
  obtain ⟨p, hget, hst, htodo, hclone⟩ := hs.proc
  have hlt : i < s.procs.length := (List.getElem?_eq_some_iff.mp hget).1
  refine ⟨[.run i (delivering none)], s.procs.length, Nat.ne_of_lt hlt, ?_⟩
  rw [runFrom_advance hget htodo]
  simp only [RelayClient.advance, hst, hs.conn, hs.channels]
  have hlen : (s.channels ++ [Channel.new]).length = n + 1 := by
    rw [List.length_append, hs.channels, List.length_singleton]
  have hset : Stands (st.install n) (n + 1) i (.installed n s.procs.length)
      ({ s with conn := st.install n, channels := s.channels ++ [Channel.new] }.setProc i
        { p with stage := .installed n s.procs.length }) :=
    stands_setProc rfl hlen hget rfl htodo hclone
  refine ⟨hset.spawn _, ?_⟩
  have hnew := stands_spawn hset.conn hset.channels (.reading g)
  rw [RelayClient.setProc, List.length_set] at hnew
  exact hnew

/-- An attempt succeeds. -/
theorem leads_established (hd : st.disposed = false) :
    Leads (Idle st n) (Live { st.attempt.install n with reconnectAttempt := 0 } (n + 1)) := by
  refine leads_exists fun i => (leads_connect hd).trans ?_
  have hlive : st.attempt.stale st.attempt.generation = false := by
    simp [ConnState.stale, ConnState.attempt, ConnState.cleanup, ConnState.nextGeneration, hd]
  have hdialing : Leads (Stands st.attempt n i (.dialing st.attempt.generation))
      (Stands st.attempt n i (.dialed st.attempt.generation)) :=
    leads_goto (delivering none) fun s p hs hp => by
      simp only [RelayClient.advance, hp, delivering, if_true]
      rw [← hs]
  have hdialed : Leads (Stands st.attempt n i (.dialed st.attempt.generation))
      (Stands st.attempt n i (.rechecked st.attempt.generation)) :=
    leads_goto (delivering none) fun s p hs hp => by
      simp only [RelayClient.advance, hp, hs, hlive, Bool.false_eq_true, if_false]
      rw [← hs]
  refine ((hdialing.trans hdialed).trans (leads_install _)).trans fun s hs => ?_
  obtain ⟨r, hne, hpair⟩ := hs
  have hinstalled : Leads
      (fun s => Stands (st.attempt.install n) (n + 1) i (.installed n r) s ∧
        Stands (st.attempt.install n) (n + 1) r (.reading st.attempt.generation) s)
      (fun s => Stands (st.attempt.install n) (n + 1) i .registered s ∧
        Stands (st.attempt.install n) (n + 1) r (.reading st.attempt.generation) s) :=
    leads_beside hne (delivering none) fun s p hs hp =>
      ⟨s.tasks ++ [.writer n, .reader r], by simp only [RelayClient.advance, hp, hs]⟩
  have hregistered : Leads
      (fun s => Stands (st.attempt.install n) (n + 1) i .registered s ∧
        Stands (st.attempt.install n) (n + 1) r (.reading st.attempt.generation) s)
      (fun s => Stands { st.attempt.install n with reconnectAttempt := 0 } (n + 1) i .opened s ∧
        Stands { st.attempt.install n with reconnectAttempt := 0 } (n + 1) r
          (.reading st.attempt.generation) s) :=
    leads_beside hne (delivering none) fun s p hs hp =>
      ⟨s.tasks, by simp only [RelayClient.advance, hp, hs]⟩
  obtain ⟨events, hend⟩ := (hinstalled.trans hregistered) s hpair
  exact ⟨events, r, hend.2⟩

/-- A task with an action to perform first takes one step. -/
theorem runFrom_perform {p : Proc} {action : Action} {todo : List Action}
    (hget : s.procs[i]? = some p) (htodo : p.todo = action :: todo) (env : Env) :
    runFrom clientStep s [.run i env] = s.perform i p action todo := by
  simp only [runFrom_cons, runFrom_nil, clientStep, RelayClient.run, hget, htodo]

/-- An action that neither sends nor starts a task is one step. -/
theorem leads_perform {action : Action} {todo : List Action}
    (h : ∀ (s : RelayClient) (p : Proc), s.conn = st → ∃ hasPeers,
      s.perform i p action todo = { s with conn := st', hasPeers }.setProc i { p with todo }) :
    Leads (Performs st n i stage (action :: todo)) (Performs st' n i stage todo) := by
  intro s hs
  obtain ⟨p, hget, hst, htodo, hclone⟩ := hs.proc
  obtain ⟨hasPeers, hp⟩ := h s p hs.conn
  refine ⟨[.run i (delivering none)], ?_⟩
  rw [runFrom_perform hget htodo, hp]
  exact ⟨rfl, hs.channels, _,
    List.getElem?_set_self (List.getElem?_eq_some_iff.mp hget).1, hst, rfl, hclone⟩

/-- Sending takes a step to clone the sender and one to use it. -/
theorem leads_send (msg : Outgoing) (todo : List Action) :
    Leads (Performs st n i stage (.send msg :: todo)) (Performs st n i stage todo) := by
  intro s hs
  obtain ⟨p, hget, hst, htodo, hclone⟩ := hs.proc
  have hlt : i < s.procs.length := (List.getElem?_eq_some_iff.mp hget).1
  cases hws : s.conn.wsTx with
  | none =>
    refine ⟨[.run i (delivering none)], ?_⟩
    rw [runFrom_perform hget htodo]
    simp only [RelayClient.perform, RelayClient.sendStep, hclone, hws]
    exact ⟨hs.conn, hs.channels, _, List.getElem?_set_self hlt, hst, rfl, rfl⟩
  | some ch =>
    refine ⟨[.run i (delivering none), .run i (delivering none)], ?_⟩
    have hfirst : clientStep s (.run i (delivering none)) =
        s.setProc i { p with clone := some ch } := by
      simp only [clientStep, RelayClient.run, hget, htodo, RelayClient.perform,
        RelayClient.sendStep, hclone, hws]
    have hget' : (s.setProc i { p with clone := some ch }).procs[i]? =
        some { p with clone := some ch } := List.getElem?_set_self hlt
    rw [runFrom_cons, hfirst, runFrom_perform hget' htodo]
    simp only [RelayClient.perform, RelayClient.sendStep]
    refine ⟨hs.conn, ?_, _, List.getElem?_set_self (by simpa [RelayClient.setProc] using hlt),
      hst, rfl, rfl⟩
    rw [← hs.channels]
    exact List.length_modify _ _ _

/-- A frontend completes a key exchange. -/
theorem leads_keyExchange : Leads (Live st n) (Live st.keyExchanged n) := by
  refine leads_exists fun i => ?_
  have hreading : Leads (Stands st n i (.reading st.generation))
      (Stands st n i (.received st.generation (some (.keyExchange true)))) :=
    leads_goto (delivering (some (.keyExchange true))) fun s p hs hp => by
      simp only [RelayClient.advance, hp]
      rw [← hs]
      rfl
  have hreceived : Leads (Stands st n i (.received st.generation (some (.keyExchange true))))
      (Performs st n i (.reading st.generation) (Incoming.keyExchange true).actions) := by
    intro s hs
    obtain ⟨p, hget, hst, htodo, hclone⟩ := hs.proc
    refine ⟨[.run i (delivering none)], ?_⟩
    rw [runFrom_advance hget htodo]
    simp only [RelayClient.advance, hst, hs.conn, ne_eq, not_true_eq_false, if_false]
    exact ⟨hs.conn, hs.channels, _,
      List.getElem?_set_self (List.getElem?_eq_some_iff.mp hget).1, rfl, rfl, hclone⟩
  have hinsert : Leads
      (Performs st n i (.reading st.generation) [.insertPeer, .markPeer, .send .keyExchange])
      (Performs st n i (.reading st.generation) [.markPeer, .send .keyExchange]) :=
    leads_perform fun s p hs => ⟨_, by rw [← hs]; rfl⟩
  have hmark : Leads (Performs st n i (.reading st.generation) [.markPeer, .send .keyExchange])
      (Performs st.keyExchanged n i (.reading st.generation) [.send .keyExchange]) :=
    leads_perform fun s p hs => ⟨_, by rw [← hs]; rfl⟩
  have hsent : Leads (Performs st.keyExchanged n i (.reading st.generation) [.send .keyExchange])
      (Stands st.keyExchanged n i (.reading st.generation)) := leads_send _ _
  intro s hs
  obtain ⟨events, hend⟩ :=
    ((((hreading.trans hreceived).trans hinsert).trans hmark).trans hsent) s hs
  exact ⟨events, i, hend⟩

/-- A client is at the place that the events describe. -/
def Matches (l : Lifecycle) (s : RelayClient) : Prop :=
  if l.live then Live l.conn l.connections s else Idle l.conn l.connections s

/-- Nothing in the life of a client disposes of it. -/
theorem lifeStep_disposed {l : Lifecycle} (h : l.conn.disposed = false) (e : LifeEvent) :
    (lifeStep l e).conn.disposed = false := by
  cases e <;> simp only [lifeStep] <;> split <;> exact h

/-- Every event of a life is a run of the tasks of the client. -/
theorem leads_lifeStep {l : Lifecycle} (hd : l.conn.disposed = false) (e : LifeEvent) :
    Leads (Matches l) (Matches (lifeStep l e)) := by
  have hstay : Leads (Matches l) (Matches l) := fun s hs => ⟨[], hs⟩
  unfold Matches at *
  cases hl : l.live with
  | true =>
    cases e with
    | failed | established => simpa [lifeStep, hl] using hstay
    | keyExchange => simpa [lifeStep, hl] using leads_keyExchange
    | closed => simpa [lifeStep, hl] using leads_closed hd
  | false =>
    cases e with
    | keyExchange | closed => simpa [lifeStep, hl] using hstay
    | failed => simpa [lifeStep, hl] using leads_failed hd
    | established => simpa [lifeStep, hl] using leads_established hd

/-- Every life is a run of the client's tasks with the same state behind the
lock. -/
theorem exists_clientRun (events : List LifeEvent) : ∃ clientEvents,
    (runFrom clientStep RelayClient.new clientEvents).conn =
      (runFrom lifeStep Lifecycle.new events).conn := by
  have hrun : ∀ (events : List LifeEvent) l, l.conn.disposed = false →
      Leads (Matches l) (Matches (runFrom lifeStep l events)) := by
    intro events
    induction events with
    | nil => exact fun l _ s hs => ⟨[], hs⟩
    | cons e events ih =>
      exact fun l hd => (leads_lifeStep hd e).trans (ih _ (lifeStep_disposed hd e))
  have hstart : Matches Lifecycle.new (clientStep RelayClient.new .connect) :=
    ⟨0, rfl, rfl, _, rfl, rfl, rfl, rfl⟩
  obtain ⟨clientEvents, hend⟩ := hrun events _ rfl _ hstart
  refine ⟨.connect :: clientEvents, ?_⟩
  unfold Matches at hend
  split at hend
  · exact hend.choose_spec.conn
  · exact hend.choose_spec.conn

end Client

end Teleprompter.RelayConnection
