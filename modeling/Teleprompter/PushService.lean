import Teleprompter.FiniteDictionary
import Teleprompter.RelayServer
import Teleprompter.StepRuns

/-!
# The push service of the relay

A push goes out only when the frontend is not connected, no equal push was
delivered within the dedup window, and the budget of its daemon and frontend
is not used up. The guards are checked under a lock that is released while the
push gateway is asked; what was delivered is recorded under the lock again.
Times are epoch milliseconds, so a saturating subtraction is natural
subtraction. The answer of the gateway is an input of each request.
-/

namespace Teleprompter.PushService

open FiniteDictionary RelayServer StepRuns

/-- Outcome of one request. -/
inductive DeliveryResult where
  | ws
  | push
  | rateLimited
  | deduped
  | error
  | deadToken
  deriving DecidableEq

/-- Data required for one push-or-deliver decision. -/
structure PushRequest where
  /-- Frontend to notify. -/
  frontendId : String
  /-- Daemon that asks. -/
  daemonId : String
  /-- Device token in hexadecimal. -/
  token : String
  /-- Title of the notification. -/
  title : String
  /-- Body of the notification. -/
  body : String
  /-- The frontend's socket is connected. -/
  isFrontendConnected : Bool
  /-- Interruption level passed on to the gateway. -/
  interruptionLevel : Option String
  /-- Session and event of the notification. -/
  data : Option PushData
  deriving DecidableEq

/-- What the gateway is asked to deliver. -/
structure ApnsPayload where
  /-- Device token in hexadecimal. -/
  deviceToken : String
  /-- Title of the notification. -/
  title : String
  /-- Body of the notification. -/
  body : String
  /-- Interruption level. -/
  interruptionLevel : Option String
  /-- Navigation payload. -/
  data : Option (Dict String String)

/-- Answer of the gateway. -/
inductive ApnsDeliveryResult where
  | ok
  | err (deadToken : Bool) (reason : String)
  deriving DecidableEq

/-- The gateway as one request meets it. -/
abbrev Apns := ApnsPayload → ApnsDeliveryResult

/-- One rate-limit window. -/
structure RateLimitEntry where
  /-- Pushes delivered in the window. -/
  count : ℕ
  /-- When the window began. -/
  windowStart : ℕ
  deriving DecidableEq

/-- State behind the lock. -/
structure Inner where
  /-- Key of frontend, session and event to the time it was delivered. -/
  dedupSeen : Dict String ℕ
  /-- Key of daemon and frontend to its window. -/
  rateLimits : Dict String RateLimitEntry

/-- State of a new service. -/
def Inner.new : Inner := ⟨∅, ∅⟩

/-- Configuration of the service. -/
structure PushServiceConfig where
  /-- Most pushes in one window of a daemon and frontend. -/
  rateLimitPerMinute : ℕ
  /-- Window in which equal pushes are suppressed. -/
  dedupWindowMs : ℕ
  /-- Length of a rate-limit window. -/
  rateLimitWindowMs : ℕ
  /-- A gateway client is configured. -/
  hasApnsClient : Bool

/-- The defaults, with a gateway client. -/
def PushServiceConfig.standard : PushServiceConfig := ⟨5, 60000, 60000, true⟩

/-- Key of a request's budget. -/
def rateLimitKey (req : PushRequest) : String := req.daemonId ++ ":" ++ req.frontendId

/-- Key of a request's dedup entry; a request without data has none. -/
def dedupKey (req : PushRequest) : Option String :=
  req.data.map fun data => req.frontendId ++ ":" ++ data.sid ++ ":" ++ data.event

/-- Navigation payload for the gateway. -/
def apnsData (data : PushData) : Dict String String :=
  ((AList.insert "sid" data.sid (∅ : Dict String String)).insert "daemonId" data.daemonId).insert
    "event" data.event

/-- What the gateway is asked for a request. -/
def apnsPayload (req : PushRequest) : ApnsPayload :=
  ⟨req.token, req.title, req.body, req.interruptionLevel, req.data.map apnsData⟩

/-- The dedup entry that a request meets. -/
def seenOf (inner : Inner) (req : PushRequest) : Option ℕ :=
  (dedupKey req).bind fun key => inner.dedupSeen.lookup key

section Operations

variable (cfg : PushServiceConfig)

/-- A dedup entry is still within its window. -/
def seenWithin (now : ℕ) (seenAt : ℕ) : Bool := now - seenAt < cfg.dedupWindowMs

/-- A rate-limit window is over. -/
def expired (now : ℕ) (entry : RateLimitEntry) : Bool :=
  cfg.rateLimitWindowMs ≤ now - entry.windowStart

/-- A window that is over becomes a fresh one. -/
def resetExpired (now : ℕ) (entry : RateLimitEntry) : RateLimitEntry :=
  if expired cfg now entry then ⟨0, now⟩ else entry

/-- The guard phase under the lock. It returns a result, or none when the
gateway is to be asked. -/
def guardPhase (inner : Inner) (req : PushRequest) (now : ℕ) : Inner × Option DeliveryResult :=
  if (seenOf inner req).any (seenWithin cfg now) then
    (inner, some .deduped)
  else
    let rateLimits := alterKey (rateLimitKey req) (resetExpired cfg now) inner.rateLimits
    if (rateLimits.lookup (rateLimitKey req)).any fun entry => cfg.rateLimitPerMinute ≤ entry.count then
      ({ inner with rateLimits := rateLimits }, some .rateLimited)
    else if cfg.hasApnsClient then ({ inner with rateLimits := rateLimits }, none)
    else ({ inner with rateLimits := rateLimits }, some .error)

/-- The commit phase under the lock, with the time of the guard phase. -/
def commitPhase (inner : Inner) (req : PushRequest) (now : ℕ) : Inner where
  dedupSeen :=
    match dedupKey req with
    | some key => inner.dedupSeen.insert key now
    | none => inner.dedupSeen
  rateLimits := alterKey (rateLimitKey req) (fun entry => { entry with count := entry.count + 1 })
    (orInsert (rateLimitKey req) ⟨0, now⟩ inner.rateLimits)

/-- One request from its start to its result, when nothing runs in between. -/
def sendOrDeliver (inner : Inner) (req : PushRequest) (now : ℕ) (apns : Apns) :
    Inner × DeliveryResult :=
  if req.isFrontendConnected then (inner, .ws)
  else
    match guardPhase cfg inner req now with
    | (guarded, some result) => (guarded, result)
    | (guarded, none) =>
      match apns (apnsPayload req) with
      | .err true _ => (guarded, .deadToken)
      | .err false _ => (guarded, .error)
      | .ok => (commitPhase guarded req now, .push)

/-- One cleanup pass: entries whose window is over are dropped. -/
def runCleanup (inner : Inner) (now : ℕ) : Inner where
  dedupSeen := retain (fun _ seenAt => seenWithin cfg now seenAt) inner.dedupSeen
  rateLimits := retain (fun _ entry => !expired cfg now entry) inner.rateLimits

end Operations

section Views

variable (cfg : PushServiceConfig)

/-- The rate-limit window that a request meets. -/
def entryOf (inner : Inner) (req : PushRequest) : Option RateLimitEntry :=
  inner.rateLimits.lookup (rateLimitKey req)

/-- The result of a request that the gateway was asked about. -/
def resultOfAnswer : ApnsDeliveryResult → DeliveryResult
  | .err true _ => .deadToken
  | .err false _ => .error
  | .ok => .push

/-- The result of a request from the two entries it meets. -/
def verdict (req : PushRequest) (now : ℕ) (apns : Apns) (seen : Option ℕ)
    (entry : Option RateLimitEntry) : DeliveryResult :=
  if req.isFrontendConnected then .ws
  else if seen.any (seenWithin cfg now) then .deduped
  else if (entry.map (resetExpired cfg now)).any fun e => cfg.rateLimitPerMinute ≤ e.count then
    .rateLimited
  else if cfg.hasApnsClient then resultOfAnswer (apns (apnsPayload req))
  else .error

/-- The state after the guard phase has reset a window that is over. -/
def afterReset (inner : Inner) (req : PushRequest) (now : ℕ) : Inner :=
  { inner with rateLimits := alterKey (rateLimitKey req) (resetExpired cfg now) inner.rateLimits }

/-- The state after a request with this result. -/
def stateAfter (inner : Inner) (req : PushRequest) (now : ℕ) : DeliveryResult → Inner
  | .ws => inner
  | .deduped => inner
  | .push => commitPhase (afterReset cfg inner req now) req now
  | _ => afterReset cfg inner req now

/-- The rate-limit window after a request with this result. -/
def entryAfter (now : ℕ) (entry : Option RateLimitEntry) : DeliveryResult → Option RateLimitEntry
  | .ws => entry
  | .deduped => entry
  | .push =>
    let current := (entry.map (resetExpired cfg now)).getD ⟨0, now⟩
    some { current with count := current.count + 1 }
  | _ => entry.map (resetExpired cfg now)

/-- A request gives the result of the entries it meets, and that result says
what it leaves behind. -/
theorem sendOrDeliver_eq (inner : Inner) (req : PushRequest) (now : ℕ) (apns : Apns) :
    sendOrDeliver cfg inner req now apns =
      (stateAfter cfg inner req now (verdict cfg req now apns (seenOf inner req) (entryOf inner req)),
        verdict cfg req now apns (seenOf inner req) (entryOf inner req)) := by
  have hentry : (alterKey (rateLimitKey req) (resetExpired cfg now) inner.rateLimits).lookup
      (rateLimitKey req) = (entryOf inner req).map (resetExpired cfg now) := by
    rw [lookup_alterKey, if_pos rfl, entryOf]
  unfold sendOrDeliver guardPhase verdict
  dsimp only
  rw [hentry]
  by_cases hws : req.isFrontendConnected = true
  · rw [if_pos hws, if_pos hws]
    rfl
  rw [if_neg hws, if_neg hws]
  by_cases hseen : (seenOf inner req).any (seenWithin cfg now) = true
  · rw [if_pos hseen, if_pos hseen]
    rfl
  rw [if_neg hseen, if_neg hseen]
  by_cases hlimit : (((entryOf inner req).map (resetExpired cfg now)).any fun e =>
      decide (cfg.rateLimitPerMinute ≤ e.count)) = true
  · rw [if_pos hlimit, if_pos hlimit]
    rfl
  rw [if_neg hlimit, if_neg hlimit]
  by_cases hclient : cfg.hasApnsClient = true
  · rw [if_pos hclient, if_pos hclient]
    dsimp only
    cases apns (apnsPayload req) with
    | ok => rfl
    | err deadToken reason =>
      cases deadToken with
      | true => rfl
      | false => rfl
  · rw [if_neg hclient, if_neg hclient]
    rfl

/-- A dedup entry is written by a delivered push of its key and by nothing else. -/
theorem dedupSeen_stateAfter (inner : Inner) (req : PushRequest) (now : ℕ) (result : DeliveryResult)
    (key : String) :
    (stateAfter cfg inner req now result).dedupSeen.lookup key =
      if result = .push ∧ dedupKey req = some key then some now else inner.dedupSeen.lookup key := by
  cases result with
  | push =>
    simp only [stateAfter, commitPhase, afterReset, true_and]
    cases hkey : dedupKey req with
    | none => rfl
    | some own =>
      dsimp only
      rw [lookup_insert_eq]
      simp only [Option.some_inj, eq_comm]
  | ws | deduped | rateLimited | error | deadToken => rfl

/-- A request changes the window of its own key only. -/
theorem rateLimits_stateAfter (inner : Inner) (req : PushRequest) (now : ℕ)
    (result : DeliveryResult) (key : String) :
    (stateAfter cfg inner req now result).rateLimits.lookup key =
      if key = rateLimitKey req then entryAfter cfg now (entryOf inner req) result
      else inner.rateLimits.lookup key := by
  have hreset : (afterReset cfg inner req now).rateLimits.lookup key =
      if key = rateLimitKey req then (entryOf inner req).map (resetExpired cfg now)
      else inner.rateLimits.lookup key := by
    rw [afterReset, lookup_alterKey]
    split
    · next heq => rw [heq, entryOf]
    · rfl
  have hsame : inner.rateLimits.lookup key =
      if key = rateLimitKey req then entryOf inner req else inner.rateLimits.lookup key := by
    split
    · next heq => rw [heq, entryOf]
    · rfl
  cases result with
  | ws | deduped => exact hsame
  | rateLimited | error | deadToken => exact hreset
  | push =>
    simp only [stateAfter, commitPhase, entryAfter]
    rw [lookup_alterKey, lookup_orInsert]
    by_cases heq : key = rateLimitKey req
    · rw [heq, if_pos rfl] at hreset
      rw [if_pos heq, if_pos heq, if_pos heq, hreset]
      rfl
    · rw [if_neg heq] at hreset
      rw [if_neg heq, if_neg heq, if_neg heq, hreset]

/-- A cleanup drops the dedup entries whose window is over. -/
theorem dedupSeen_runCleanup (inner : Inner) (now : ℕ) (key : String) :
    (runCleanup cfg inner now).dedupSeen.lookup key =
      (inner.dedupSeen.lookup key).filter (seenWithin cfg now) :=
  lookup_retain _ _ _

/-- A cleanup drops the rate-limit windows that are over. -/
theorem rateLimits_runCleanup (inner : Inner) (now : ℕ) (key : String) :
    (runCleanup cfg inner now).rateLimits.lookup key =
      (inner.rateLimits.lookup key).filter fun entry => !expired cfg now entry :=
  lookup_retain _ _ _

end Views

section Runs

variable (cfg : PushServiceConfig)

/-- A request with its clock reading and its gateway, or a cleanup. -/
inductive PushOp where
  | request (req : PushRequest) (now : ℕ) (apns : Apns)
  | cleanup (now : ℕ)

/-- The clock reading of an operation. -/
def PushOp.time : PushOp → ℕ
  | .request _ now _ => now
  | .cleanup now => now

/-- The state after an operation. -/
def nextInner (inner : Inner) : PushOp → Inner
  | .request req now apns => (sendOrDeliver cfg inner req now apns).1
  | .cleanup now => runCleanup cfg inner now

/-- The result of an operation; a cleanup has none. -/
def resultOf (inner : Inner) : PushOp → Option DeliveryResult
  | .request req now apns => some (sendOrDeliver cfg inner req now apns).2
  | .cleanup _ => none

/-- An operation of a run, and whether the shorter run has it too. -/
structure Marked where
  /-- The operation. -/
  op : PushOp
  /-- It is part of both runs. -/
  kept : Bool

/-- Results of the common operations when all operations run. -/
def fullResults : Inner → List Marked → List (Option DeliveryResult)
  | _, [] => []
  | inner, m :: ms =>
    if m.kept then resultOf cfg inner m.op :: fullResults (nextInner cfg inner m.op) ms
    else fullResults (nextInner cfg inner m.op) ms

/-- Results of the common operations when only they run. -/
def thinResults : Inner → List Marked → List (Option DeliveryResult)
  | _, [] => []
  | inner, m :: ms =>
    if m.kept then resultOf cfg inner m.op :: thinResults (nextInner cfg inner m.op) ms
    else thinResults inner ms

/-- The two runs side by side, with the last clock reading. -/
structure TwoRuns where
  /-- State of the run with all operations. -/
  full : Inner
  /-- State of the run with the common ones. -/
  thin : Inner
  /-- The last clock reading. -/
  clock : ℕ

/-- Two runs of new services. -/
def TwoRuns.new : TwoRuns := ⟨.new, .new, 0⟩

/-- One operation of the full run. -/
def TwoRuns.step (p : TwoRuns) (m : Marked) : TwoRuns where
  full := nextInner cfg p.full m.op
  thin := if m.kept then nextInner cfg p.thin m.op else p.thin
  clock := m.op.time

/-- Two runs agree when a relation between their states is kept by every
operation and gives the common operations the same result. -/
theorem results_agree {rel : TwoRuns → Prop} {cond : TwoRuns → Marked → Prop}
    (hstep : ∀ p m, rel p → cond p m → rel (p.step cfg m))
    (hresult : ∀ p m, rel p → cond p m → m.kept = true →
      resultOf cfg p.full m.op = resultOf cfg p.thin m.op)
    {p : TwoRuns} (hp : rel p) {ms : List Marked} (hm : Meets (TwoRuns.step cfg) cond p ms) :
    fullResults cfg p.full ms = thinResults cfg p.thin ms := by
  induction ms generalizing p with
  | nil => rfl
  | cons m ms ih =>
    have hrest := ih (hstep p m hp hm.1) hm.2
    rw [fullResults, thinResults]
    by_cases hkept : m.kept = true
    · rw [if_pos hkept, if_pos hkept, hresult p m hp hm.1 hkept]
      simp only [TwoRuns.step, hkept, if_true] at hrest
      rw [hrest]
    · rw [if_neg hkept, if_neg hkept]
      simp only [TwoRuns.step, hkept] at hrest
      exact hrest

end Runs

end Teleprompter.PushService
