import Teleprompter.FixedWindows
import Teleprompter.PushService

/-!
# What the push service lets through

Equal notices are delivered a dedup window apart, whatever was cleaned up in
between. Deliveries of a daemon and frontend are counted in windows that open
lazily, are recorded with the first delivery in them and forgotten by cleanups.
A window without a record is not looked at before its first delivery, so a limit
of zero lets that one through.
-/

namespace Teleprompter.PushBudgets

open FiniteDictionary RelayServer StepRuns FixedWindows PushService

/-- A service and the requests that it delivered so far, with their times. -/
structure Delivered where
  /-- State behind the lock. -/
  inner : Inner
  /-- Requests that returned `push`, in order. -/
  sent : List (PushRequest × ℕ)

/-- What an operation delivers. -/
def sentBy (cfg : PushServiceConfig) (inner : Inner) : PushOp → List (PushRequest × ℕ)
  | .request req now apns => if (sendOrDeliver cfg inner req now apns).2 = .push then [(req, now)] else []
  | .cleanup _ => []

/-- One operation, with what it delivers. -/
def Delivered.step (cfg : PushServiceConfig) (d : Delivered) (op : PushOp) : Delivered :=
  ⟨nextInner cfg d.inner op, d.sent ++ sentBy cfg d.inner op⟩

/-- The operations from a state on. -/
def deliveredFrom (cfg : PushServiceConfig) (inner : Inner) (ops : List PushOp) : Delivered :=
  runFrom (Delivered.step cfg) ⟨inner, []⟩ ops

/-- The notices have the same frontend, session and event. -/
def SameNotice (req req' : PushRequest) : Prop :=
  req.frontendId = req'.frontendId ∧ ∃ data data', req.data = some data ∧ req'.data = some data' ∧
    data.sid = data'.sid ∧ data.event = data'.event

/-- The delivery is one of a daemon and frontend. -/
def ofPair (daemonId frontendId : String) (p : PushRequest × ℕ) : Bool :=
  p.1.daemonId = daemonId ∧ p.1.frontendId = frontendId

/-- Key of the budget of a daemon and frontend. -/
def pairKey (daemonId frontendId : String) : String := daemonId ++ ":" ++ frontendId

/-- The request gets past the socket and the dedup check. -/
def ReachesBudget (cfg : PushServiceConfig) (inner : Inner) (req : PushRequest) (now : ℕ) : Prop :=
  req.isFrontendConnected = false ∧ (seenOf inner req).any (seenWithin cfg now) = false

/-- The operation resets the window of a key that is over, or records one where
none is recorded. -/
def BeginsWindow (cfg : PushServiceConfig) (key : String) (inner : Inner) : PushOp → Prop
  | .request req now apns => rateLimitKey req = key ∧
    match entryOf inner req with
    | some entry => ReachesBudget cfg inner req now ∧ expired cfg now entry = true
    | none => (sendOrDeliver cfg inner req now apns).2 = .push
  | .cleanup _ => False

/-- The request meets no window of its key, and nothing else stops it. -/
def Unrecorded (cfg : PushServiceConfig) (inner : Inner) : PushOp → Prop
  | .request req now apns => ReachesBudget cfg inner req now ∧ entryOf inner req = none ∧
    cfg.hasApnsClient = true ∧ apns (apnsPayload req) = .ok
  | .cleanup _ => False

/-- The bounds on what a run of operations delivers. -/
structure Bounded (cfg : PushServiceConfig) (ops : List PushOp) : Prop where
  /-- Equal notices are a dedup window apart. -/
  apart : (deliveredFrom cfg .new ops).sent.Pairwise fun p q =>
    SameNotice p.1 q.1 → p.2 + cfg.dedupWindowMs ≤ q.2
  /-- In any interval of the length of a window there are at most two budgets of deliveries. -/
  perInterval : ∀ daemonId frontendId start,
    ((deliveredFrom cfg .new ops).sent.countP fun p => ofPair daemonId frontendId p ∧ start ≤ p.2 ∧
      p.2 < start + cfg.rateLimitWindowMs) ≤ 2 * cfg.rateLimitPerMinute
  /-- The end of the interval may belong to it, unless windows have no length. -/
  perClosedInterval : 0 < cfg.rateLimitWindowMs → ∀ daemonId frontendId start,
    ((deliveredFrom cfg .new ops).sent.countP fun p => ofPair daemonId frontendId p ∧ start ≤ p.2 ∧
      p.2 ≤ start + cfg.rateLimitWindowMs) ≤ 2 * cfg.rateLimitPerMinute
  /-- From one operation until a window begins, there is at most one budget of deliveries. -/
  perWindow : ∀ daemonId frontendId before op rest after, ops = before ++ op :: rest ++ after →
    Meets (nextInner cfg) (fun inner op' => ¬BeginsWindow cfg (pairKey daemonId frontendId) inner op')
      (runFrom (nextInner cfg) .new (before ++ [op])) rest →
    ((deliveredFrom cfg (runFrom (nextInner cfg) .new before) (op :: rest)).sent.countP
      (ofPair daemonId frontendId)) ≤ cfg.rateLimitPerMinute

variable {cfg : PushServiceConfig}

section Steps

/-- A request is delivered when every guard lets it through and the gateway accepts it. -/
theorem verdict_eq_push_iff {req : PushRequest} {now : ℕ} {apns : Apns} {seen : Option ℕ}
    {entry : Option RateLimitEntry} : verdict cfg req now apns seen entry = .push ↔
      req.isFrontendConnected = false ∧ seen.any (seenWithin cfg now) = false ∧
      (∀ e, entry.map (resetExpired cfg now) = some e → e.count < cfg.rateLimitPerMinute) ∧
      cfg.hasApnsClient = true ∧ apns (apnsPayload req) = .ok := by
  have hroom : (∀ e, entry.map (resetExpired cfg now) = some e → e.count < cfg.rateLimitPerMinute) ↔
      ((entry.map (resetExpired cfg now)).any fun e => cfg.rateLimitPerMinute ≤ e.count) = false := by
    cases entry.map (resetExpired cfg now) with
    | none => simp
    | some e => simp
  have hanswer : resultOfAnswer (apns (apnsPayload req)) = .push ↔ apns (apnsPayload req) = .ok := by
    cases apns (apnsPayload req) with
    | ok => simp [resultOfAnswer]
    | err deadToken reason => cases deadToken <;> simp [resultOfAnswer]
  rw [hroom, ← hanswer, verdict]
  cases req.isFrontendConnected with
  | true => simp
  | false =>
    cases seen.any (seenWithin cfg now) with
    | true => simp
    | false =>
      cases (entry.map (resetExpired cfg now)).any fun e => cfg.rateLimitPerMinute ≤ e.count with
      | true => simp
      | false => cases cfg.hasApnsClient <;> simp

/-- A request that is neither connected nor deduplicated reaches its budget. -/
theorem reachesBudget_of_verdict {inner : Inner} {req : PushRequest} {now : ℕ} {apns : Apns}
    {entry : Option RateLimitEntry} (hws : verdict cfg req now apns (seenOf inner req) entry ≠ .ws)
    (hdeduped : verdict cfg req now apns (seenOf inner req) entry ≠ .deduped) :
    ReachesBudget cfg inner req now := by
  have hconnected : ¬req.isFrontendConnected = true := fun hconnected => by
    rw [verdict, if_pos hconnected] at hws
    exact hws rfl
  refine ⟨Bool.eq_false_iff.mpr hconnected, Bool.eq_false_iff.mpr fun hseen => ?_⟩
  rw [verdict, if_neg hconnected, if_pos hseen] at hdeduped
  exact hdeduped rfl

/-- A request is delivered by the entries it meets. -/
theorem sentBy_request (inner : Inner) (req : PushRequest) (now : ℕ) (apns : Apns) :
    sentBy cfg inner (.request req now apns) =
      if verdict cfg req now apns (seenOf inner req) (entryOf inner req) = .push then [(req, now)]
      else [] := by
  rw [sentBy, sendOrDeliver_eq]

/-- A request changes the window of its own key. -/
theorem rateLimits_request (d : Delivered) (req : PushRequest) (now : ℕ) (apns : Apns)
    (key : String) : (d.step cfg (.request req now apns)).inner.rateLimits.lookup key =
      if key = rateLimitKey req then entryAfter cfg now (entryOf d.inner req)
        (verdict cfg req now apns (seenOf d.inner req) (entryOf d.inner req))
      else d.inner.rateLimits.lookup key := by
  rw [Delivered.step, nextInner, sendOrDeliver_eq]
  exact rateLimits_stateAfter cfg d.inner req now _ key

/-- A cleanup drops the windows that are over. -/
theorem rateLimits_cleanup (d : Delivered) (now : ℕ) (key : String) :
    (d.step cfg (.cleanup now)).inner.rateLimits.lookup key =
      (d.inner.rateLimits.lookup key).filter fun entry => !expired cfg now entry :=
  rateLimits_runCleanup cfg d.inner now key

theorem sent_cleanup (d : Delivered) (now : ℕ) : (d.step cfg (.cleanup now)).sent = d.sent :=
  List.append_nil _

theorem meets_step_iff (cond : Inner → PushOp → Prop) {d : Delivered} {ops : List PushOp} :
    Meets (Delivered.step cfg) (fun d op => cond d.inner op) d ops ↔
      Meets (nextInner cfg) cond d.inner ops := by
  induction ops generalizing d with
  | nil => exact Iff.rfl
  | cons op ops ih => exact and_congr_right fun _ => ih

/-- A property of the deliveries that each operation keeps, at a time that no
earlier one is after, holds at the end of a run. -/
theorem deliveredFrom_induction {inv : ℕ → Delivered → Prop} {inner : Inner}
    (hlater : ∀ clock now d, inv clock d → clock ≤ now → inv now d)
    (hstep : ∀ d op, inv op.time d → inv op.time (d.step cfg op)) (hnew : inv 0 ⟨inner, []⟩)
    {ops : List PushOp} (hclock : (ops.map PushOp.time).Pairwise (· ≤ ·)) {clock : ℕ}
    (hops : ∀ op ∈ ops, op.time ≤ clock) : inv clock (deliveredFrom cfg inner ops) := by
  induction ops using List.reverseRecOn generalizing clock with
  | nil => exact hlater 0 clock _ hnew (Nat.zero_le clock)
  | append_singleton before op ih =>
    rw [List.map_append, List.pairwise_append] at hclock
    have hbefore := ih hclock.1 fun op' hop' =>
      hclock.2.2 op'.time (List.mem_map_of_mem hop') op.time List.mem_cons_self
    rw [deliveredFrom, runFrom_append]
    exact hlater op.time clock _ (hstep _ op hbefore)
      (hops op (List.mem_append.mpr (.inr List.mem_cons_self)))

end Steps

section Notices

/-- Every delivered notice is on record, or a dedup window ago. -/
structure Noticed (cfg : PushServiceConfig) (clock : ℕ) (d : Delivered) : Prop where
  /-- Deliveries of one notice are a window apart. -/
  apart : d.sent.Pairwise fun p q => SameNotice p.1 q.1 → p.2 + cfg.dedupWindowMs ≤ q.2
  /-- What was delivered is remembered for a window. -/
  recorded : ∀ p ∈ d.sent, ∀ key, dedupKey p.1 = some key →
    (∃ seenAt, d.inner.dedupSeen.lookup key = some seenAt ∧ p.2 ≤ seenAt) ∨
      p.2 + cfg.dedupWindowMs ≤ clock
  /-- Nothing is remembered of the future. -/
  past : ∀ key seenAt, d.inner.dedupSeen.lookup key = some seenAt → seenAt ≤ clock

variable {clock now : ℕ} {d : Delivered}

theorem SameNotice.dedupKey_eq {req req' : PushRequest} (h : SameNotice req req') :
    ∃ key, dedupKey req = some key ∧ dedupKey req' = some key := by
  obtain ⟨hfrontend, data, data', hdata, hdata', hsid, hevent⟩ := h
  refine ⟨req.frontendId ++ ":" ++ data.sid ++ ":" ++ data.event, ?_, ?_⟩
  · rw [dedupKey, hdata, Option.map_some]
  · rw [dedupKey, hdata', Option.map_some, hfrontend, hsid, hevent]

theorem Noticed.later (h : Noticed cfg clock d) (hle : clock ≤ now) : Noticed cfg now d where
  apart := h.apart
  recorded p hp key hkey := (h.recorded p hp key hkey).imp_right fun hover => hover.trans hle
  past key seenAt hseen := (h.past key seenAt hseen).trans hle

/-- A notice that passes the dedup check comes a dedup window after every equal one. -/
theorem Noticed.apart_of_passes (h : Noticed cfg now d) {req : PushRequest}
    (hpass : (seenOf d.inner req).any (seenWithin cfg now) = false) {key : String}
    (hreq : dedupKey req = some key) {p : PushRequest × ℕ} (hp : p ∈ d.sent)
    (hkey : dedupKey p.1 = some key) : p.2 + cfg.dedupWindowMs ≤ now := by
  rcases h.recorded p hp key hkey with ⟨seenAt, hseen, hle⟩ | hover
  · have hpast := h.past key seenAt hseen
    rw [seenOf, hreq, Option.bind_some, hseen, Option.any_some, seenWithin,
      decide_eq_false_iff_not] at hpass
    omega
  · exact hover

/-- A delivered request is recorded under its notice. -/
theorem Noticed.request (req : PushRequest) (apns : Apns) (h : Noticed cfg now d) :
    Noticed cfg now (d.step cfg (.request req now apns)) := by
  have hinner : (d.step cfg (.request req now apns)).inner = stateAfter cfg d.inner req now
      (verdict cfg req now apns (seenOf d.inner req) (entryOf d.inner req)) := by
    rw [Delivered.step, nextInner, sendOrDeliver_eq]
  have hsent : (d.step cfg (.request req now apns)).sent = d.sent ++
      sentBy cfg d.inner (.request req now apns) := rfl
  rw [sentBy_request] at hsent
  by_cases hpush : verdict cfg req now apns (seenOf d.inner req) (entryOf d.inner req) = .push
  · have hpass := (verdict_eq_push_iff.mp hpush).2.1
    rw [hpush] at hinner
    rw [if_pos hpush] at hsent
    refine ⟨?_, ?_, ?_⟩
    · rw [hsent, List.pairwise_append]
      refine ⟨h.apart, List.pairwise_singleton _ _, ?_⟩
      intro p hp q hq hsame
      rw [List.mem_singleton.mp hq] at hsame ⊢
      obtain ⟨key, hkey, hreq⟩ := hsame.dedupKey_eq
      exact h.apart_of_passes hpass hreq hp hkey
    · intro p hp key hkey
      rw [hinner, dedupSeen_stateAfter]
      rw [hsent, List.mem_append, List.mem_singleton] at hp
      rcases hp with hp | rfl
      · by_cases hreq : dedupKey req = some key
        · exact .inr (h.apart_of_passes hpass hreq hp hkey)
        · rw [if_neg fun hboth => hreq hboth.2]
          exact h.recorded p hp key hkey
      · exact .inl ⟨now, if_pos ⟨rfl, hkey⟩, le_rfl⟩
    · intro key seenAt hseen
      rw [hinner, dedupSeen_stateAfter] at hseen
      split at hseen
      · exact (Option.some_inj.mp hseen).ge
      · exact h.past key seenAt hseen
  · rw [if_neg hpush, List.append_nil] at hsent
    have hsame : ∀ key, (d.step cfg (.request req now apns)).inner.dedupSeen.lookup key =
        d.inner.dedupSeen.lookup key := by
      intro key
      rw [hinner, dedupSeen_stateAfter, if_neg fun hboth => hpush hboth.1]
    refine ⟨hsent ▸ h.apart, ?_, ?_⟩
    · intro p hp key hkey
      rw [hsame]
      exact h.recorded p (hsent ▸ hp) key hkey
    · intro key seenAt hseen
      exact h.past key seenAt (hsame key ▸ hseen)

/-- A cleanup forgets notices that are a dedup window ago. -/
theorem Noticed.cleanup (h : Noticed cfg now d) : Noticed cfg now (d.step cfg (.cleanup now)) := by
  have hsent : (d.step cfg (.cleanup now)).sent = d.sent := List.append_nil _
  have hinner : (d.step cfg (.cleanup now)).inner = runCleanup cfg d.inner now := rfl
  refine ⟨hsent ▸ h.apart, ?_, ?_⟩
  · intro p hp key hkey
    rw [hinner, dedupSeen_runCleanup]
    rcases h.recorded p (hsent ▸ hp) key hkey with ⟨seenAt, hseen, hle⟩ | hover
    · by_cases hwithin : seenWithin cfg now seenAt = true
      · exact .inl ⟨seenAt, by rw [hseen, Option.filter_some, if_pos hwithin], hle⟩
      · have hpast := h.past key seenAt hseen
        rw [seenWithin, decide_eq_true_eq] at hwithin
        exact .inr (by omega)
    · exact .inr hover
  · intro key seenAt hseen
    rw [hinner, dedupSeen_runCleanup] at hseen
    exact h.past key seenAt (Option.eq_some_of_filter_eq_some hseen)

theorem Noticed.step (d : Delivered) (op : PushOp) (h : Noticed cfg op.time d) :
    Noticed cfg op.time (d.step cfg op) := by
  cases op with
  | request req now apns => exact h.request req apns
  | cleanup now => exact h.cleanup

end Notices

section Budgets

/-- The start and the count of a window on record. -/
def view (entry : RateLimitEntry) : ℕ × ℕ := (entry.windowStart, entry.count)

/-- When requests of a key were delivered. -/
def timesOf (key : String) (sent : List (PushRequest × ℕ)) : List ℕ :=
  (sent.filter fun p => rateLimitKey p.1 = key).map Prod.snd

theorem timesOf_singleton (key : String) (p : PushRequest × ℕ) :
    timesOf key [p] = if rateLimitKey p.1 = key then [p.2] else [] := by
  rw [timesOf, List.filter_singleton]
  split
  · rename_i hkey
    rw [decide_eq_true hkey]
    rfl
  · rename_i hkey
    rw [decide_eq_false hkey]
    rfl

theorem timesOf_append (key : String) (sent sent' : List (PushRequest × ℕ)) :
    timesOf key (sent ++ sent') = timesOf key sent ++ timesOf key sent' := by
  rw [timesOf, List.filter_append, List.map_append]
  rfl

/-- A request that is delivered is a delivery of its own key. -/
theorem timesOf_sentBy (inner : Inner) (req : PushRequest) (now : ℕ) (apns : Apns) (key : String) :
    timesOf key (sentBy cfg inner (.request req now apns)) =
      if key = rateLimitKey req then
        if verdict cfg req now apns (seenOf inner req) (entryOf inner req) = .push then [now] else []
      else [] := by
  rw [sentBy_request]
  by_cases hown : key = rateLimitKey req
  · rw [if_pos hown]
    split
    · rw [timesOf_singleton, if_pos hown.symm]
    · rfl
  · rw [if_neg hown]
    split
    · rw [timesOf_singleton, if_neg fun hkey => hown hkey.symm]
    · rfl

/-- The windows on record account for the deliveries of their keys. -/
def Accounted (cfg : PushServiceConfig) (clock : ℕ) (d : Delivered) : Prop :=
  ∀ key, Accounts cfg.rateLimitWindowMs cfg.rateLimitPerMinute clock
    ((d.inner.rateLimits.lookup key).map view) (timesOf key d.sent)

variable {now : ℕ} {d : Delivered} {times : List ℕ} {entry : Option RateLimitEntry}

theorem map_view_reset (now : ℕ) (entry : Option RateLimitEntry) :
    (entry.map (resetExpired cfg now)).map view =
      (entry.map view).map (restart cfg.rateLimitWindowMs now) := by
  rw [Option.map_map, Option.map_map]
  refine congrArg (Option.map · entry) (funext fun e => ?_)
  rw [Function.comp_apply, Function.comp_apply, resetExpired, restart, expired, view]
  split
  · rename_i hover
    exact (if_pos (of_decide_eq_true hover)).symm
  · rename_i hlive
    exact (if_neg fun hover => hlive (decide_eq_true hover)).symm

/-- After the reset a window is open. -/
theorem open_of_reset {e : RateLimitEntry} (h : entry.map (resetExpired cfg now) = some e) :
    now = e.windowStart ∨ now < e.windowStart + cfg.rateLimitWindowMs := by
  obtain ⟨e', -, rfl⟩ := Option.map_eq_some_iff.mp h
  rw [resetExpired]
  split
  · exact .inl rfl
  · rename_i hlive
    rw [expired, decide_eq_true_eq] at hlive
    exact .inr (by omega)

/-- The window of a key after a request of it, when the budget is positive. -/
theorem accounts_entryAfter (hlimit : 0 < cfg.rateLimitPerMinute)
    (h : Accounts cfg.rateLimitWindowMs cfg.rateLimitPerMinute now (entry.map view) times)
    (result : DeliveryResult) (hroom : result = .push → ∀ e,
      entry.map (resetExpired cfg now) = some e → e.count < cfg.rateLimitPerMinute) :
    Accounts cfg.rateLimitWindowMs cfg.rateLimitPerMinute now
      ((entryAfter cfg now entry result).map view)
      (times ++ if result = .push then [now] else []) := by
  have hreset := h.restart
  rw [← map_view_reset] at hreset
  cases result with
  | ws | deduped => exact (List.append_nil times).symm ▸ h
  | rateLimited | error | deadToken => exact (List.append_nil times).symm ▸ hreset
  | push =>
    rw [if_pos rfl, entryAfter]
    cases hentry : entry.map (resetExpired cfg now) with
    | none =>
      rw [hentry] at hreset
      exact hreset.openAt.event (.inl rfl) hlimit
    | some e =>
      rw [hentry] at hreset
      have hopen := open_of_reset hentry
      exact Accounts.event hreset hopen (hroom rfl e hentry)

theorem Accounted.request (hlimit : 0 < cfg.rateLimitPerMinute) (req : PushRequest) (apns : Apns)
    (h : Accounted cfg now d) : Accounted cfg now (d.step cfg (.request req now apns)) := by
  intro key
  have hsent : timesOf key (d.step cfg (.request req now apns)).sent = timesOf key d.sent ++
      timesOf key (sentBy cfg d.inner (.request req now apns)) := timesOf_append key _ _
  rw [hsent, rateLimits_request, timesOf_sentBy]
  by_cases hown : key = rateLimitKey req
  · rw [if_pos hown, if_pos hown]
    have haccounts : Accounts cfg.rateLimitWindowMs cfg.rateLimitPerMinute now
        ((entryOf d.inner req).map view) (timesOf key d.sent) := by
      rw [entryOf, ← hown]
      exact h key
    exact accounts_entryAfter hlimit haccounts _ fun hpush => (verdict_eq_push_iff.mp hpush).2.2.1
  · rw [if_neg hown, if_neg hown, List.append_nil]
    exact h key

theorem Accounted.cleanup (h : Accounted cfg now d) :
    Accounted cfg now (d.step cfg (.cleanup now)) := by
  intro key
  have hkey := h key
  rw [sent_cleanup, rateLimits_cleanup]
  cases hentry : d.inner.rateLimits.lookup key with
  | none =>
    rw [hentry] at hkey
    exact hkey
  | some e =>
    rw [hentry] at hkey
    rw [Option.filter_some]
    split
    · exact hkey
    · rename_i hover
      rw [expired, Bool.not_eq_true', decide_eq_false_iff_not, not_not] at hover
      have hstart : e.windowStart ≤ now := by
        obtain ⟨_, _, _, hstart, _⟩ := hkey
        exact hstart
      exact Accounts.forget hkey (by omega)

theorem Accounted.step (hlimit : 0 < cfg.rateLimitPerMinute) (d : Delivered) (op : PushOp)
    (h : Accounted cfg op.time d) : Accounted cfg op.time (d.step cfg op) := by
  cases op with
  | request req now apns => exact h.request hlimit req apns
  | cleanup now => exact h.cleanup

/-- In any interval of the length of a window a pair has at most two budgets. -/
theorem Accounted.perClosedInterval (h : Accounted cfg now d) (hlength : 0 < cfg.rateLimitWindowMs)
    (daemonId frontendId : String) (start : ℕ) :
    (d.sent.countP fun p => ofPair daemonId frontendId p ∧ start ≤ p.2 ∧
      p.2 ≤ start + cfg.rateLimitWindowMs) ≤ 2 * cfg.rateLimitPerMinute := by
  refine le_trans ?_ ((h (pairKey daemonId frontendId)).count_le_twice hlength start)
  rw [timesOf, List.countP_map, List.countP_filter]
  refine List.countP_mono_left fun p _ hp => ?_
  obtain ⟨hpair, hin⟩ := of_decide_eq_true hp
  obtain ⟨hdaemon, hfrontend⟩ := of_decide_eq_true hpair
  have hkey : rateLimitKey p.1 = pairKey daemonId frontendId := by
    rw [rateLimitKey, hdaemon, hfrontend, pairKey]
  rw [Bool.and_eq_true]
  exact ⟨decide_eq_true hin, decide_eq_true hkey⟩

end Budgets

section Windows

variable {key : String} {d : Delivered} {ops : List PushOp}

/-- The delivery is one under a key. -/
def underKey (key : String) (p : PushRequest × ℕ) : Bool := rateLimitKey p.1 = key

/-- The deliveries of a key are within the budget, and counted by its window. -/
def WithinBudget (cfg : PushServiceConfig) (key : String) (d : Delivered) : Prop :=
  d.sent.countP (underKey key) ≤ cfg.rateLimitPerMinute ∧
    ∀ entry, d.inner.rateLimits.lookup key = some entry → d.sent.countP (underKey key) ≤ entry.count

theorem countP_ofPair_le (daemonId frontendId : String) (sent : List (PushRequest × ℕ)) :
    sent.countP (ofPair daemonId frontendId) ≤ sent.countP (underKey (pairKey daemonId frontendId)) := by
  refine List.countP_mono_left fun p _ hp => decide_eq_true ?_
  obtain ⟨hdaemon, hfrontend⟩ := of_decide_eq_true hp
  rw [rateLimitKey, hdaemon, hfrontend, pairKey]

theorem countP_underKey (sent : List (PushRequest × ℕ)) :
    sent.countP (underKey key) = (timesOf key sent).length := by
  rw [timesOf, List.length_map, List.countP_eq_length_filter]
  rfl

/-- A window counts the deliveries that it was met with. -/
theorem count_entryAfter {now count : ℕ} {entry : Option RateLimitEntry} {result : DeliveryResult}
    (hcount : ∀ e, entry = some e → count ≤ e.count)
    (hlive : result ≠ .ws → result ≠ .deduped → ∀ e, entry = some e → expired cfg now e = false)
    (hsome : result = .push → entry ≠ none) (e : RateLimitEntry)
    (he : entryAfter cfg now entry result = some e) :
    count + (if result = .push then 1 else 0) ≤ e.count := by
  have hreset : result ≠ .ws → result ≠ .deduped → entry.map (resetExpired cfg now) = entry := by
    intro hws hdeduped
    cases entry with
    | none => rfl
    | some e' =>
      rw [Option.map_some, resetExpired, hlive hws hdeduped e' rfl, if_neg (by decide)]
  cases result with
  | ws | deduped => exact hcount e he
  | rateLimited | error | deadToken =>
    have hsame := hreset (by decide) (by decide)
    exact hcount e (hsame ▸ he)
  | push =>
    rw [entryAfter, hreset (by decide) (by decide)] at he
    cases entry with
    | none => exact absurd rfl (hsome rfl)
    | some e' =>
      rw [← Option.some_inj.mp he, if_pos rfl]
      exact Nat.succ_le_succ (hcount e' rfl)

/-- The first operation delivers one at most, and its window counts it. -/
theorem withinBudget_first (hlimit : 0 < cfg.rateLimitPerMinute) (inner : Inner) (op : PushOp) :
    WithinBudget cfg key (Delivered.step cfg ⟨inner, []⟩ op) := by
  cases op with
  | cleanup now => exact ⟨Nat.zero_le _, fun entry _ => Nat.zero_le _⟩
  | request req now apns =>
    have hsent : (Delivered.step cfg ⟨inner, []⟩ (.request req now apns)).sent =
        sentBy cfg inner (.request req now apns) := rfl
    rw [sentBy_request] at hsent
    rw [WithinBudget, hsent]
    by_cases hpush : verdict cfg req now apns (seenOf inner req) (entryOf inner req) = .push
    · rw [if_pos hpush, List.countP_singleton]
      by_cases hown : underKey key (req, now) = true
      · rw [if_pos hown]
        refine ⟨hlimit, fun entry hentry => ?_⟩
        have hkey : key = rateLimitKey req := (of_decide_eq_true hown).symm
        rw [Delivered.step, nextInner, sendOrDeliver_eq, hpush] at hentry
        dsimp only at hentry
        rw [rateLimits_stateAfter, if_pos hkey] at hentry
        rw [← Option.some_inj.mp hentry]
        exact Nat.succ_le_succ (Nat.zero_le _)
      · rw [if_neg hown]
        exact ⟨Nat.zero_le _, fun entry _ => Nat.zero_le _⟩
    · rw [if_neg hpush]
      exact ⟨Nat.zero_le _, fun entry _ => Nat.zero_le _⟩

/-- A request that is delivered in a window leaves room in it. -/
theorem count_lt_limit {req : PushRequest} {now : ℕ} {apns : Apns} {seen : Option ℕ}
    {entry : Option RateLimitEntry} (hpush : verdict cfg req now apns seen entry = .push)
    {e : RateLimitEntry} (he : entry = some e) (hlive : expired cfg now e = false) :
    e.count < cfg.rateLimitPerMinute := by
  have hroom := (verdict_eq_push_iff.mp hpush).2.2.1 e
  rw [he, Option.map_some, resetExpired, hlive, if_neg Bool.false_ne_true] at hroom
  exact hroom rfl

/-- An operation that begins no window delivers within the budget of the one there is. -/
theorem WithinBudget.step (d : Delivered) (op : PushOp) (h : WithinBudget cfg key d)
    (hop : ¬BeginsWindow cfg key d.inner op) : WithinBudget cfg key (d.step cfg op) := by
  cases op with
  | cleanup now =>
    rw [WithinBudget, sent_cleanup, rateLimits_cleanup]
    exact ⟨h.1, fun entry hentry => h.2 entry (Option.eq_some_of_filter_eq_some hentry)⟩
  | request req now apns =>
    have hsent : (d.step cfg (.request req now apns)).sent.countP (underKey key) =
        d.sent.countP (underKey key) +
          (sentBy cfg d.inner (.request req now apns)).countP (underKey key) := List.countP_append
    rw [countP_underKey (sentBy _ _ _), timesOf_sentBy] at hsent
    rw [WithinBudget, rateLimits_request, hsent]
    by_cases hown : key = rateLimitKey req
    · have hentry : d.inner.rateLimits.lookup key = entryOf d.inner req := by rw [hown, entryOf]
      have hcount := h.2
      rw [hentry] at hcount
      rw [BeginsWindow, not_and, sendOrDeliver_eq] at hop
      have hbegins := hop hown.symm
      dsimp only at hbegins
      generalize hv : verdict cfg req now apns (seenOf d.inner req) (entryOf d.inner req) = result
        at hbegins ⊢
      have hlive : result ≠ .ws → result ≠ .deduped → ∀ e, entryOf d.inner req = some e →
          expired cfg now e = false := by
        intro hws hdeduped e he
        have hreaches := reachesBudget_of_verdict (hv.trans_ne hws) (hv.trans_ne hdeduped)
        rw [he] at hbegins
        exact Bool.eq_false_iff.mpr fun hover => hbegins ⟨hreaches, hover⟩
      have hsome : result = .push → entryOf d.inner req ≠ none := by
        intro hpush hnone
        rw [hnone] at hbegins
        exact hbegins hpush
      have hafter := count_entryAfter hcount hlive hsome
      rw [if_pos hown, if_pos hown, apply_ite List.length]
      refine ⟨?_, hafter⟩
      by_cases hpush : result = .push
      · obtain ⟨e, he⟩ := Option.ne_none_iff_exists'.mp (hsome hpush)
        have hover := hlive (by rw [hpush]; decide) (by rw [hpush]; decide) e he
        rw [if_pos hpush]
        exact (Nat.succ_le_succ (hcount e he)).trans (count_lt_limit (hv.trans hpush) he hover)
      · rw [if_neg hpush]
        exact h.1
    · rw [if_neg hown, if_neg hown]
      exact h

/-- Until a window begins, a positive budget is kept. -/
theorem perWindow_of_pos (hlimit : 0 < cfg.rateLimitPerMinute) (daemonId frontendId : String)
    (inner : Inner) (op : PushOp) {rest : List PushOp}
    (hrest : Meets (nextInner cfg) (fun inner op' =>
      ¬BeginsWindow cfg (pairKey daemonId frontendId) inner op') (nextInner cfg inner op) rest) :
    (deliveredFrom cfg inner (op :: rest)).sent.countP (ofPair daemonId frontendId) ≤
      cfg.rateLimitPerMinute := by
  have hfirst : WithinBudget cfg (pairKey daemonId frontendId) (Delivered.step cfg ⟨inner, []⟩ op) :=
    withinBudget_first hlimit inner op
  have hmeets : Meets (Delivered.step cfg) (fun d op' =>
      ¬BeginsWindow cfg (pairKey daemonId frontendId) d.inner op')
      (Delivered.step cfg ⟨inner, []⟩ op) rest := (meets_step_iff fun inner op' =>
        ¬BeginsWindow cfg (pairKey daemonId frontendId) inner op').mpr hrest
  have hlast := runFrom_induction_of_meets WithinBudget.step hfirst hmeets
  exact (countP_ofPair_le daemonId frontendId _).trans hlast.1

end Windows

section Bounds

variable {ops : List PushOp}

/-- Nothing is delivered without a budget when no request meets a key without a window. -/
theorem sent_eq_nil (hlimit : cfg.rateLimitPerMinute = 0) {inner : Inner}
    (hops : Meets (nextInner cfg) (fun inner op => ¬Unrecorded cfg inner op) inner ops) :
    (deliveredFrom cfg inner ops).sent = [] := by
  have hmeets : Meets (Delivered.step cfg) (fun d op => ¬Unrecorded cfg d.inner op) ⟨inner, []⟩ ops :=
    (meets_step_iff fun inner op => ¬Unrecorded cfg inner op).mpr hops
  refine @runFrom_induction_of_meets _ _ (Delivered.step cfg)
    (fun d op => ¬Unrecorded cfg d.inner op) (fun d => d.sent = []) ?_ _ rfl _ hmeets
  intro d op hd hop
  rw [Delivered.step, hd, List.nil_append]
  cases op with
  | cleanup now => rfl
  | request req now apns =>
    rw [sentBy_request, if_neg]
    intro hpush
    obtain ⟨hconnected, hseen, hroom, hclient, hanswer⟩ := verdict_eq_push_iff.mp hpush
    refine hop ⟨⟨hconnected, hseen⟩, ?_, hclient, hanswer⟩
    cases hentry : entryOf d.inner req with
    | none => rfl
    | some e =>
      have hcount := hroom (resetExpired cfg now e) (by rw [hentry, Option.map_some])
      rw [hlimit] at hcount
      exact absurd hcount (Nat.not_lt_zero _)

/-- A half-open interval lies in the closed one. -/
theorem countP_halfOpen_le (p : PushRequest × ℕ → Bool) (start length : ℕ)
    (sent : List (PushRequest × ℕ)) :
    (sent.countP fun q => p q ∧ start ≤ q.2 ∧ q.2 < start + length) ≤
      sent.countP fun q => p q ∧ start ≤ q.2 ∧ q.2 ≤ start + length := by
  refine List.countP_mono_left fun q _ hq => decide_eq_true ?_
  obtain ⟨hp, hstart, hend⟩ := of_decide_eq_true hq
  exact ⟨hp, hstart, hend.le⟩

theorem exists_clock (ops : List PushOp) : ∃ clock, ∀ op ∈ ops, op.time ≤ clock := by
  induction ops with
  | nil => exact ⟨0, nofun⟩
  | cons op ops ih =>
    obtain ⟨clock, hclock⟩ := ih
    refine ⟨max op.time clock, fun op' hop' => ?_⟩
    rcases List.mem_cons.mp hop' with rfl | hop'
    · exact le_max_left _ _
    · exact (hclock op' hop').trans (le_max_right _ _)

/-- Equal notices are delivered a dedup window apart. -/
theorem notices_apart (hclock : (ops.map PushOp.time).Pairwise (· ≤ ·)) :
    (deliveredFrom cfg .new ops).sent.Pairwise fun p q =>
      SameNotice p.1 q.1 → p.2 + cfg.dedupWindowMs ≤ q.2 := by
  obtain ⟨clock, hend⟩ := exists_clock ops
  have hnoticed : Noticed cfg clock (deliveredFrom cfg .new ops) := by
    refine deliveredFrom_induction (fun _ _ _ hd => hd.later) Noticed.step ?_ hclock hend
    exact ⟨List.Pairwise.nil, nofun, nofun⟩
  exact hnoticed.apart

/-- A positive budget is kept. -/
theorem bounded_of_pos (hlimit : 0 < cfg.rateLimitPerMinute)
    (hclock : (ops.map PushOp.time).Pairwise (· ≤ ·)) : Bounded cfg ops := by
  obtain ⟨clock, hend⟩ := exists_clock ops
  have haccounted : Accounted cfg clock (deliveredFrom cfg .new ops) := by
    refine deliveredFrom_induction (fun _ _ _ hd hle key => (hd key).later hle)
      (Accounted.step hlimit) ?_ hclock hend
    exact fun key => accounts_nil _ _ _
  constructor
  case apart => exact notices_apart hclock
  case perClosedInterval =>
    intro hlength daemonId frontendId start
    exact haccounted.perClosedInterval hlength daemonId frontendId start
  case perInterval =>
    intro daemonId frontendId start
    rcases Nat.eq_zero_or_pos cfg.rateLimitWindowMs with hlength | hlength
    · rw [List.countP_eq_zero.mpr]
      · exact Nat.zero_le _
      · intro p _ hp
        obtain ⟨-, hstart, hbefore⟩ := of_decide_eq_true hp
        omega
    · exact (countP_halfOpen_le _ start _ _).trans
        (haccounted.perClosedInterval hlength daemonId frontendId start)
  case perWindow =>
    intro daemonId frontendId before op rest after _ hrest
    rw [runFrom_append, runFrom_cons, runFrom_nil] at hrest
    exact perWindow_of_pos hlimit daemonId frontendId _ op hrest

/-- A budget of zero is kept when nothing is delivered. -/
theorem bounded_of_zero (hlimit : cfg.rateLimitPerMinute = 0)
    (hmeets : Meets (nextInner cfg) (fun inner op => ¬Unrecorded cfg inner op) .new ops) :
    Bounded cfg ops := by
  have hnone := sent_eq_nil hlimit hmeets
  constructor
  case apart =>
    rw [hnone]
    exact List.Pairwise.nil
  case perClosedInterval =>
    intro _ daemonId frontendId start
    rw [hnone]
    exact Nat.zero_le _
  case perInterval =>
    intro daemonId frontendId start
    rw [hnone]
    exact Nat.zero_le _
  case perWindow =>
    intro daemonId frontendId before op rest after hsplit _
    rw [hsplit, List.append_assoc, meets_append, meets_append] at hmeets
    rw [sent_eq_nil hlimit hmeets.2.1]
    exact Nat.zero_le _

/-- A budget of zero is not kept by a request that meets no window of its key. -/
theorem not_bounded_of_unrecorded (hlimit : cfg.rateLimitPerMinute = 0) {before after : List PushOp}
    {op : PushOp} (hop : Unrecorded cfg (runFrom (nextInner cfg) .new before) op) :
    ¬Bounded cfg (before ++ op :: after) := by
  intro h
  cases op with
  | cleanup now => exact hop
  | request req now apns =>
    obtain ⟨hreaches, hentry, hclient, hanswer⟩ := hop
    have hpush : verdict cfg req now apns (seenOf (runFrom (nextInner cfg) .new before) req)
        (entryOf (runFrom (nextInner cfg) .new before) req) = .push := by
      refine verdict_eq_push_iff.mpr ⟨hreaches.1, hreaches.2, ?_, hclient, hanswer⟩
      intro e he
      rw [hentry, Option.map_none] at he
      cases he
    have hsent : (deliveredFrom cfg (runFrom (nextInner cfg) .new before)
        [.request req now apns]).sent = [(req, now)] := by
      rw [deliveredFrom, runFrom_cons, runFrom_nil, Delivered.step, sentBy_request, if_pos hpush,
        List.nil_append]
    have hpair : ofPair req.daemonId req.frontendId (req, now) = true := decide_eq_true ⟨rfl, rfl⟩
    have hone := h.perWindow req.daemonId req.frontendId before (.request req now apns) [] after
      (by rw [List.append_assoc, List.cons_append, List.nil_append]) trivial
    rw [hsent, hlimit, List.countP_singleton, if_pos hpair] at hone
    exact Nat.not_succ_le_zero 0 hone

/-- What a run delivers is within the bounds if and only if the budget is positive
or no request meets a key without a window while nothing else stops it. -/
theorem bounded_iff (cfg : PushServiceConfig) (ops : List PushOp)
    (hclock : (ops.map PushOp.time).Pairwise (· ≤ ·)) :
    Bounded cfg ops ↔ 0 < cfg.rateLimitPerMinute ∨
      Meets (nextInner cfg) (fun inner op => ¬Unrecorded cfg inner op) .new ops := by
  rcases Nat.eq_zero_or_pos cfg.rateLimitPerMinute with hlimit | hlimit
  · constructor
    · intro h
      refine .inr (meets_iff_forall_split.mpr fun before op after hsplit hop => ?_)
      exact not_bounded_of_unrecorded hlimit hop (hsplit ▸ h)
    · rintro (hpos | hmeets)
      · exact absurd hlimit hpos.ne'
      · exact bounded_of_zero hlimit hmeets
  · exact ⟨fun _ => .inl hlimit, fun _ => bounded_of_pos hlimit hclock⟩

/-- A request that the push service accepts. -/
def pushAt (notice : Option PushData) (now : ℕ) : PushOp :=
  .request ⟨"phone", "d", "token", "title", "body", false, none, notice⟩ now fun _ => .ok

/-- A notice that is repeated, four other requests, one more than the budget, and the notice
again when both windows have ended. -/
def standardRun : List PushOp :=
  [pushAt (some ⟨"s", "d", "Stop"⟩) 2, pushAt (some ⟨"s", "d", "Stop"⟩) 100, pushAt none 200,
    pushAt none 300, pushAt none 400, pushAt none 500, pushAt none 600, .cleanup 60001,
    pushAt (some ⟨"s", "d", "Stop"⟩) 60002]

/-- Under the default limits the repeated notice and the sixth request of the minute are not
delivered, and the run is within the bounds. -/
theorem bounded_iff_standard :
    (deliveredFrom .standard .new standardRun).sent.map Prod.snd =
        [2, 200, 300, 400, 500, 60002] ∧
      Bounded .standard standardRun :=
  ⟨by decide +kernel, (bounded_iff .standard standardRun (by decide)).mpr (.inl (by decide))⟩

/-- Under a limit of zero the first request is delivered. -/
theorem zero_limit_delivers :
    (deliveredFrom ⟨0, 60000, 60000, true⟩ .new [.request ⟨"phone", "d", "token", "title", "body", false,
      none, none⟩ 1 (fun _ => .ok)]).sent =
      [(⟨"phone", "d", "token", "title", "body", false, none, none⟩, 1)] ∧
    ¬Bounded ⟨0, 60000, 60000, true⟩ [.request ⟨"phone", "d", "token", "title", "body", false,
      none, none⟩ 1 (fun _ => .ok)] := by
  refine ⟨by decide +kernel, fun h => ?_⟩
  have hone := h.perWindow "d" "phone" [] _ [] [] rfl trivial
  revert hone
  decide +kernel

end Bounds

end Teleprompter.PushBudgets
