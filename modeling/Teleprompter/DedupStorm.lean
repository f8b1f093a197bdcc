import Teleprompter.PushService

/-!
# Equal pushes at the same time

Several calls for one daemon, frontend, session and event may be under way at
once. Each checks its guards under the lock, waits for the gateway without it
and records a delivery under it again, with cleanups in between. The window of
the pair is only written together with the dedup entry, so from the first
delivery on the dedup check answers before the budget is looked at.
-/

namespace Teleprompter.DedupStorm

open FiniteDictionary StepRuns PushService

/-- Where a call stands. It keeps the clock reading of its guard phase. -/
inductive CallPhase where
  | waiting (now : ℕ)
  | delivered (now : ℕ)
  | returned (result : DeliveryResult)
  deriving DecidableEq

/-- The service with its calls. -/
structure Storm where
  /-- State behind the lock. -/
  inner : Inner
  /-- All calls with their requests, by number. -/
  calls : List (PushRequest × CallPhase)

/-- What can happen next. -/
inductive StormEvent where
  /-- A call begins, with its clock reading, and passes its guard phase. -/
  | call (req : PushRequest) (now : ℕ)
  /-- The gateway answers a call. -/
  | answer (call : ℕ) (result : ApnsDeliveryResult)
  /-- A delivered call records its delivery. -/
  | commit (call : ℕ)
  /-- A cleanup with its clock reading. -/
  | cleanup (now : ℕ)
  deriving DecidableEq

/-- The phase of a call after its guard phase. -/
def phaseAfterGuard (now : ℕ) : Option DeliveryResult → CallPhase
  | some result => .returned result
  | none => .waiting now

/-- The phase of a waiting call after the gateway's answer. -/
def phaseAfterAnswer (now : ℕ) : ApnsDeliveryResult → CallPhase
  | .ok => .delivered now
  | .err true _ => .returned .deadToken
  | .err false _ => .returned .error

/-- One step of the service. -/
def step (cfg : PushServiceConfig) (s : Storm) : StormEvent → Storm
  | .call req now =>
    if req.isFrontendConnected then { s with calls := s.calls ++ [(req, .returned .ws)] }
    else
      let guarded := guardPhase cfg s.inner req now
      ⟨guarded.1, s.calls ++ [(req, phaseAfterGuard now guarded.2)]⟩
  | .answer call result =>
    match s.calls[call]? with
    | some (req, .waiting now) =>
      { s with calls := s.calls.set call (req, phaseAfterAnswer now result) }
    | _ => s
  | .commit call =>
    match s.calls[call]? with
    | some (req, .delivered now) =>
      ⟨commitPhase s.inner req now, s.calls.set call (req, .returned .push)⟩
    | _ => s
  | .cleanup now => { s with inner := runCleanup cfg s.inner now }

/-- The clock readings of a run. -/
def readings (events : List StormEvent) : List ℕ :=
  events.filterMap fun e =>
    match e with
    | .call _ now => some now
    | .cleanup now => some now
    | _ => none

/-- The request is for this daemon, frontend, session and event. -/
def IsFor (daemonId frontendId sid event : String) (req : PushRequest) : Prop :=
  req.daemonId = daemonId ∧ req.frontendId = frontendId ∧
    ∃ data, req.data = some data ∧ data.sid = sid ∧ data.event = event

/-- Every call of the run is for this daemon, frontend, session and event. -/
def AllFor (daemonId frontendId sid event : String) (events : List StormEvent) : Prop :=
  ∀ req now, StormEvent.call req now ∈ events → IsFor daemonId frontendId sid event req

section Invariant

variable {cfg : PushServiceConfig} {daemonId frontendId sid event : String} {times : List ℕ}

/-- What a request for the pair is looked up by. -/
theorem IsFor.keys {req : PushRequest} (h : IsFor daemonId frontendId sid event req) :
    rateLimitKey req = daemonId ++ ":" ++ frontendId ∧
      dedupKey req = some (frontendId ++ ":" ++ sid ++ ":" ++ event) := by
  obtain ⟨rfl, rfl, data, hdata, rfl, rfl⟩ := h
  refine ⟨rfl, ?_⟩
  rw [dedupKey, hdata]
  rfl

/-- A window of the pair comes with a dedup entry from these times. -/
def Backed (daemonId frontendId sid event : String) (times : List ℕ) (inner : Inner) : Prop :=
  inner.rateLimits.lookup (daemonId ++ ":" ++ frontendId) = none ∨
    ∃ seenAt ∈ times, inner.dedupSeen.lookup (frontendId ++ ":" ++ sid ++ ":" ++ event) = some seenAt

/-- A call in this phase was not refused for its budget, and its clock reading
is one of these times. -/
def Allowed (times : List ℕ) : CallPhase → Prop
  | .waiting now => now ∈ times
  | .delivered now => now ∈ times
  | .returned result => result ≠ .rateLimited

/-- What holds throughout a storm. -/
structure Inv (daemonId frontendId sid event : String) (times : List ℕ) (s : Storm) : Prop where
  /-- The dedup entry stands wherever the window does. -/
  backed : Backed daemonId frontendId sid event times s.inner
  /-- Every call is for the pair and was not refused for its budget. -/
  calls : ∀ call ∈ s.calls, IsFor daemonId frontendId sid event call.1 ∧ Allowed times call.2

/-- The clock readings lie within one dedup window. -/
def Within (cfg : PushServiceConfig) (times : List ℕ) : Prop :=
  ∀ a ∈ times, ∀ b ∈ times, a - b < cfg.dedupWindowMs

instance (cfg : PushServiceConfig) (times : List ℕ) : Decidable (Within cfg times) :=
  inferInstanceAs (Decidable (∀ a ∈ times, ∀ b ∈ times, _))

/-- The guard phase never refuses a call for its budget, and keeps the window
of the pair backed. -/
theorem Backed.guardPhase {inner : Inner} (h : Backed daemonId frontendId sid event times inner)
    (hwithin : Within cfg times) {req : PushRequest}
    (hreq : IsFor daemonId frontendId sid event req) {now : ℕ} (hnow : now ∈ times) :
    Backed daemonId frontendId sid event times (guardPhase cfg inner req now).1 ∧
      (guardPhase cfg inner req now).2 ≠ some .rateLimited := by
  obtain ⟨hrate, hdedup⟩ := hreq.keys
  unfold PushService.guardPhase
  by_cases hseen : (seenOf inner req).any (seenWithin cfg now) = true
  · rw [if_pos hseen]
    exact ⟨h, nofun⟩
  · rw [if_neg hseen]
    rcases h with hnone | ⟨seenAt, hseenAt, hlookup⟩
    · have habsent : (alterKey (rateLimitKey req) (resetExpired cfg now) inner.rateLimits).lookup
          (rateLimitKey req) = none := by
        rw [lookup_alterKey, if_pos rfl, hrate, hnone]
        rfl
      dsimp only
      rw [habsent, Option.any_none, if_neg (by decide)]
      rw [hrate] at habsent
      split
      · exact ⟨.inl (hrate ▸ habsent), nofun⟩
      · exact ⟨.inl (hrate ▸ habsent), nofun⟩
    · have hdeduped : (seenOf inner req).any (seenWithin cfg now) = true := by
        rw [seenOf, hdedup, Option.bind_some, hlookup, Option.any_some]
        exact decide_eq_true (hwithin now hnow seenAt hseenAt)
      exact absurd hdeduped hseen

/-- A recorded delivery backs the window of the pair. -/
theorem backed_commitPhase (inner : Inner) {req : PushRequest}
    (hreq : IsFor daemonId frontendId sid event req) {now : ℕ} (hnow : now ∈ times) :
    Backed daemonId frontendId sid event times (commitPhase inner req now) := by
  refine .inr ⟨now, hnow, ?_⟩
  rw [commitPhase, hreq.keys.2]
  exact AList.lookup_insert _

/-- A cleanup keeps the dedup entry of the pair. -/
theorem Backed.runCleanup {inner : Inner} (h : Backed daemonId frontendId sid event times inner)
    (hwithin : Within cfg times) {now : ℕ} (hnow : now ∈ times) :
    Backed daemonId frontendId sid event times (runCleanup cfg inner now) := by
  rcases h with hnone | ⟨seenAt, hseenAt, hlookup⟩
  · refine .inl ?_
    rw [rateLimits_runCleanup, hnone]
    rfl
  · refine .inr ⟨seenAt, hseenAt, ?_⟩
    rw [dedupSeen_runCleanup, hlookup, Option.filter_some, if_pos]
    exact decide_eq_true (hwithin now hnow seenAt hseenAt)

/-- The event is for the pair and has one of these clock readings. -/
def Fits (daemonId frontendId sid event : String) (times : List ℕ) (_ : Storm) : StormEvent → Prop
  | .call req now => IsFor daemonId frontendId sid event req ∧ now ∈ times
  | .cleanup now => now ∈ times
  | _ => True

/-- Changing one call keeps what holds of all calls. -/
theorem forall_mem_set {P : PushRequest × CallPhase → Prop} {calls : List (PushRequest × CallPhase)}
    (h : ∀ call ∈ calls, P call) (i : ℕ) {new : PushRequest × CallPhase} (hnew : P new) :
    ∀ call ∈ calls.set i new, P call := by
  intro call hmem
  rcases List.mem_or_eq_of_mem_set hmem with hold | rfl
  · exact h call hold
  · exact hnew

/-- A step keeps what holds throughout a storm. -/
theorem Inv.step (hwithin : Within cfg times) (s : Storm) (e : StormEvent)
    (h : Inv daemonId frontendId sid event times s) (hfits : Fits daemonId frontendId sid event times s e) :
    Inv daemonId frontendId sid event times (step cfg s e) := by
  cases e with
  | call req now =>
    obtain ⟨hreq, hnow⟩ := hfits
    have happend : ∀ phase, Allowed times phase → ∀ call ∈ s.calls ++ [(req, phase)],
        IsFor daemonId frontendId sid event call.1 ∧ Allowed times call.2 := by
      intro phase hphase call hmem
      rcases List.mem_append.mp hmem with hold | hnew
      · exact h.calls call hold
      · rw [List.mem_singleton.mp hnew]
        exact ⟨hreq, hphase⟩
    unfold DedupStorm.step
    dsimp only
    split
    · exact ⟨h.backed, happend _ nofun⟩
    · obtain ⟨hbacked, hresult⟩ := h.backed.guardPhase hwithin hreq hnow
      refine ⟨hbacked, happend _ ?_⟩
      cases hguard : (guardPhase cfg s.inner req now).2 with
      | none => exact hnow
      | some result =>
        rintro rfl
        exact hresult hguard
  | answer call result =>
    unfold DedupStorm.step
    dsimp only
    split
    · next req now hcall =>
      obtain ⟨hreq, hnow⟩ := h.calls _ (List.mem_of_getElem? hcall)
      refine ⟨h.backed, forall_mem_set h.calls call ⟨hreq, ?_⟩⟩
      cases result with
      | ok => exact hnow
      | err deadToken reason =>
        cases deadToken with
        | true => exact nofun
        | false => exact nofun
    · exact h
  | commit call =>
    unfold DedupStorm.step
    dsimp only
    split
    · next req now hcall =>
      obtain ⟨hreq, hnow⟩ := h.calls _ (List.mem_of_getElem? hcall)
      exact ⟨backed_commitPhase s.inner hreq hnow, forall_mem_set h.calls call ⟨hreq, nofun⟩⟩
    · exact h
  | cleanup now => exact ⟨h.backed.runCleanup hwithin hfits, h.calls⟩

end Invariant

/-- However many equal calls are under way and however their phases, the
gateway's answers and cleanups are interleaved, no call is refused for its
budget, as long as all clock readings lie within one dedup window and the
service began without a window for the pair. -/
theorem storm_never_rate_limited (cfg : PushServiceConfig) (daemonId frontendId sid event : String)
    (inner : Inner) (hinner : inner.rateLimits.lookup (daemonId ++ ":" ++ frontendId) = none)
    (events : List StormEvent) (hfor : AllFor daemonId frontendId sid event events)
    (hwithin : Within cfg (readings events)) :
    ∀ call ∈ (runFrom (step cfg) ⟨inner, []⟩ events).calls, call.2 ≠ .returned .rateLimited := by
  have hfits : Meets (step cfg) (Fits daemonId frontendId sid event (readings events)) ⟨inner, []⟩
      events := by
    refine meets_of_forall_mem (fun e he _ => ?_) _
    cases e with
    | call req now => exact ⟨hfor req now he, List.mem_filterMap.mpr ⟨_, he, rfl⟩⟩
    | cleanup now => exact List.mem_filterMap.mpr ⟨_, he, rfl⟩
    | answer call result => trivial
    | commit call => trivial
  have hstart : Inv daemonId frontendId sid event (readings events) ⟨inner, []⟩ :=
    ⟨.inl hinner, List.forall_mem_nil _⟩
  have hinv := runFrom_induction_of_meets (Inv.step hwithin) hstart hfits
  intro call hmem heq
  have hallowed := (hinv.calls call hmem).2
  rw [heq] at hallowed
  exact hallowed rfl

/-- A stop notification of daemon d for session s to the phone. -/
def sampleRequest : PushRequest :=
  ⟨"phone", "d", "token", "title", "body", false, none, some ⟨"s", "d", "Stop"⟩⟩

/-- Seven calls at once, of which the gateway fails one and delivers one more
than the budget, then a cleanup and a late call. -/
def sampleStorm : List StormEvent :=
  List.replicate 7 (.call sampleRequest 1000) ++
    [.answer 0 (.err false "HTTP 500")] ++ (List.range 7).map (fun i => .answer i .ok) ++
    (List.range 7).map .commit ++ [.cleanup 60000, .call sampleRequest 60999]

/-- The calls of the sample are for one pair. -/
theorem allFor_sampleStorm : AllFor "d" "phone" "s" "Stop" sampleStorm := by
  have hall : ∀ e ∈ sampleStorm, ∀ req ∈ (match e with | .call req _ => some req | _ => none),
      req = sampleRequest := by decide +kernel
  intro req now hmem
  rw [hall _ hmem req rfl]
  exact ⟨rfl, rfl, _, rfl, rfl, rfl⟩

/-- More pushes than the budget are delivered and the late call is a duplicate. -/
theorem storm_never_rate_limited_sample :
    (runFrom (step .standard) ⟨.new, []⟩ sampleStorm).calls.map Prod.snd =
        .returned .error :: List.replicate 6 (.returned .push) ++ [.returned .deduped] ∧
      ∀ call ∈ (runFrom (step .standard) ⟨.new, []⟩ sampleStorm).calls,
        call.2 ≠ .returned .rateLimited :=
  ⟨by decide +kernel, storm_never_rate_limited .standard "d" "phone" "s" "Stop" .new rfl sampleStorm
    allFor_sampleStorm (by decide +kernel)⟩

end Teleprompter.DedupStorm
