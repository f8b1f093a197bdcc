import Teleprompter.PushService

/-!
# Pushes of different daemons

The budget of a push is kept per daemon and frontend, but an equal push is
recognised by frontend, session and event only, whatever its daemon is. So
requests of other daemons do not matter to a daemon as long as they use other
budget keys and none of them delivers what the daemon asks for itself.
-/

namespace Teleprompter.PushIsolation

open FiniteDictionary StepRuns PushService

/-- Requests of the daemon in a run. -/
def requestsOf (daemonId : String) (ops : List PushOp) : List PushRequest :=
  ops.filterMap fun op =>
    match op with
    | .request req _ _ => if req.daemonId = daemonId then some req else none
    | .cleanup _ => none

/-- The operation stays when all requests of other daemons are left out. -/
def staysFor (daemonId : String) : PushOp → Bool
  | .request req _ _ => req.daemonId = daemonId
  | .cleanup _ => true

/-- A run in which the requests of other daemons are marked. -/
def markedFor (daemonId : String) (ops : List PushOp) : List Marked :=
  ops.map fun op => ⟨op, staysFor daemonId op⟩

/-- A request of another daemon has a budget key of its own and does not
deliver a push that one of these requests asks for. -/
def Apart (cfg : PushServiceConfig) (mine : List PushRequest) (p : TwoRuns) (m : Marked) : Prop :=
  match m.op with
  | .request req _ _ =>
    m.kept = false →
      (∀ own ∈ mine, rateLimitKey own ≠ rateLimitKey req) ∧
        (resultOf cfg p.full m.op = some .push →
          ∀ own ∈ mine, dedupKey own = none ∨ dedupKey own ≠ dedupKey req)
  | .cleanup _ => True

instance (cfg : PushServiceConfig) (mine : List PushRequest) (p : TwoRuns) (m : Marked) :
    Decidable (Apart cfg mine p m) :=
  match m with
  | ⟨.request _ _ _, _⟩ => inferInstanceAs (Decidable (_ → _ ∧ _))
  | ⟨.cleanup _, _⟩ => isTrue trivial

/-- The two states agree on every entry that one of the requests meets. -/
def SameFor (mine : List PushRequest) (p : TwoRuns) : Prop :=
  ∀ own ∈ mine, seenOf p.full own = seenOf p.thin own ∧ entryOf p.full own = entryOf p.thin own

/-- A request meets after another one what that one has left behind. -/
theorem seenOf_stateAfter (cfg : PushServiceConfig) (inner : Inner) (req own : PushRequest) (now : ℕ)
    (result : DeliveryResult) :
    seenOf (stateAfter cfg inner req now result) own =
      if result = .push ∧ dedupKey own ≠ none ∧ dedupKey req = dedupKey own then some now
      else seenOf inner own := by
  unfold seenOf
  cases hown : dedupKey own with
  | none => simp
  | some key =>
    rw [Option.bind_some, Option.bind_some, dedupSeen_stateAfter]
    simp

/-- The same for the rate-limit window. -/
theorem entryOf_stateAfter (cfg : PushServiceConfig) (inner : Inner) (req own : PushRequest)
    (now : ℕ) (result : DeliveryResult) :
    entryOf (stateAfter cfg inner req now result) own =
      if rateLimitKey own = rateLimitKey req then entryAfter cfg now (entryOf inner req) result
      else entryOf inner own :=
  rateLimits_stateAfter cfg inner req now result (rateLimitKey own)

/-- Requests that meet the same entries have the same result. -/
theorem resultOf_congr (cfg : PushServiceConfig) {full thin : Inner} {req : PushRequest}
    (hseen : seenOf full req = seenOf thin req) (hentry : entryOf full req = entryOf thin req)
    (now : ℕ) (apns : Apns) :
    resultOf cfg full (.request req now apns) = resultOf cfg thin (.request req now apns) := by
  simp only [resultOf, sendOrDeliver_eq, hseen, hentry]

/-- A common request keeps the two states the same for the requests. -/
theorem SameFor.request {cfg : PushServiceConfig} {mine : List PushRequest} {p : TwoRuns}
    (h : SameFor mine p) {req : PushRequest} (hreq : req ∈ mine) (now : ℕ) (apns : Apns) :
    SameFor mine (p.step cfg ⟨.request req now apns, true⟩) := by
  intro own hown
  obtain ⟨hseen, hentry⟩ := h req hreq
  obtain ⟨hseen', hentry'⟩ := h own hown
  simp only [TwoRuns.step, if_true, nextInner, sendOrDeliver_eq, seenOf_stateAfter,
    entryOf_stateAfter, hseen, hentry, hseen', hentry', and_self]

/-- A request of another daemon that is left out keeps them the same. -/
theorem SameFor.left_out {cfg : PushServiceConfig} {mine : List PushRequest} {p : TwoRuns}
    (h : SameFor mine p) {req : PushRequest} {now : ℕ} {apns : Apns}
    (hapart : Apart cfg mine p ⟨.request req now apns, false⟩) :
    SameFor mine (p.step cfg ⟨.request req now apns, false⟩) := by
  intro own hown
  obtain ⟨hbudget, hdelivered⟩ := hapart rfl
  obtain ⟨hseen, hentry⟩ := h own hown
  simp only [TwoRuns.step, nextInner, sendOrDeliver_eq, seenOf_stateAfter, entryOf_stateAfter,
    if_neg (hbudget own hown)]
  refine ⟨?_, hentry⟩
  rw [if_neg]
  · exact hseen
  · rintro ⟨hpush, hsome, hkey⟩
    have hresult : resultOf cfg p.full (.request req now apns) = some .push := by
      rw [resultOf, sendOrDeliver_eq, hpush]
    rcases hdelivered hresult own hown with hnone | hne
    · exact hsome hnone
    · exact hne hkey.symm

/-- A cleanup keeps them the same. -/
theorem SameFor.cleanup {cfg : PushServiceConfig} {mine : List PushRequest} {p : TwoRuns}
    (h : SameFor mine p) (now : ℕ) : SameFor mine (p.step cfg ⟨.cleanup now, true⟩) := by
  intro own hown
  obtain ⟨hseen, hentry⟩ := h own hown
  refine ⟨?_, ?_⟩
  · show seenOf (runCleanup cfg p.full now) own = seenOf (runCleanup cfg p.thin now) own
    unfold seenOf at hseen ⊢
    cases hkey : dedupKey own with
    | none => rfl
    | some key =>
      rw [hkey, Option.bind_some, Option.bind_some] at hseen
      rw [Option.bind_some, Option.bind_some, dedupSeen_runCleanup, dedupSeen_runCleanup, hseen]
  · show (runCleanup cfg p.full now).rateLimits.lookup _ = (runCleanup cfg p.thin now).rateLimits.lookup _
    rw [rateLimits_runCleanup, rateLimits_runCleanup]
    exact congrArg _ hentry

/-- A marked operation that stays belongs to the daemon or is a cleanup. -/
def Fitting (mine : List PushRequest) (m : Marked) : Prop :=
  match m.op with
  | .request req _ _ => m.kept = true → req ∈ mine
  | .cleanup _ => m.kept = true

/-- Every operation of a marked run fits. -/
theorem fitting_markedFor {daemonId : String} {ops : List PushOp} {m : Marked}
    (h : m ∈ markedFor daemonId ops) : Fitting (requestsOf daemonId ops) m := by
  obtain ⟨op, hop, rfl⟩ := List.mem_map.mp h
  cases op with
  | request req now apns =>
    intro hstays
    have hdaemon : req.daemonId = daemonId := of_decide_eq_true hstays
    exact List.mem_filterMap.mpr ⟨_, hop, if_pos hdaemon⟩
  | cleanup now => rfl

/-- An operation keeps the two states the same for the requests. -/
theorem SameFor.step {cfg : PushServiceConfig} {mine : List PushRequest} (p : TwoRuns) (m : Marked)
    (h : SameFor mine p) (hcond : Apart cfg mine p m ∧ Fitting mine m) :
    SameFor mine (p.step cfg m) := by
  obtain ⟨hapart, hfitting⟩ := hcond
  obtain ⟨op, kept⟩ := m
  cases op with
  | request req now apns =>
    cases kept with
    | true => exact h.request (hfitting rfl) now apns
    | false => exact h.left_out hapart
  | cleanup now =>
    obtain rfl : kept = true := hfitting
    exact h.cleanup now

/-- A common operation has the same result in both states. -/
theorem SameFor.resultOf_eq {cfg : PushServiceConfig} {mine : List PushRequest} (p : TwoRuns)
    (m : Marked) (h : SameFor mine p) (hcond : Apart cfg mine p m ∧ Fitting mine m)
    (hkept : m.kept = true) : resultOf cfg p.full m.op = resultOf cfg p.thin m.op := by
  obtain ⟨op, kept⟩ := m
  cases op with
  | request req now apns =>
    obtain ⟨hseen, hentry⟩ := h req (hcond.2 hkept)
    exact resultOf_congr cfg hseen hentry now apns
  | cleanup now => rfl

/-- Leaving out all requests of other daemons does not change the results of
the daemon's requests, when the requests of other daemons have budget keys of
their own and deliver nothing that the daemon asks for. -/
theorem other_daemons_left_out (cfg : PushServiceConfig) (daemonId : String) (ops : List PushOp)
    (hapart : Meets (TwoRuns.step cfg) (Apart cfg (requestsOf daemonId ops)) .new
      (markedFor daemonId ops)) :
    fullResults cfg .new (markedFor daemonId ops) =
      thinResults cfg .new (markedFor daemonId ops) := by
  have hfitting : Meets (TwoRuns.step cfg) (fun _ m => Fitting (requestsOf daemonId ops) m) .new
      (markedFor daemonId ops) :=
    meets_of_forall_mem (fun m hm _ => fitting_markedFor hm) TwoRuns.new
  have hstart : SameFor (requestsOf daemonId ops) .new := fun _ _ => ⟨rfl, rfl⟩
  exact results_agree cfg SameFor.step SameFor.resultOf_eq hstart
    (meets_and.mpr ⟨hapart, hfitting⟩)

/-- A request for a session's stop notification. -/
def stopRequest (daemonId frontendId sid : String) : PushRequest :=
  ⟨frontendId, daemonId, "token", "title", "body", false, none, some ⟨sid, daemonId, "Stop"⟩⟩

/-- A gateway that delivers. -/
def delivers : Apns := fun _ => .ok

/-- Two daemons notify one phone about different sessions. -/
def twoSessions : List PushOp :=
  [.request (stopRequest "d1" "phone" "s1") 1000 delivers,
    .request (stopRequest "d2" "phone" "s2") 2000 delivers,
    .request (stopRequest "d2" "phone" "s2") 3000 delivers]

theorem other_daemons_left_out_twoSessions :
    fullResults .standard .new (markedFor "d2" twoSessions) = [some .push, some .deduped] ∧
      fullResults .standard .new (markedFor "d2" twoSessions) =
        thinResults .standard .new (markedFor "d2" twoSessions) :=
  ⟨by decide +kernel, other_daemons_left_out .standard "d2" twoSessions (by decide +kernel)⟩

/-- Two daemons notify one phone about sessions of the same name. -/
def sameSession : List PushOp :=
  [.request (stopRequest "d1" "phone" "s") 1000 delivers,
    .request (stopRequest "d2" "phone" "s") 2000 delivers]

/-- The notification of one daemon suppresses that of the other one. -/
theorem other_daemon_suppresses :
    fullResults .standard .new (markedFor "d2" sameSession) = [some .deduped] ∧
      thinResults .standard .new (markedFor "d2" sameSession) = [some .push] ∧
      ¬∀ cfg daemonId ops, fullResults cfg .new (markedFor daemonId ops) =
        thinResults cfg .new (markedFor daemonId ops) := by
  have hfull : fullResults .standard .new (markedFor "d2" sameSession) = [some .deduped] := by
    decide +kernel
  have hthin : thinResults .standard .new (markedFor "d2" sameSession) = [some .push] := by
    decide +kernel
  refine ⟨hfull, hthin, fun hall => ?_⟩
  have hequal := hall .standard "d2" sameSession
  rw [hfull, hthin] at hequal
  cases hequal

end Teleprompter.PushIsolation
