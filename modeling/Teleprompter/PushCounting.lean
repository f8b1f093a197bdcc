import Teleprompter.PushService

/-!
# Requests that deliver nothing

A budget is spent by delivered pushes only, and cleanups drop only what is
over. Yet a request that meets a window that is over begins a new one before
its fate is known, and the new window stays when nothing is delivered. Two
runs that differ in cleanups and undelivered requests give the same results
as long as no window is moved in one of them only.
-/

namespace Teleprompter.PushCounting

open FiniteDictionary StepRuns PushService

variable {cfg : PushServiceConfig}

/-- Past the dedup check the request cannot be delivered from a fresh window. -/
def Hopeless (cfg : PushServiceConfig) (req : PushRequest) (apns : Apns) : Prop :=
  cfg.rateLimitPerMinute = 0 ∨ cfg.hasApnsClient = false ∨ apns (apnsPayload req) ≠ .ok

instance (cfg : PushServiceConfig) (req : PushRequest) (apns : Apns) :
    Decidable (Hopeless cfg req apns) := inferInstanceAs (Decidable (_ ∨ _ ∨ _))

/-- A request that cannot be delivered meets a window on record that is over:
it is neither connected nor a duplicate, and begins a new window. -/
def MovesWindow (cfg : PushServiceConfig) (inner : Inner) : PushOp → Prop
  | .request req now apns =>
    req.isFrontendConnected = false ∧ (seenOf inner req).any (seenWithin cfg now) = false ∧
      (entryOf inner req).any (expired cfg now) = true ∧ Hopeless cfg req apns
  | .cleanup _ => False

instance (cfg : PushServiceConfig) (inner : Inner) : DecidablePred (MovesWindow cfg inner)
  | .request _ _ _ => inferInstanceAs (Decidable (_ ∧ _ ∧ _ ∧ _))
  | .cleanup _ => isFalse id

/-- The clock does not run backwards. -/
def Forward (p : TwoRuns) (m : Marked) : Prop := p.clock ≤ m.op.time

instance (p : TwoRuns) (m : Marked) : Decidable (Forward p m) :=
  inferInstanceAs (Decidable (_ ≤ _))

/-- Only cleanups and requests without a delivery are left out. -/
def LeavesOutUndelivered (cfg : PushServiceConfig) (p : TwoRuns) (m : Marked) : Prop :=
  m.kept = false → resultOf cfg p.full m.op ≠ some .push

instance (cfg : PushServiceConfig) (p : TwoRuns) (m : Marked) :
    Decidable (LeavesOutUndelivered cfg p m) := inferInstanceAs (Decidable (_ → _))

/-- No window is moved in one of the two runs only. -/
def MovesTogether (cfg : PushServiceConfig) (p : TwoRuns) (m : Marked) : Prop :=
  if m.kept then MovesWindow cfg p.full m.op ↔ MovesWindow cfg p.thin m.op
  else ¬MovesWindow cfg p.full m.op

instance (cfg : PushServiceConfig) (p : TwoRuns) (m : Marked) :
    Decidable (MovesTogether cfg p m) :=
  inferInstanceAs (Decidable (if m.kept = true then (_ ↔ _) else ¬_))

section Entries

variable {α : Type} {past : α → Bool}

/-- There is no entry, or one that is over. -/
def Gone (past : α → Bool) (x : Option α) : Prop := ∀ a, x = some a → past a = true

/-- Entries that are equal or both gone. -/
def Alike (past : α → Bool) (x y : Option α) : Prop := x = y ∨ (Gone past x ∧ Gone past y)

theorem Alike.symm {x y : Option α} (h : Alike past x y) : Alike past y x :=
  h.imp Eq.symm And.symm

theorem Alike.trans {x y z : Option α} (h : Alike past x y) (h' : Alike past y z) :
    Alike past x z := by
  rcases h with rfl | ⟨hx, hy⟩
  · exact h'
  · rcases h' with rfl | ⟨-, hz⟩
    · exact .inr ⟨hx, hy⟩
    · exact .inr ⟨hx, hz⟩

/-- What is over stays over. -/
theorem Alike.mono {later : α → Bool} (hlater : ∀ a, past a = true → later a = true)
    {x y : Option α} (h : Alike past x y) : Alike later x y :=
  h.imp id fun hgone => ⟨fun a ha => hlater a (hgone.1 a ha), fun a ha => hlater a (hgone.2 a ha)⟩

/-- A test that passes nothing that is over cannot tell alike entries apart. -/
theorem Alike.any_eq {alive : α → Bool} (halive : ∀ a, alive a = !past a) {x y : Option α}
    (h : Alike past x y) : x.any alive = y.any alive := by
  have hgone : ∀ z, Gone past z → z.any alive = false := by
    intro z hz
    cases z with
    | none => rfl
    | some a => rw [Option.any_some, halive, hz a rfl, Bool.not_true]
  rcases h with rfl | ⟨hx, hy⟩
  · rfl
  · rw [hgone x hx, hgone y hy]

/-- Dropping an entry that is over leaves an alike one. -/
theorem alike_filter {alive : α → Bool} (halive : ∀ a, alive a = !past a) (x : Option α) :
    Alike past (x.filter alive) x := by
  cases x with
  | none => exact .inl rfl
  | some a =>
    cases hover : past a with
    | false => exact .inl (Option.filter_some_pos (by rw [halive, hover, Bool.not_false]))
    | true =>
      refine .inr ⟨?_, ?_⟩
      · rw [Option.filter_some_neg (by rw [halive, hover]; decide)]
        exact nofun
      · intro b hb
        rw [← Option.some.inj hb]
        exact hover

/-- A dedup entry is over. -/
def forgotten (cfg : PushServiceConfig) (now seenAt : ℕ) : Bool := !seenWithin cfg now seenAt

theorem seenWithin_eq (now seenAt : ℕ) : seenWithin cfg now seenAt = !forgotten cfg now seenAt :=
  (Bool.not_not _).symm

theorem forgotten_mono {now later : ℕ} (hle : now ≤ later) (seenAt : ℕ)
    (h : forgotten cfg now seenAt = true) : forgotten cfg later seenAt = true := by
  simp only [forgotten, seenWithin, Bool.not_eq_true', decide_eq_false_iff_not, not_lt] at h ⊢
  omega

theorem expired_mono {now later : ℕ} (hle : now ≤ later) (entry : RateLimitEntry)
    (h : expired cfg now entry = true) : expired cfg later entry = true := by
  simp only [expired, decide_eq_true_eq] at h ⊢
  omega

/-- A window that is over is a fresh one after the reset. -/
theorem Gone.map_reset {now : ℕ} {x : Option RateLimitEntry} (h : Gone (expired cfg now) x) :
    x.map (resetExpired cfg now) = if x.any (expired cfg now) then some ⟨0, now⟩ else none := by
  cases x with
  | none => rfl
  | some e =>
    have hover := h e rfl
    rw [Option.map_some, Option.any_some, resetExpired, if_pos hover, if_pos hover]

/-- A window that is not over stays. -/
theorem map_reset_of_not_expired {now : ℕ} {x : Option RateLimitEntry}
    (h : x.any (expired cfg now) = false) : x.map (resetExpired cfg now) = x := by
  cases x with
  | none => rfl
  | some e =>
    rw [Option.any_some] at h
    rw [Option.map_some, resetExpired, if_neg (by rw [h]; decide)]

/-- The dedup check lets the request through to the budget. -/
def Passes (cfg : PushServiceConfig) (req : PushRequest) (now : ℕ) (seen : Option ℕ) : Prop :=
  req.isFrontendConnected = false ∧ seen.any (seenWithin cfg now) = false

/-- Past the dedup check the result is decided by the window after the reset. -/
theorem Passes.verdict_eq {req : PushRequest} {now : ℕ} {apns : Apns} {seen : Option ℕ}
    (h : Passes cfg req now seen) (entry : Option RateLimitEntry) :
    verdict cfg req now apns seen entry =
      if (entry.map (resetExpired cfg now)).any fun e => cfg.rateLimitPerMinute ≤ e.count then
        .rateLimited
      else if cfg.hasApnsClient then resultOfAnswer (apns (apnsPayload req))
      else .error := by
  rw [verdict, if_neg (by rw [h.1]; decide), if_neg (by rw [h.2]; decide)]

/-- Past the dedup check the result is about the budget or the gateway. -/
theorem Passes.verdict_ne {req : PushRequest} {now : ℕ} {seen : Option ℕ}
    (h : Passes cfg req now seen) (apns : Apns) (entry : Option RateLimitEntry) :
    verdict cfg req now apns seen entry ≠ .ws ∧ verdict cfg req now apns seen entry ≠ .deduped := by
  rw [h.verdict_eq]
  split
  · exact ⟨nofun, nofun⟩
  · split
    · cases apns (apnsPayload req) with
      | ok => exact ⟨nofun, nofun⟩
      | err deadToken reason =>
        cases deadToken with
        | true => exact ⟨nofun, nofun⟩
        | false => exact ⟨nofun, nofun⟩
    · exact ⟨nofun, nofun⟩

/-- A request with hope is delivered when its window is over or absent. -/
theorem Passes.delivered {req : PushRequest} {now : ℕ} {apns : Apns} {seen : Option ℕ}
    (h : Passes cfg req now seen) {entry : Option RateLimitEntry} (hover : Gone (expired cfg now) entry)
    (hhope : ¬Hopeless cfg req apns) : verdict cfg req now apns seen entry = .push := by
  obtain ⟨hlimit, hclient, hok⟩ : cfg.rateLimitPerMinute ≠ 0 ∧ cfg.hasApnsClient = true ∧
      apns (apnsPayload req) = .ok := by
    simpa [Hopeless, not_or] using hhope
  have hbudget : ((entry.map (resetExpired cfg now)).any fun e =>
      decide (cfg.rateLimitPerMinute ≤ e.count)) = false := by
    rw [hover.map_reset]
    split
    · simpa [Nat.pos_iff_ne_zero] using hlimit
    · rfl
  rw [h.verdict_eq, hbudget, if_neg (by decide), if_pos hclient, hok]
  rfl

/-- Past the dedup check, windows that are equal or both over give the same
result and are the same afterwards, unless one of them only is moved. -/
theorem Passes.agree {req : PushRequest} {now : ℕ} {apns : Apns} {seen seen' : Option ℕ}
    (h : Passes cfg req now seen) (h' : Passes cfg req now seen') {x y : Option RateLimitEntry}
    (hsame : Alike (expired cfg now) x y)
    (hmoves : Hopeless cfg req apns → x.any (expired cfg now) = y.any (expired cfg now)) :
    verdict cfg req now apns seen x = verdict cfg req now apns seen' y ∧
      entryAfter cfg now x (verdict cfg req now apns seen x) =
        entryAfter cfg now y (verdict cfg req now apns seen x) := by
  rcases hsame with rfl | ⟨hx, hy⟩
  · exact ⟨by rw [h.verdict_eq, h'.verdict_eq], rfl⟩
  · by_cases hhopeless : Hopeless cfg req apns
    · have hreset : x.map (resetExpired cfg now) = y.map (resetExpired cfg now) := by
        rw [hx.map_reset, hy.map_reset, hmoves hhopeless]
      obtain ⟨hws, hdeduped⟩ := h.verdict_ne apns x
      refine ⟨by rw [h.verdict_eq, h'.verdict_eq, hreset], ?_⟩
      cases hv : verdict cfg req now apns seen x with
      | ws => exact absurd hv hws
      | deduped => exact absurd hv hdeduped
      | push | rateLimited | error | deadToken => simp only [entryAfter, hreset]
    · have hfresh : ∀ z, Gone (expired cfg now) z → (z.map (resetExpired cfg now)).getD ⟨0, now⟩ = ⟨0, now⟩ := by
        intro z hz
        rw [hz.map_reset]
        split
        · rfl
        · rfl
      rw [h.delivered hx hhopeless, h'.delivered hy hhopeless]
      refine ⟨rfl, ?_⟩
      simp only [entryAfter, hfresh x hx, hfresh y hy]

/-- Past the dedup check, an undelivered request leaves a window that it does
not move as it was. -/
theorem Passes.entryAfter_eq {req : PushRequest} {now : ℕ} {apns : Apns} {seen : Option ℕ}
    (h : Passes cfg req now seen) {entry : Option RateLimitEntry}
    (hresult : verdict cfg req now apns seen entry ≠ .push)
    (hmoves : ¬(entry.any (expired cfg now) = true ∧ Hopeless cfg req apns)) :
    entryAfter cfg now entry (verdict cfg req now apns seen entry) = entry := by
  have hlive : entry.any (expired cfg now) = false := by
    by_contra hexpired
    rw [Bool.not_eq_false] at hexpired
    have hover : Gone (expired cfg now) entry := by
      rintro e rfl
      exact hexpired
    exact hresult (h.delivered hover fun hhopeless => hmoves ⟨hexpired, hhopeless⟩)
  cases hv : verdict cfg req now apns seen entry with
  | push => exact absurd hv hresult
  | ws | deduped => rfl
  | rateLimited | error | deadToken => exact map_reset_of_not_expired hlive

end Entries

section Runs

/-- The two states have the same entries, up to those that are over. -/
structure SameState (cfg : PushServiceConfig) (p : TwoRuns) : Prop where
  /-- Dedup entries. -/
  seen : ∀ key, Alike (forgotten cfg p.clock) (p.full.dedupSeen.lookup key) (p.thin.dedupSeen.lookup key)
  /-- Rate-limit windows. -/
  entry : ∀ key, Alike (expired cfg p.clock) (p.full.rateLimits.lookup key) (p.thin.rateLimits.lookup key)

/-- Later on they have still the same entries. -/
theorem SameState.later {p : TwoRuns} (h : SameState cfg p) {now : ℕ} (hle : p.clock ≤ now) :
    SameState cfg { p with clock := now } :=
  ⟨fun key => (h.seen key).mono (forgotten_mono hle), fun key => (h.entry key).mono (expired_mono hle)⟩

/-- A request meets the same dedup entry in both states. -/
theorem SameState.seenOf_same {p : TwoRuns} (h : SameState cfg p) (req : PushRequest) :
    Alike (forgotten cfg p.clock) (seenOf p.full req) (seenOf p.thin req) := by
  unfold seenOf
  cases dedupKey req with
  | none => exact .inl rfl
  | some key => exact h.seen key

/-- A request that both runs make has the same result in both and leaves the
same windows behind. -/
theorem SameState.verdict_agree {p : TwoRuns} (h : SameState cfg p) {req : PushRequest} {apns : Apns}
    (hmoves : MovesWindow cfg p.full (.request req p.clock apns) ↔
      MovesWindow cfg p.thin (.request req p.clock apns)) :
    verdict cfg req p.clock apns (seenOf p.full req) (entryOf p.full req) =
        verdict cfg req p.clock apns (seenOf p.thin req) (entryOf p.thin req) ∧
      Alike (expired cfg p.clock)
        (entryAfter cfg p.clock (entryOf p.full req)
          (verdict cfg req p.clock apns (seenOf p.full req) (entryOf p.full req)))
        (entryAfter cfg p.clock (entryOf p.thin req)
          (verdict cfg req p.clock apns (seenOf p.full req) (entryOf p.full req))) := by
  have hentry : Alike (expired cfg p.clock) (entryOf p.full req) (entryOf p.thin req) := h.entry _
  have hany := (h.seenOf_same req).any_eq (seenWithin_eq p.clock)
  by_cases hws : req.isFrontendConnected = true
  · have hv : ∀ inner, verdict cfg req p.clock apns (seenOf inner req) (entryOf inner req) = .ws :=
      fun inner => if_pos hws
    rw [hv, hv]
    exact ⟨rfl, hentry⟩
  · rw [Bool.not_eq_true] at hws
    by_cases hseen : (seenOf p.full req).any (seenWithin cfg p.clock) = true
    · have hv : ∀ inner, (seenOf inner req).any (seenWithin cfg p.clock) = true →
          verdict cfg req p.clock apns (seenOf inner req) (entryOf inner req) = .deduped := by
        intro inner hdup
        rw [verdict, if_neg (by rw [hws]; decide), if_pos hdup]
      rw [hv p.full hseen, hv p.thin (hany ▸ hseen)]
      exact ⟨rfl, hentry⟩
    · rw [Bool.not_eq_true] at hseen
      have hpass : Passes cfg req p.clock (seenOf p.full req) := ⟨hws, hseen⟩
      have hpass' : Passes cfg req p.clock (seenOf p.thin req) := ⟨hws, hany ▸ hseen⟩
      obtain ⟨hverdict, hafter⟩ := hpass.agree hpass' hentry fun hhopeless => by
        have hiff : (entryOf p.full req).any (expired cfg p.clock) = true ↔
            (entryOf p.thin req).any (expired cfg p.clock) = true := by
          constructor
          · exact fun hexpired => (hmoves.mp ⟨hws, hseen, hexpired, hhopeless⟩).2.2.1
          · exact fun hexpired => (hmoves.mpr ⟨hws, hany ▸ hseen, hexpired, hhopeless⟩).2.2.1
        exact Bool.eq_iff_iff.mpr hiff
      exact ⟨hverdict, .inl hafter⟩

/-- A request of both runs keeps the two states the same. -/
theorem SameState.request {p : TwoRuns} (h : SameState cfg p) {req : PushRequest} {apns : Apns}
    (hmoves : MovesWindow cfg p.full (.request req p.clock apns) ↔
      MovesWindow cfg p.thin (.request req p.clock apns)) :
    SameState cfg (p.step cfg ⟨.request req p.clock apns, true⟩) := by
  obtain ⟨hverdict, hafter⟩ := h.verdict_agree hmoves
  refine ⟨fun key => ?_, fun key => ?_⟩
  · simp only [TwoRuns.step, if_true, nextInner, sendOrDeliver_eq, dedupSeen_stateAfter,
      ← hverdict, PushOp.time]
    split
    · exact .inl rfl
    · exact h.seen key
  · simp only [TwoRuns.step, if_true, nextInner, sendOrDeliver_eq, rateLimits_stateAfter,
      ← hverdict, PushOp.time]
    split
    · exact hafter
    · exact h.entry key

/-- An undelivered request that moves no window leaves every entry as it was. -/
theorem lookup_of_undelivered {inner : Inner} {req : PushRequest} {now : ℕ} {apns : Apns}
    (hresult : resultOf cfg inner (.request req now apns) ≠ some .push)
    (hmoves : ¬MovesWindow cfg inner (.request req now apns)) (key : String) :
    (nextInner cfg inner (.request req now apns)).dedupSeen.lookup key =
        inner.dedupSeen.lookup key ∧
      (nextInner cfg inner (.request req now apns)).rateLimits.lookup key =
        inner.rateLimits.lookup key := by
  have hverdict : verdict cfg req now apns (seenOf inner req) (entryOf inner req) ≠ .push := by
    intro hpush
    apply hresult
    rw [resultOf, sendOrDeliver_eq, hpush]
  have hentry : entryAfter cfg now (entryOf inner req)
      (verdict cfg req now apns (seenOf inner req) (entryOf inner req)) = entryOf inner req := by
    by_cases hws : req.isFrontendConnected = true
    · rw [verdict, if_pos hws]
      rfl
    · rw [Bool.not_eq_true] at hws
      by_cases hseen : (seenOf inner req).any (seenWithin cfg now) = true
      · rw [verdict, if_neg (by rw [hws]; decide), if_pos hseen]
        rfl
      · rw [Bool.not_eq_true] at hseen
        have hpass : Passes cfg req now (seenOf inner req) := ⟨hws, hseen⟩
        exact hpass.entryAfter_eq hverdict fun hmove => hmoves ⟨hws, hseen, hmove⟩
  simp only [nextInner, sendOrDeliver_eq, dedupSeen_stateAfter, rateLimits_stateAfter, hentry,
    hverdict, false_and, if_false, true_and]
  split
  · next heq => rw [heq, entryOf]
  · rfl

/-- A cleanup of the full run, or of both, keeps the two states the same. -/
theorem SameState.cleanup {p : TwoRuns} (h : SameState cfg p) (kept : Bool) :
    SameState cfg (p.step cfg ⟨.cleanup p.clock, kept⟩) := by
  have hcleaned : ∀ inner : Inner, ∀ key,
      Alike (forgotten cfg p.clock) ((runCleanup cfg inner p.clock).dedupSeen.lookup key)
          (inner.dedupSeen.lookup key) ∧
        Alike (expired cfg p.clock) ((runCleanup cfg inner p.clock).rateLimits.lookup key)
          (inner.rateLimits.lookup key) := by
    intro inner key
    rw [dedupSeen_runCleanup, rateLimits_runCleanup]
    exact ⟨alike_filter (seenWithin_eq p.clock) _, alike_filter (fun _ => rfl) _⟩
  cases kept with
  | true =>
    refine ⟨fun key => ?_, fun key => ?_⟩
    · exact ((hcleaned p.full key).1.trans (h.seen key)).trans (hcleaned p.thin key).1.symm
    · exact ((hcleaned p.full key).2.trans (h.entry key)).trans (hcleaned p.thin key).2.symm
  | false =>
    exact ⟨fun key => (hcleaned p.full key).1.trans (h.seen key),
      fun key => (hcleaned p.full key).2.trans (h.entry key)⟩

/-- The steps under which the two runs agree. -/
def Steady (cfg : PushServiceConfig) (p : TwoRuns) (m : Marked) : Prop :=
  (Forward p m ∧ LeavesOutUndelivered cfg p m) ∧ MovesTogether cfg p m

/-- An operation keeps the two states the same. -/
theorem SameState.step (p : TwoRuns) (m : Marked) (h : SameState cfg p) (hm : Steady cfg p m) :
    SameState cfg (p.step cfg m) := by
  obtain ⟨⟨hforward, hundelivered⟩, hmoves⟩ := hm
  obtain ⟨op, kept⟩ := m
  have hlater := h.later hforward
  cases op with
  | cleanup now => exact hlater.cleanup kept
  | request req now apns =>
    cases kept with
    | true => exact hlater.request hmoves
    | false =>
      have hlookup := lookup_of_undelivered (hundelivered rfl) hmoves
      refine ⟨fun key => ?_, fun key => ?_⟩
      · exact (hlookup key).1 ▸ hlater.seen key
      · exact (hlookup key).2 ▸ hlater.entry key

/-- A common operation has the same result in both runs. -/
theorem SameState.resultOf_eq (p : TwoRuns) (m : Marked) (h : SameState cfg p)
    (hm : Steady cfg p m) (hkept : m.kept = true) :
    resultOf cfg p.full m.op = resultOf cfg p.thin m.op := by
  obtain ⟨⟨hforward, -⟩, hmoves⟩ := hm
  obtain ⟨op, kept⟩ := m
  obtain rfl : kept = true := hkept
  cases op with
  | cleanup now => rfl
  | request req now apns =>
    have hverdict := ((h.later hforward).verdict_agree hmoves).1
    simp only [resultOf, sendOrDeliver_eq]
    exact congrArg some hverdict

end Runs

/-- Along a clock that does not run backwards, leaving out cleanups and
requests without a delivery does not change the results of the others, as long
as no window is moved in one of the two runs only. -/
theorem undelivered_do_not_count (cfg : PushServiceConfig) (ms : List Marked)
    (hclock : Meets (TwoRuns.step cfg) Forward .new ms)
    (hout : Meets (TwoRuns.step cfg) (LeavesOutUndelivered cfg) .new ms)
    (hmoves : Meets (TwoRuns.step cfg) (MovesTogether cfg) .new ms) :
    fullResults cfg .new ms = thinResults cfg .new ms := by
  have hstart : SameState cfg .new := ⟨fun _ => .inl rfl, fun _ => .inl rfl⟩
  have hsteady : Meets (TwoRuns.step cfg) (Steady cfg) .new ms :=
    meets_and.mpr ⟨meets_and.mpr ⟨hclock, hout⟩, hmoves⟩
  exact results_agree cfg SameState.step SameState.resultOf_eq hstart hsteady

/-- A request of daemon d to the phone, without session or event. -/
def plainRequest : PushRequest := ⟨"phone", "d", "token", "title", "body", false, none, none⟩

/-- A gateway that delivers. -/
def gatewayUp : Apns := fun _ => .ok

/-- A gateway that fails. -/
def gatewayDown : Apns := fun _ => .err false "HTTP 500"

/-- A run with deliveries in two windows. A failed request in the first window
and a cleanup between them are left out. -/
def steadyRun : List Marked :=
  [⟨.request plainRequest 0 gatewayUp, true⟩, ⟨.request plainRequest 10 gatewayDown, false⟩,
    ⟨.cleanup 70000, false⟩, ⟨.request plainRequest 80000 gatewayUp, true⟩,
    ⟨.request { plainRequest with isFrontendConnected := true } 80000 gatewayUp, false⟩] ++
    List.replicate 5 ⟨.request plainRequest 90000 gatewayUp, true⟩

theorem undelivered_do_not_count_steadyRun :
    fullResults .standard .new steadyRun =
        List.replicate 6 (some .push) ++ [some .rateLimited] ∧
      fullResults .standard .new steadyRun = thinResults .standard .new steadyRun :=
  ⟨by decide +kernel, undelivered_do_not_count .standard steadyRun (by decide +kernel)
    (by decide +kernel) (by decide +kernel)⟩

/-- A run in which a failed request meets a window that is over. -/
def movedWindow : List Marked :=
  [⟨.request plainRequest 0 gatewayUp, true⟩, ⟨.request plainRequest 60000 gatewayDown, false⟩] ++
    List.replicate 5 ⟨.request plainRequest 100000 gatewayUp, true⟩ ++
    [⟨.request plainRequest 120000 gatewayUp, true⟩]

/-- The failed request decides whether the last request is delivered. -/
theorem undelivered_request_counts :
    fullResults .standard .new movedWindow = List.replicate 7 (some .push) ∧
      thinResults .standard .new movedWindow =
        List.replicate 6 (some .push) ++ [some .rateLimited] ∧
      ¬∀ cfg ms, Meets (TwoRuns.step cfg) Forward .new ms →
        Meets (TwoRuns.step cfg) (LeavesOutUndelivered cfg) .new ms →
        fullResults cfg .new ms = thinResults cfg .new ms := by
  have hfull : fullResults .standard .new movedWindow = List.replicate 7 (some .push) := by
    decide +kernel
  have hthin : thinResults .standard .new movedWindow =
      List.replicate 6 (some .push) ++ [some .rateLimited] := by
    decide +kernel
  refine ⟨hfull, hthin, fun hall => ?_⟩
  have hequal := hall .standard movedWindow (by decide +kernel) (by decide +kernel)
  rw [hfull, hthin] at hequal
  exact absurd hequal (by decide)

end Teleprompter.PushCounting
