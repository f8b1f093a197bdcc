import Teleprompter.StepRuns
import Teleprompter.AppSessionStore

/-!
# From the daemon's records to the app's sessions

The daemon publishes each record live and answers resume requests with
batches; the app asks to resume from its cursor and takes whatever arrives.
Frames and requests may be delivered in any order, repeatedly or never. A
frame the app has opened waits as a task of the main actor. A new connection
has new keys, so what was in flight on the old one is lost; a relaunch also
empties the store. The records that the store took are remembered beside it,
and nothing reads them back.
-/

namespace Teleprompter.RecordIngest

open FiniteDictionary StepRuns SessionRecords AppSessionStore

/-- A request of the app for the records above its cursor. -/
structure ResumeRequest where
  sid : String
  c : ℕ
  deriving DecidableEq

/-- The daemon, the app, and what is in flight between them. -/
structure IngestSystem where
  /-- The daemon's store. -/
  daemon : RecordStore
  /-- Resume requests sent on the current connection. -/
  requests : List ResumeRequest
  /-- Frames published on the current connection. -/
  wire : List SessionFrame
  /-- Frames the app has opened and not yet handled. -/
  tasks : List SessionFrame
  /-- The app's store. -/
  app : SessionStore
  /-- Records the app's store took, in order. -/
  applied : List SessionRec

/-- The app has just been launched. -/
def IngestSystem.initial (daemon : RecordStore) : IngestSystem :=
  ⟨daemon, [], [], [], SessionStore.empty, []⟩

/-- What can happen. Frames, requests and tasks are named by their place. -/
inductive IngestEvent where
  | runnerRec (msg : RecMsg) (binary : Option Octets) (disk : DiskOutcome)
  | relayResume (i : ℕ) (disk : DiskOutcome)
  | receive (i : ℕ)
  | runTask (i : ℕ)
  | onState (sid : String)
  | reconnect
  | relaunch

/-- The records of a frame. -/
def frameRecs : SessionFrame → List SessionRec
  | .record rec => [rec]
  | .batch _ recs => recs
  | .err _ _ => []

variable (codec : Base64Codec) (decoders : PayloadDecoders)

/-- The app handles a frame. -/
def onFrame (store : SessionStore) : SessionFrame → SessionStore
  | .record rec => store.appendRec decoders rec
  | .batch _ recs => store.appendBatch decoders recs
  | .err _ _ => store

/-- The records that a store takes out of a list, given one after another. -/
def taken : SessionStore → List SessionRec → List SessionRec
  | _, [] => []
  | store, rec :: recs =>
    (if rec.seq ≤ store.cursor rec.sid then [] else [rec]) ++
      taken (store.appendRec decoders rec) recs

/-- One event. -/
def ingestStep (s : IngestSystem) : IngestEvent → IngestSystem
  | .runnerRec msg binary disk =>
    let handled := handleRec codec s.daemon msg binary disk
    { s with daemon := handled.1, wire := s.wire ++ handled.2.2.toList }
  | .relayResume i disk =>
    match s.requests[i]? with
    | none => s
    | some request =>
      let handled := handleRelayResume codec s.daemon request.sid request.c disk
      { s with daemon := handled.1, wire := s.wire ++ [handled.2] }
  | .receive i => { s with tasks := s.tasks ++ s.wire[i]?.toList }
  | .runTask i =>
    match s.tasks[i]? with
    | none => s
    | some frame =>
      { s with
        tasks := s.tasks.eraseIdx i
        app := onFrame decoders s.app frame
        applied := s.applied ++ taken decoders s.app (frameRecs frame) }
  | .onState sid => { s with requests := s.requests ++ [⟨sid, s.app.cursor sid⟩] }
  | .reconnect => { s with requests := [], wire := [] }
  | .relaunch => IngestSystem.initial s.daemon

/-- The taken records of a session with a given number. -/
def IngestSystem.appliedAs (s : IngestSystem) (sid : String) (seq : ℕ) : List SessionRec :=
  s.applied.filter fun rec => rec.sid = sid ∧ rec.seq = seq

/-- The app took every record up to its cursors exactly once, and each shows
a row of the daemon. -/
def GapFree (s : IngestSystem) : Prop :=
  ∀ sid seq, 1 ≤ seq → seq ≤ s.app.cursor sid →
    ∃ rec, s.appliedAs sid seq = [rec] ∧ s.daemon.Holds rec

/-- A live record reaches the store only when the ones before it have. -/
def LiveFits (s : IngestSystem) : IngestEvent → Prop
  | .runTask i => ∀ rec, s.tasks[i]? = some (.record rec) → rec.seq ≤ s.app.cursor rec.sid + 1
  | _ => True

/-- Handling a frame is handling its records in order. -/
theorem onFrame_eq (store : SessionStore) (frame : SessionFrame) :
    onFrame decoders store frame = store.appendBatch decoders (frameRecs frame) := by
  cases frame <;> rfl

/-- A store and the records it took. -/
structure Ledger where
  /-- The store. -/
  store : SessionStore
  /-- What it took since it was empty. -/
  applied : List SessionRec

/-- Offer records to a store one after another. -/
def Ledger.offer (l : Ledger) (recs : List SessionRec) : Ledger :=
  ⟨l.store.appendBatch decoders recs, l.applied ++ taken decoders l.store recs⟩

/-- The taken records with a session and a number. -/
def Ledger.copies (l : Ledger) (sid : String) (seq : ℕ) : List SessionRec :=
  l.applied.filter fun rec => rec.sid = sid ∧ rec.seq = seq

/-- No taken record is above its cursor. -/
def Ledger.Below (l : Ledger) : Prop := ∀ rec ∈ l.applied, rec.seq ≤ l.store.cursor rec.sid

/-- Every number up to the cursor was taken exactly once. -/
def Ledger.Complete (l : Ledger) : Prop :=
  ∀ sid seq, 1 ≤ seq → seq ≤ l.store.cursor sid → ∃ rec, l.copies sid seq = [rec]

/-- Offering a first record, then the others. -/
theorem Ledger.offer_cons (l : Ledger) (rec : SessionRec) (recs : List SessionRec) :
    l.offer decoders (rec :: recs) = (l.offer decoders [rec]).offer decoders recs := by
  simp [Ledger.offer, taken, SessionStore.appendBatch]

/-- What one offered record changes. -/
theorem Ledger.offer_singleton (l : Ledger) (rec : SessionRec) :
    l.offer decoders [rec] = ⟨l.store.appendRec decoders rec,
      l.applied ++ if rec.seq ≤ l.store.cursor rec.sid then [] else [rec]⟩ := by
  simp [Ledger.offer, taken, SessionStore.appendBatch]

/-- Offering records never lowers a cursor. -/
theorem Ledger.le_cursor_offer (l : Ledger) (recs : List SessionRec) (sid : String) :
    l.store.cursor sid ≤ (l.offer decoders recs).store.cursor sid := by
  induction recs generalizing l with
  | nil => exact le_rfl
  | cons rec recs ih =>
    have hfirst := l.store.le_cursor_appendRec decoders rec sid
    have hrest := ih (l.offer decoders [rec])
    rw [l.offer_cons decoders rec recs]
    exact hfirst.trans hrest

/-- A taken record raises its cursor to its own number. -/
theorem Ledger.Below.offer_singleton {l : Ledger} (h : l.Below) (rec : SessionRec) :
    (l.offer decoders [rec]).Below := by
  intro r hr
  rw [l.offer_singleton decoders rec] at hr ⊢
  rcases List.mem_append.mp hr with hold | hnew
  · have hle := h r hold
    have hmono := l.store.le_cursor_appendRec decoders rec r.sid
    exact hle.trans hmono
  · by_cases hseq : rec.seq ≤ l.store.cursor rec.sid
    · rw [if_pos hseq] at hnew
      exact absurd hnew List.not_mem_nil
    · rw [if_neg hseq] at hnew
      rw [List.mem_singleton.mp hnew, l.store.cursor_appendRec decoders rec rec.sid, if_pos rfl]
      exact Nat.le_max_right _ _

/-- Offering records keeps all taken ones below their cursors. -/
theorem Ledger.Below.offer {l : Ledger} (h : l.Below) (recs : List SessionRec) :
    (l.offer decoders recs).Below := by
  induction recs generalizing l with
  | nil => simpa [Ledger.offer, taken, SessionStore.appendBatch] using h
  | cons rec recs ih =>
    rw [l.offer_cons decoders rec recs]
    exact ih (h.offer_singleton decoders rec)

/-- Numbers above the cursor have not been taken. -/
theorem Ledger.Below.copies_above {l : Ledger} (h : l.Below) {sid : String} {seq : ℕ}
    (hseq : l.store.cursor sid < seq) : l.copies sid seq = [] := by
  refine List.filter_eq_nil_iff.mpr fun rec hrec hsame => ?_
  obtain ⟨hsid, heq⟩ := of_decide_eq_true hsame
  have hle := h rec hrec
  rw [hsid] at hle
  omega

/-- A store that has every number takes the next one without a hole. -/
theorem Ledger.Complete.offer_singleton {l : Ledger} (h : l.Complete) (hb : l.Below)
    {rec : SessionRec} (hfits : rec.seq ≤ l.store.cursor rec.sid + 1) :
    (l.offer decoders [rec]).Complete := by
  rw [l.offer_singleton decoders rec]
  intro sid seq hpos hle
  by_cases hseq : rec.seq ≤ l.store.cursor rec.sid
  · have hsame : (l.store.appendRec decoders rec) = l.store := by
      rw [SessionStore.appendRec, if_pos hseq]
    rw [hsame] at hle
    simp only [hseq, if_true, List.append_nil]
    exact h sid seq hpos hle
  · have hcursor := l.store.cursor_appendRec decoders rec sid
    rw [hcursor] at hle
    simp only [hseq, if_false, Ledger.copies, List.filter_append]
    by_cases hnew : sid = rec.sid ∧ seq = rec.seq
    · have hnone : l.copies sid seq = [] := by
        refine hb.copies_above ?_
        rw [hnew.1, hnew.2]
        omega
      refine ⟨rec, ?_⟩
      rw [Ledger.copies] at hnone
      rw [hnone, hnew.1, hnew.2]
      simp
    · have hold : seq ≤ l.store.cursor sid := by
        by_cases hsid : sid = rec.sid
        · have hne : seq ≠ rec.seq := fun he => hnew ⟨hsid, he⟩
          rw [if_pos hsid, hsid] at hle
          rw [hsid]
          omega
        · rw [if_neg hsid] at hle
          exact hle
      obtain ⟨old, hcopies⟩ := h sid seq hpos hold
      refine ⟨old, ?_⟩
      rw [Ledger.copies] at hcopies
      have hother : ¬(rec.sid = sid ∧ rec.seq = seq) := fun he => hnew ⟨he.1.symm, he.2.symm⟩
      rw [hcopies]
      simp [hother]

/-- A record that skips a number leaves a hole. -/
theorem Ledger.Below.not_complete_offer {l : Ledger} (hb : l.Below) {rec : SessionRec}
    (hskips : l.store.cursor rec.sid + 1 < rec.seq) : ¬(l.offer decoders [rec]).Complete := by
  intro h
  have hcursor := l.store.cursor_appendRec decoders rec rec.sid
  rw [l.offer_singleton decoders rec] at h
  rw [if_pos rfl] at hcursor
  have hseq : ¬rec.seq ≤ l.store.cursor rec.sid := by omega
  have hbelow : l.store.cursor rec.sid + 1 ≤
      (l.store.appendRec decoders rec).cursor rec.sid := by
    rw [hcursor]
    omega
  obtain ⟨copy, hcopies⟩ := h rec.sid (l.store.cursor rec.sid + 1) (by omega) hbelow
  have hnone : l.copies rec.sid (l.store.cursor rec.sid + 1) = [] :=
    hb.copies_above (Nat.lt_succ_self _)
  have hother : ¬rec.seq = l.store.cursor rec.sid + 1 := by omega
  rw [Ledger.copies] at hnone
  rw [Ledger.copies, List.filter_append, hnone] at hcopies
  simp [hseq, hother] at hcopies

/-- Records that follow a cursor without a hole, split at the first. -/
theorem follows_cons {sid : String} {cursor : ℕ} {rec : SessionRec} {recs : List SessionRec}
    (h : Follows sid cursor (rec :: recs)) :
    rec.sid = sid ∧ rec.seq = cursor + 1 ∧ Follows sid (cursor + 1) recs := by
  obtain ⟨hsid, len, hseqs⟩ := h
  cases len with
  | zero => exact absurd hseqs (List.cons_ne_nil _ _)
  | succ len =>
    rw [List.map_cons, List.range'_succ, List.cons.injEq] at hseqs
    refine ⟨hsid rec List.mem_cons_self, hseqs.1, ?_, len, hseqs.2⟩
    exact fun r hr => hsid r (List.mem_cons_of_mem rec hr)

/-- A batch that follows an earlier cursor leaves no hole. -/
theorem Ledger.Complete.offer_batch {l : Ledger} (h : l.Complete) (hb : l.Below) {sid : String}
    {cursor : ℕ} {recs : List SessionRec} (hf : Follows sid cursor recs)
    (hle : cursor ≤ l.store.cursor sid) : (l.offer decoders recs).Complete := by
  induction recs generalizing l cursor with
  | nil => simpa [Ledger.offer, taken, SessionStore.appendBatch] using h
  | cons rec recs ih =>
    obtain ⟨hsid, hseq, hrest⟩ := follows_cons hf
    have hfits : rec.seq ≤ l.store.cursor rec.sid + 1 := by
      rw [hsid]
      omega
    have hnext : cursor + 1 ≤ (l.offer decoders [rec]).store.cursor sid := by
      have hcursor := l.store.cursor_appendRec decoders rec sid
      rw [if_pos hsid.symm] at hcursor
      rw [l.offer_singleton decoders rec]
      rw [hcursor]
      omega
    rw [l.offer_cons decoders rec recs]
    exact ih (h.offer_singleton decoders hb hfits) (hb.offer_singleton decoders rec) hrest hnext

/-- The app's store with what it took. -/
def IngestSystem.ledger (s : IngestSystem) : Ledger := ⟨s.app, s.applied⟩

/-- A frame in flight shows rows of the daemon; a batch follows a cursor that
the app has reached. -/
def SoundFrame (daemon : RecordStore) (app : SessionStore) (frame : SessionFrame) : Prop :=
  (∀ rec ∈ frameRecs frame, daemon.Holds rec) ∧
    ∀ sid recs, frame = .batch sid recs → ∃ c, c ≤ app.cursor sid ∧ Follows sid c recs

/-- What every run keeps, whatever is delivered when. -/
structure Background (s : IngestSystem) : Prop where
  /-- No taken record is above its cursor. -/
  below : s.ledger.Below
  /-- Taken records show rows of the daemon. -/
  held : ∀ rec ∈ s.applied, s.daemon.Holds rec
  /-- Requests name cursors that the app has reached. -/
  requested : ∀ request ∈ s.requests, request.c ≤ s.app.cursor request.sid
  /-- Frames on the wire are sound. -/
  wired : ∀ frame ∈ s.wire, SoundFrame s.daemon s.app frame
  /-- Opened frames are sound. -/
  opened : ∀ frame ∈ s.tasks, SoundFrame s.daemon s.app frame

/-- A sound frame stays sound while the daemon stores and the app advances. -/
theorem SoundFrame.later {daemon daemon' : RecordStore} {app app' : SessionStore}
    {frame : SessionFrame} (h : SoundFrame daemon app frame) (hd : daemon'.Extends daemon)
    (ha : ∀ sid, app.cursor sid ≤ app'.cursor sid) : SoundFrame daemon' app' frame := by
  refine ⟨fun rec hrec => (h.1 rec hrec).extends hd, fun sid recs hbatch => ?_⟩
  obtain ⟨c, hc, hf⟩ := h.2 sid recs hbatch
  exact ⟨c, hc.trans (ha sid), hf⟩

/-- Handling a frame offers its records. -/
theorem ledger_onFrame (s : IngestSystem) (frame : SessionFrame) (tasks : List SessionFrame) :
    ({ s with
      tasks := tasks
      app := onFrame decoders s.app frame
      applied := s.applied ++ taken decoders s.app (frameRecs frame) } : IngestSystem).ledger =
      s.ledger.offer decoders (frameRecs frame) := by
  simp only [IngestSystem.ledger, Ledger.offer, onFrame_eq]

/-- Taken records are among the offered ones. -/
theorem mem_of_mem_taken {store : SessionStore} {recs : List SessionRec} {rec : SessionRec}
    (h : rec ∈ taken decoders store recs) : rec ∈ recs := by
  induction recs generalizing store with
  | nil => exact h
  | cons first recs ih =>
    rcases List.mem_append.mp h with hfirst | hrest
    · by_cases hseq : first.seq ≤ store.cursor first.sid
      · rw [if_pos hseq] at hfirst
        exact absurd hfirst List.not_mem_nil
      · rw [if_neg hseq] at hfirst
        exact List.mem_cons.mpr (.inl (List.mem_singleton.mp hfirst))
    · exact List.mem_cons_of_mem first (ih hrest)

/-- A live record on the wire has its row. -/
theorem sound_handleRec {store : RecordStore} {msg : RecMsg} {binary : Option Octets}
    {disk : DiskOutcome} {frame : SessionFrame} (app : SessionStore)
    (h : frame ∈ (handleRec codec store msg binary disk).2.2.toList) :
    SoundFrame (handleRec codec store msg binary disk).1 app frame := by
  obtain ⟨rec, rfl, hholds, -⟩ := handleRec_frame (Option.mem_toList.mp h)
  refine ⟨fun r hr => ?_, fun sid recs hbatch => absurd hbatch nofun⟩
  rw [List.mem_singleton.mp hr]
  exact hholds

/-- The answer to a request of the app is sound. -/
theorem sound_handleRelayResume (store : RecordStore) {app : SessionStore} {sid : String} {c : ℕ}
    (disk : DiskOutcome) (hc : c ≤ app.cursor sid) :
    SoundFrame (handleRelayResume codec store sid c disk).1 app
      (handleRelayResume codec store sid c disk).2 := by
  rcases handleRelayResume_frame codec store sid c disk with ⟨recs, hframe, hf, hh⟩ | ⟨e, m, hframe⟩
  · rw [hframe]
    refine ⟨hh, fun sid' recs' hbatch => ?_⟩
    obtain ⟨rfl, rfl⟩ := SessionFrame.batch.inj hbatch
    exact ⟨c, hc, hf⟩
  · rw [hframe]
    exact ⟨fun rec hrec => absurd hrec List.not_mem_nil, fun sid recs hbatch => absurd hbatch nofun⟩

/-- Every event keeps the background. -/
theorem Background.step {s : IngestSystem} (h : Background s) (e : IngestEvent) :
    Background (ingestStep codec decoders s e) := by
  cases e with
  | runnerRec msg binary disk =>
    have hext := handleRec_extends codec s.daemon msg binary disk
    have hlater : ∀ frame, SoundFrame s.daemon s.app frame →
        SoundFrame (handleRec codec s.daemon msg binary disk).1 s.app frame :=
      fun frame hframe => hframe.later hext fun _ => le_rfl
    refine ⟨h.below, fun rec hrec => (h.held rec hrec).extends hext, h.requested, ?_,
      fun frame hframe => hlater frame (h.opened frame hframe)⟩
    intro frame hframe
    rcases List.mem_append.mp hframe with hold | hnew
    · exact hlater frame (h.wired frame hold)
    · exact sound_handleRec codec s.app hnew
  | relayResume i disk =>
    cases hreq : s.requests[i]? with
    | none => simpa only [ingestStep, hreq] using h
    | some request =>
      have hc := h.requested request (List.mem_of_getElem? hreq)
      have hext := handleRelayResume_extends codec s.daemon request.sid request.c disk
      have hlater : ∀ frame, SoundFrame s.daemon s.app frame →
          SoundFrame (handleRelayResume codec s.daemon request.sid request.c disk).1 s.app frame :=
        fun frame hframe => hframe.later hext fun _ => le_rfl
      simp only [ingestStep, hreq]
      refine ⟨h.below, fun rec hrec => (h.held rec hrec).extends hext, h.requested, ?_,
        fun frame hframe => hlater frame (h.opened frame hframe)⟩
      intro frame hframe
      rcases List.mem_append.mp hframe with hold | hnew
      · exact hlater frame (h.wired frame hold)
      · rw [List.mem_singleton.mp hnew]
        exact sound_handleRelayResume codec s.daemon disk hc
  | receive i =>
    refine ⟨h.below, h.held, h.requested, h.wired, ?_⟩
    intro frame hframe
    rcases List.mem_append.mp hframe with hold | hnew
    · exact h.opened frame hold
    · exact h.wired frame (List.mem_of_getElem? (Option.mem_toList.mp hnew))
  | runTask i =>
    cases htask : s.tasks[i]? with
    | none => simpa only [ingestStep, htask] using h
    | some frame =>
      have hsound := h.opened frame (List.mem_of_getElem? htask)
      have hmono : ∀ sid, s.app.cursor sid ≤ (onFrame decoders s.app frame).cursor sid := by
        intro sid
        rw [onFrame_eq]
        exact s.ledger.le_cursor_offer decoders (frameRecs frame) sid
      have hlater : ∀ other, SoundFrame s.daemon s.app other →
          SoundFrame s.daemon (onFrame decoders s.app frame) other :=
        fun other hother => hother.later s.daemon.extends_refl hmono
      simp only [ingestStep, htask]
      refine ⟨?_, ?_, fun request hreq => (h.requested request hreq).trans (hmono request.sid),
        fun other hother => hlater other (h.wired other hother),
        fun other hother => hlater other (h.opened other (List.mem_of_mem_eraseIdx hother))⟩
      · rw [ledger_onFrame]
        exact h.below.offer decoders (frameRecs frame)
      · intro rec hrec
        rcases List.mem_append.mp hrec with hold | hnew
        · exact h.held rec hold
        · exact hsound.1 rec (mem_of_mem_taken decoders hnew)
  | onState sid =>
    refine ⟨h.below, h.held, ?_, h.wired, h.opened⟩
    intro request hreq
    rcases List.mem_append.mp hreq with hold | hnew
    · exact h.requested request hold
    · rw [List.mem_singleton.mp hnew]
      exact le_rfl
  | reconnect =>
    exact ⟨h.below, h.held, fun _ hreq => absurd hreq List.not_mem_nil,
      fun _ hframe => absurd hframe List.not_mem_nil, h.opened⟩
  | relaunch =>
    exact ⟨fun _ hrec => absurd hrec List.not_mem_nil, fun _ hrec => absurd hrec List.not_mem_nil,
      fun _ hreq => absurd hreq List.not_mem_nil, fun _ hframe => absurd hframe List.not_mem_nil,
      fun _ hframe => absurd hframe List.not_mem_nil⟩

/-- Under the background, freedom from gaps is completeness of the ledger. -/
theorem gapFree_iff_complete {s : IngestSystem} (h : Background s) :
    GapFree s ↔ s.ledger.Complete := by
  constructor
  · intro hgap sid seq hpos hle
    obtain ⟨rec, hcopies, -⟩ := hgap sid seq hpos hle
    exact ⟨rec, hcopies⟩
  · intro hcomplete sid seq hpos hle
    obtain ⟨rec, hcopies⟩ := hcomplete sid seq hpos hle
    have hmem : rec ∈ s.appliedAs sid seq := by
      rw [IngestSystem.appliedAs]
      rw [Ledger.copies] at hcopies
      rw [show s.applied = s.ledger.applied from rfl, hcopies]
      exact List.mem_singleton.mpr rfl
    exact ⟨rec, hcopies, h.held rec (List.mem_of_mem_filter hmem)⟩

/-- Handling a task keeps the ledger complete exactly when a live record fits. -/
theorem complete_runTask_iff {s : IngestSystem} (h : Background s) (hg : s.ledger.Complete)
    {i : ℕ} {frame : SessionFrame} (htask : s.tasks[i]? = some frame) :
    (s.ledger.offer decoders (frameRecs frame)).Complete ↔
      LiveFits s (.runTask i) := by
  have hsound := h.opened frame (List.mem_of_getElem? htask)
  cases frame with
  | record rec =>
    constructor
    · intro hcomplete other hother
      obtain rfl := SessionFrame.record.inj (Option.some.inj (htask.symm.trans hother))
      by_contra hskips
      exact h.below.not_complete_offer decoders (Nat.lt_of_not_le hskips) hcomplete
    · intro hfits
      exact hg.offer_singleton decoders h.below (hfits rec htask)
  | batch sid recs =>
    obtain ⟨c, hc, hf⟩ := hsound.2 sid recs rfl
    refine ⟨fun _ rec hrec => ?_, fun _ => hg.offer_batch decoders h.below hf hc⟩
    exact absurd (htask.symm.trans hrec) nofun
  | err e m =>
    refine ⟨fun _ rec hrec => absurd (htask.symm.trans hrec) nofun, fun _ => ?_⟩
    simpa [Ledger.offer, taken, frameRecs, SessionStore.appendBatch] using hg

/-- An event leaves a gap-free system gap free exactly when it hands the
store no live record that skips one. -/
theorem gapFree_step_iff {s : IngestSystem} (h : Background s) (hg : GapFree s)
    (e : IngestEvent) : GapFree (ingestStep codec decoders s e) ↔ LiveFits s e := by
  have hcomplete := (gapFree_iff_complete h).mp hg
  rw [gapFree_iff_complete (h.step codec decoders e)]
  cases e with
  | runnerRec msg binary disk => exact ⟨fun _ => trivial, fun _ => hcomplete⟩
  | relayResume i disk =>
    cases hreq : s.requests[i]? with
    | none => simpa [ingestStep, hreq, LiveFits] using hcomplete
    | some request =>
      simp only [ingestStep, hreq]
      exact ⟨fun _ => trivial, fun _ => hcomplete⟩
  | receive i => exact ⟨fun _ => trivial, fun _ => hcomplete⟩
  | runTask i =>
    cases htask : s.tasks[i]? with
    | none => simpa [ingestStep, htask, LiveFits] using hcomplete
    | some frame =>
      simp only [ingestStep, htask]
      rw [ledger_onFrame]
      exact complete_runTask_iff decoders h hcomplete htask
  | onState sid => exact ⟨fun _ => trivial, fun _ => hcomplete⟩
  | reconnect => exact ⟨fun _ => trivial, fun _ => hcomplete⟩
  | relaunch =>
    refine ⟨fun _ => trivial, fun _ sid seq hpos hle => ?_⟩
    have hzero : (IngestSystem.initial s.daemon).ledger.store.cursor sid = 0 := rfl
    rw [ingestStep, hzero] at hle
    omega

/-- A run never leaves a gap below a cursor exactly when no live record
reaches the store before the ones it follows. Batches always fit. -/
theorem gap_free_iff (daemon : RecordStore) (events : List IngestEvent) :
    (∀ before, before <+: events →
      GapFree (runFrom (ingestStep codec decoders) (IngestSystem.initial daemon) before)) ↔
      Meets (ingestStep codec decoders) LiveFits (IngestSystem.initial daemon) events := by
  have hnil : ∀ {α : Type} {p : α → Prop}, ∀ a ∈ ([] : List α), p a :=
    fun a ha => absurd ha List.not_mem_nil
  have hinit : Background (IngestSystem.initial daemon) := ⟨hnil, hnil, hnil, hnil, hnil⟩
  have hgap : GapFree (IngestSystem.initial daemon) := by
    intro sid seq hpos hle
    have hzero : (IngestSystem.initial daemon).app.cursor sid = 0 := rfl
    rw [hzero] at hle
    omega
  have hbase : ∀ s e, Background s → Background (ingestStep codec decoders s e) :=
    fun s e h => h.step codec decoders e
  have hstep : ∀ s e, Background s → GapFree s →
      (GapFree (ingestStep codec decoders s e) ↔ LiveFits s e) :=
    fun s e h hg => gapFree_step_iff codec decoders h hg e
  exact forall_prefix_iff_meets hbase hstep hinit hgap events

/-- Decoders on the empty payload. -/
def emptyPayloadDecoders : PayloadDecoders := ⟨fun _ => some [], fun _ => "", fun _ => none⟩

/-- A live record overtakes the backfill: one record is stored before the app
connects, the app asks to resume from zero, and the next record arrives
before the batch. -/
def overtakingRun : List IngestEvent :=
  [.runnerRec (emptyIo "s") none ⟨true, true, true⟩, .reconnect, .onState "s",
    .runnerRec (emptyIo "s") none ⟨true, true, true⟩, .relayResume 0 ⟨true, true, true⟩,
    .receive 0, .runTask 0, .receive 1, .runTask 0]

/-- The state after the live record and the batch were handled. -/
def overtaken : IngestSystem :=
  runFrom (ingestStep emptyPayloadCodec emptyPayloadDecoders)
    (IngestSystem.initial ⟨∅, ∅⟩) overtakingRun

/-- The cursor is two, the batch with both records was handled, and the first
record was never taken. -/
theorem gap_left_by_overtaking :
    overtaken.app.cursor "s" = 2 ∧ overtaken.tasks = [] ∧
      overtaken.appliedAs "s" 1 = [] ∧ ¬GapFree overtaken := by
  have hcursor : overtaken.app.cursor "s" = 2 := by decide +kernel
  have hnone : overtaken.appliedAs "s" 1 = [] := by decide +kernel
  refine ⟨hcursor, by decide +kernel, hnone, fun h => ?_⟩
  obtain ⟨rec, hrec, -⟩ := h "s" 1 le_rfl (by rw [hcursor]; decide)
  rw [hnone] at hrec
  exact List.cons_ne_nil _ _ hrec.symm

end Teleprompter.RecordIngest
