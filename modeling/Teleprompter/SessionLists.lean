import Teleprompter.FiniteDictionary
import Teleprompter.StepRuns
import Mathlib.Data.List.Perm.Basic
import Mathlib.Data.Rat.Defs

/-!
# The session lists of several daemons

The app shows one flat list of sessions. The hello of a daemon replaces the bucket
of the daemon and rebuilds the flat list from all buckets; a state frame changes the
flat list only. What another daemon's session shows therefore survives a hello
exactly when it is what the bucket of its daemon holds.
-/

namespace Teleprompter.SessionLists

open FiniteDictionary StepRuns

section Model

/-- Metadata of a session as daemons report it. -/
structure SessionMeta where
  sid : String
  state : String
  cwd : String
  createdAt : ℚ
  updatedAt : ℚ
  lastSeq : ℤ
  deriving DecidableEq

/-- The sessions of one daemon. -/
abbrev Bucket := Dict String SessionMeta

/-- The order in which a dictionary is read is left open. -/
structure Iteration where
  arrange : List Bucket → List Bucket
  arrange_perm : ∀ buckets, (arrange buckets).Perm buckets

/-- What the app shows and what each daemon listed. -/
structure SessionStore where
  sessions : Dict String SessionMeta
  sessionsByDaemon : Dict String Bucket

/-- A store with the sessions of the previous launch. -/
def SessionStore.restored (sessions : Dict String SessionMeta) : SessionStore := ⟨sessions, ∅⟩

/-- Enter every session of a list; the last entry of a sid stays. -/
def insertAll (sessions : Dict String SessionMeta) (metas : List SessionMeta) :
    Dict String SessionMeta :=
  metas.foldl (fun sessions m => sessions.insert m.sid m) sessions

/-- Enter every session of a bucket. -/
def mergeBucket (merged : Dict String SessionMeta) (bucket : Bucket) : Dict String SessionMeta :=
  bucket.entries.foldl (fun merged entry => merged.insert entry.1 entry.2) merged

/-- The sid of a session that is still being created. -/
def isPlaceholder (sid : String) : Bool := "pending-".toList.isPrefixOf sid.toList

/-- Replace the bucket of a daemon and rebuild the list from all buckets, without
placeholders. -/
def replaceSessionsForDaemon (iteration : Iteration) (store : SessionStore) (daemonId : String)
    (metas : List SessionMeta) : SessionStore :=
  let sessionsByDaemon := store.sessionsByDaemon.insert daemonId (insertAll ∅ metas)
  let buckets := iteration.arrange (sessionsByDaemon.entries.map Sigma.snd)
  ⟨retain (fun sid _ => !isPlaceholder sid) (buckets.foldl mergeBucket ∅), sessionsByDaemon⟩

/-- Refresh the metadata of sessions. -/
def upsertSessions (store : SessionStore) (metas : List SessionMeta) : SessionStore :=
  { store with sessions := insertAll store.sessions metas }

/-- Refresh the metadata of one session. -/
def appendState (store : SessionStore) (m : SessionMeta) : SessionStore :=
  { store with sessions := store.sessions.insert m.sid m }

/-- Drop a session, also from every bucket. -/
def removeSession (store : SessionStore) (sid : String) : SessionStore :=
  ⟨store.sessions.erase sid, mapValues (fun _ bucket => bucket.erase sid) store.sessionsByDaemon⟩

/-- Drop sessions. -/
def removeSessions (store : SessionStore) (sids : List String) : SessionStore :=
  sids.foldl removeSession store

/-- What changes the lists. -/
inductive Event where
  | hello (daemonId : String) (metas : List SessionMeta)
  | upsert (metas : List SessionMeta)
  | state (m : SessionMeta)
  | remove (sids : List String)

/-- One change. -/
def step (iteration : Iteration) (store : SessionStore) : Event → SessionStore
  | .hello daemonId metas => replaceSessionsForDaemon iteration store daemonId metas
  | .upsert metas => upsertSessions store metas
  | .state m => appendState store m
  | .remove sids => removeSessions store sids

end Model

section Statement

variable (owner : String → String)

/-- Daemons list their own sessions. -/
def Owned : Event → Prop
  | .hello daemonId metas => ∀ m ∈ metas, owner m.sid = daemonId
  | _ => True

/-- A hello leaves the sessions of other daemons as they are shown. -/
def KeepsOthers (iteration : Iteration) (store : SessionStore) : Event → Prop
  | .hello daemonId metas => ∀ sid, owner sid ≠ daemonId →
      (step iteration store (.hello daemonId metas)).sessions.lookup sid = store.sessions.lookup sid
  | _ => True

/-- What was said about each session. -/
structure Reports where
  /-- The last metadata: of a list of its daemon, of a frame or of the previous
  launch. -/
  reported : String → Option SessionMeta
  /-- What the last list of its daemon says. -/
  listed : String → Option SessionMeta

/-- The reports of a launch. -/
def Reports.restored (sessions : Dict String SessionMeta) : Reports :=
  ⟨sessions.lookup, fun _ => none⟩

/-- What a list says about a session: its last entry for it. -/
def lastOf (metas : List SessionMeta) (sid : String) : Option SessionMeta :=
  (metas.filter (·.sid = sid)).getLast?

/-- Placeholders are not shown. -/
def shown (sid : String) (m : Option SessionMeta) : Option SessionMeta :=
  if isPlaceholder sid then none else m

/-- A list speaks about the sessions of its daemon, a frame about the sessions it
names, and nothing is left of a removed session. -/
def reportStep (reports : Reports) : Event → Reports
  | .hello daemonId metas =>
    ⟨fun sid => if owner sid = daemonId then shown sid (lastOf metas sid) else reports.reported sid,
      fun sid => if owner sid = daemonId then lastOf metas sid else reports.listed sid⟩
  | .upsert metas => { reports with reported := fun sid => (lastOf metas sid).or (reports.reported sid) }
  | .state m =>
    { reports with reported := fun sid => if sid = m.sid then some m else reports.reported sid }
  | .remove sids =>
    ⟨fun sid => if sid ∈ sids then none else reports.reported sid,
      fun sid => if sid ∈ sids then none else reports.listed sid⟩

/-- When a daemon's list arrives, the last thing said about each session of another
daemon is what its own daemon's list said. -/
def Settled (reports : Reports) : Event → Prop
  | .hello daemonId _ => ∀ sid, owner sid ≠ daemonId →
      reports.reported sid = shown sid (reports.listed sid)
  | _ => True

end Statement

section Lookups

/-- What a list leaves of the entries before it. -/
theorem lookup_insertAll (sessions : Dict String SessionMeta) (metas : List SessionMeta)
    (sid : String) :
    (insertAll sessions metas).lookup sid = (lastOf metas sid).or (sessions.lookup sid) := by
  induction metas using List.reverseRecOn with
  | nil => rfl
  | append_singleton metas m ih =>
    rw [insertAll, List.foldl_append, List.foldl_cons, List.foldl_nil, lookup_insert_eq, lastOf,
      List.filter_append]
    by_cases hsid : sid = m.sid
    · have hsingle : [m].filter (·.sid = sid) = [m] := by simp [hsid]
      rw [if_pos hsid, hsingle, List.getLast?_concat, Option.some_or]
    · have hsingle : [m].filter (·.sid = sid) = [] := by simp [Ne.symm hsid]
      rw [if_neg hsid, hsingle, List.append_nil]
      exact ih

/-- What the entries of a bucket leave of those before. -/
theorem lookup_foldl_insert {entries : List (Sigma fun _ : String => SessionMeta)}
    (hkeys : entries.NodupKeys) (merged : Dict String SessionMeta) (sid : String) :
    (entries.foldl (fun merged entry => merged.insert entry.1 entry.2) merged).lookup sid =
      (entries.dlookup sid).or (merged.lookup sid) := by
  induction entries generalizing merged with
  | nil => rfl
  | cons entry entries ih =>
    obtain ⟨hentry, hrest⟩ := List.nodupKeys_cons.mp hkeys
    rw [List.foldl_cons, ih hrest, lookup_insert_eq]
    by_cases hsid : sid = entry.1
    · subst hsid
      rw [if_pos rfl, List.dlookup_cons_eq, List.dlookup_eq_none.mpr hentry]
      rfl
    · rw [if_neg hsid, List.dlookup_cons_ne entries entry hsid]

/-- What a bucket leaves of the entries before it. -/
theorem lookup_mergeBucket (merged : Dict String SessionMeta) (bucket : Bucket) (sid : String) :
    (mergeBucket merged bucket).lookup sid = (bucket.lookup sid).or (merged.lookup sid) :=
  lookup_foldl_insert bucket.nodupKeys merged sid

/-- The last bucket that has a session decides. -/
theorem lookup_foldl_mergeBucket (buckets : List Bucket) (merged : Dict String SessionMeta)
    (sid : String) :
    (buckets.foldl mergeBucket merged).lookup sid =
      (buckets.reverse.findSome? (·.lookup sid)).or (merged.lookup sid) := by
  induction buckets generalizing merged with
  | nil => rfl
  | cons bucket buckets ih =>
    rw [List.foldl_cons, ih, lookup_mergeBucket, List.reverse_cons, List.findSome?_append,
      List.findSome?_singleton, Option.or_assoc]

/-- Buckets that agree on a session show what they agree on. -/
theorem lookup_rebuilt {buckets : List Bucket} {sid : String} {listed : Option SessionMeta}
    (hagree : ∀ bucket ∈ buckets, bucket.lookup sid = none ∨ bucket.lookup sid = listed)
    (hlisted : ∀ m, listed = some m → ∃ bucket ∈ buckets, bucket.lookup sid = some m) :
    (buckets.foldl mergeBucket ∅).lookup sid = listed := by
  have hempty : (∅ : Dict String SessionMeta).lookup sid = none := rfl
  rw [lookup_foldl_mergeBucket, hempty, Option.or_none]
  cases hfound : buckets.reverse.findSome? (·.lookup sid) with
  | none =>
    rw [List.findSome?_eq_none_iff] at hfound
    cases listed with
    | none => rfl
    | some m =>
      obtain ⟨bucket, hmem, hbucket⟩ := hlisted m rfl
      rw [hfound bucket (List.mem_reverse.mpr hmem)] at hbucket
      cases hbucket
  | some m =>
    obtain ⟨bucket, hmem, hbucket⟩ := List.exists_of_findSome?_eq_some hfound
    rcases hagree bucket (List.mem_reverse.mp hmem) with hnone | hsome
    · rw [hnone] at hbucket
      cases hbucket
    · exact hbucket.symm.trans hsome

end Lookups

section Agreement

variable {owner : String → String} {iteration : Iteration} {store : SessionStore}
  {reports : Reports}

/-- What the bucket of a daemon says about a session. -/
def inBucket (store : SessionStore) (daemonId sid : String) : Option SessionMeta :=
  (store.sessionsByDaemon.lookup daemonId).bind (·.lookup sid)

/-- The store shows what was reported, and the buckets hold what was listed. -/
structure Agrees (owner : String → String) (store : SessionStore) (reports : Reports) : Prop where
  sessions : ∀ sid, store.sessions.lookup sid = reports.reported sid
  buckets : ∀ daemonId sid,
    inBucket store daemonId sid = if owner sid = daemonId then reports.listed sid else none

/-- The buckets after a hello. -/
theorem inBucket_hello (daemonId : String) (metas : List SessionMeta) (daemonId' sid : String) :
    inBucket (replaceSessionsForDaemon iteration store daemonId metas) daemonId' sid =
      if daemonId' = daemonId then lastOf metas sid else inBucket store daemonId' sid := by
  rw [inBucket, replaceSessionsForDaemon, lookup_insert_eq]
  split
  · rw [Option.bind_some, lookup_insertAll]
    exact Option.or_none
  · rfl

/-- The rebuilt list shows what the buckets hold, when they are the sessions' own. -/
theorem lookup_hello {daemonId : String} {metas : List SessionMeta} {listed : String → Option SessionMeta}
    (hbuckets : ∀ daemonId' sid,
      inBucket (replaceSessionsForDaemon iteration store daemonId metas) daemonId' sid =
        if owner sid = daemonId' then listed sid else none) (sid : String) :
    (replaceSessionsForDaemon iteration store daemonId metas).sessions.lookup sid =
      shown sid (listed sid) := by
  have hrebuilt : ((iteration.arrange ((store.sessionsByDaemon.insert daemonId
      (insertAll ∅ metas)).entries.map Sigma.snd)).foldl mergeBucket ∅).lookup sid = listed sid := by
    refine lookup_rebuilt ?_ ?_
    · intro bucket hbucket
      have hmem := (iteration.arrange_perm _).mem_iff.mp hbucket
      obtain ⟨⟨daemonId', bucket'⟩, hentry, rfl⟩ := List.mem_map.mp hmem
      have hheld := hbuckets daemonId' sid
      have hlookup : (store.sessionsByDaemon.insert daemonId (insertAll ∅ metas)).lookup daemonId' =
          some bucket' := AList.mem_lookup_iff.mpr hentry
      rw [inBucket, replaceSessionsForDaemon, hlookup, Option.bind_some] at hheld
      dsimp only
      rw [hheld]
      split
      · exact .inr rfl
      · exact .inl rfl
    · intro m hm
      have hheld := hbuckets (owner sid) sid
      rw [if_pos rfl, hm] at hheld
      obtain ⟨bucket, hbucket, hlookup⟩ := Option.bind_eq_some_iff.mp hheld
      refine ⟨bucket, (iteration.arrange_perm _).mem_iff.mpr ?_, hlookup⟩
      exact List.mem_map.mpr ⟨⟨owner sid, bucket⟩, AList.mem_lookup_iff.mp hbucket, rfl⟩
  rw [replaceSessionsForDaemon, lookup_retain, hrebuilt, shown]
  cases hplaceholder : isPlaceholder sid with
  | true =>
    cases listed sid with
    | none => rfl
    | some m => simp [Option.filter]
  | false =>
    cases listed sid with
    | none => rfl
    | some m => simp [Option.filter]

/-- Removing one session leaves the others in their buckets. -/
theorem inBucket_removeSession (sid' daemonId sid : String) :
    inBucket (removeSession store sid') daemonId sid =
      if sid = sid' then none else inBucket store daemonId sid := by
  rw [inBucket, inBucket, removeSession, lookup_mapValues]
  cases store.sessionsByDaemon.lookup daemonId with
  | none => rw [Option.map_none, Option.bind_none, ite_self]
  | some bucket => rw [Option.map_some, Option.bind_some, Option.bind_some, lookup_erase_eq]

/-- Removing sessions leaves the others. -/
theorem lookup_removeSessions (sids : List String) (sid : String) :
    (removeSessions store sids).sessions.lookup sid =
      if sid ∈ sids then none else store.sessions.lookup sid := by
  induction sids generalizing store with
  | nil => rfl
  | cons sid' sids ih =>
    rw [removeSessions, List.foldl_cons, ← removeSessions, ih, removeSession, lookup_erase_eq]
    by_cases hsid : sid = sid'
    · rw [if_pos hsid, ite_self, if_pos (hsid ▸ List.mem_cons_self)]
    · rw [if_neg hsid]
      simp [hsid]

/-- Removing sessions leaves the others in their buckets. -/
theorem inBucket_removeSessions (sids : List String) (daemonId sid : String) :
    inBucket (removeSessions store sids) daemonId sid =
      if sid ∈ sids then none else inBucket store daemonId sid := by
  induction sids generalizing store with
  | nil => rfl
  | cons sid' sids ih =>
    rw [removeSessions, List.foldl_cons, ← removeSessions, ih, inBucket_removeSession]
    by_cases hsid : sid = sid'
    · rw [if_pos hsid, ite_self, if_pos (hsid ▸ List.mem_cons_self)]
    · rw [if_neg hsid]
      simp [hsid]

/-- A list of a daemon says nothing about the sessions of others. -/
theorem lastOf_eq_none {daemonId sid : String} {metas : List SessionMeta}
    (howned : ∀ m ∈ metas, owner m.sid = daemonId) (hother : owner sid ≠ daemonId) :
    lastOf metas sid = none := by
  have hempty : metas.filter (·.sid = sid) = [] := by
    refine List.filter_eq_nil_iff.mpr fun m hm hsid => hother ?_
    rw [← of_decide_eq_true hsid]
    exact howned m hm
  rw [lastOf, hempty]
  rfl

/-- The buckets hold what was listed after a hello. -/
theorem Agrees.inBucket_hello (h : Agrees owner store reports) {daemonId : String}
    {metas : List SessionMeta} (howned : ∀ m ∈ metas, owner m.sid = daemonId)
    (daemonId' sid : String) :
    inBucket (replaceSessionsForDaemon iteration store daemonId metas) daemonId' sid =
      if owner sid = daemonId' then
        (reportStep owner reports (.hello daemonId metas)).listed sid else none := by
  rw [SessionLists.inBucket_hello, reportStep]
  dsimp only
  by_cases hdaemon : daemonId' = daemonId
  · subst hdaemon
    rw [if_pos rfl]
    by_cases howner : owner sid = daemonId'
    · rw [if_pos howner, if_pos howner]
    · rw [if_neg howner]
      exact lastOf_eq_none howned howner
  · rw [if_neg hdaemon, h.buckets]
    by_cases howner : owner sid = daemonId'
    · rw [if_pos howner, if_pos howner, if_neg (howner ▸ hdaemon)]
    · rw [if_neg howner, if_neg howner]

/-- After a hello the app shows what was listed. -/
theorem Agrees.lookup_hello (h : Agrees owner store reports) (iteration : Iteration)
    {daemonId : String} {metas : List SessionMeta} (howned : ∀ m ∈ metas, owner m.sid = daemonId)
    (sid : String) :
    (replaceSessionsForDaemon iteration store daemonId metas).sessions.lookup sid =
      shown sid ((reportStep owner reports (.hello daemonId metas)).listed sid) :=
  SessionLists.lookup_hello (h.inBucket_hello howned) sid

/-- A hello keeps the sessions of other daemons exactly when what was reported of
them is what was listed. -/
theorem Agrees.keepsOthers_iff (h : Agrees owner store reports) (iteration : Iteration) {e : Event}
    (howned : Owned owner e) : KeepsOthers owner iteration store e ↔ Settled owner reports e := by
  cases e with
  | hello daemonId metas =>
    refine forall₂_congr fun sid hother => ?_
    have hlisted : (reportStep owner reports (.hello daemonId metas)).listed sid =
        reports.listed sid := if_neg hother
    rw [step, h.lookup_hello iteration howned, hlisted, h.sessions sid]
    exact eq_comm
  | upsert metas => exact Iff.rfl
  | state m => exact Iff.rfl
  | remove sids => exact Iff.rfl

/-- The agreement goes on, when a hello finds the sessions of other daemons settled. -/
theorem Agrees.next (h : Agrees owner store reports) (iteration : Iteration) {e : Event}
    (howned : Owned owner e) (hsettled : Settled owner reports e) :
    Agrees owner (step iteration store e) (reportStep owner reports e) := by
  cases e with
  | hello daemonId metas =>
    refine ⟨fun sid => ?_, h.inBucket_hello howned⟩
    rw [step, h.lookup_hello iteration howned, reportStep]
    dsimp only
    by_cases howner : owner sid = daemonId
    · rw [if_pos howner, if_pos howner]
    · rw [if_neg howner, if_neg howner]
      exact (hsettled sid howner).symm
  | upsert metas =>
    refine ⟨fun sid => ?_, h.buckets⟩
    exact (lookup_insertAll store.sessions metas sid).trans (by rw [h.sessions]; rfl)
  | state m =>
    refine ⟨fun sid => ?_, h.buckets⟩
    exact (lookup_insert_eq store.sessions m.sid sid m).trans (by rw [h.sessions]; rfl)
  | remove sids =>
    refine ⟨fun sid => ?_, fun daemonId sid => ?_⟩
    · exact (lookup_removeSessions sids sid).trans (by rw [h.sessions]; rfl)
    · rw [step, inBucket_removeSessions, h.buckets, reportStep]
      dsimp only
      split
      · rw [ite_self]
      · rfl

end Agreement

section Runs

/-- In every run, each hello leaves the sessions of other daemons as they are shown
exactly when it finds them settled. -/
theorem Agrees.meets_iff {owner : String → String} (iteration : Iteration) {store : SessionStore}
    {reports : Reports} (h : Agrees owner store reports) {events : List Event}
    (howned : ∀ e ∈ events, Owned owner e) :
    Meets (step iteration) (KeepsOthers owner iteration) store events ↔
      Meets (reportStep owner) (Settled owner) reports events := by
  induction events generalizing store reports with
  | nil => exact Iff.rfl
  | cons e events ih =>
    obtain ⟨he, hrest⟩ := List.forall_mem_cons.mp howned
    rw [Meets, Meets, h.keepsOthers_iff iteration he]
    exact and_congr_right fun hsettled => ih (h.next iteration he hsettled) hrest

/-- Each hello of a run leaves the sessions of other daemons as they are shown exactly
when it finds, for each of them, that the last thing said about it is what the last
list of its daemon says. -/
theorem hellos_keep_others_iff (owner : String → String) (iteration : Iteration)
    (restored : Dict String SessionMeta) {events : List Event}
    (howned : ∀ e ∈ events, Owned owner e) :
    Meets (step iteration) (KeepsOthers owner iteration) (SessionStore.restored restored) events ↔
      Meets (reportStep owner) (Settled owner) (Reports.restored restored) events := by
  refine Agrees.meets_iff iteration ⟨fun sid => rfl, fun daemonId sid => ?_⟩ howned
  exact (ite_self none).symm

/-- A session in a state. -/
def sampleMeta (sid state : String) : SessionMeta := ⟨sid, state, "/w", 1, 2, 3⟩

/-- Two daemons with one session each. -/
def sampleOwner (sid : String) : String := if sid = "a1" then "a" else "b"

/-- Dictionaries that are read in their own order. -/
def plainIteration : Iteration := ⟨id, List.Perm.refl⟩

/-- Each daemon lists its session. -/
def listedRun : List Event :=
  [.hello "a" [sampleMeta "a1" "running"], .hello "b" [sampleMeta "b1" "running"]]

/-- Two lists in a row keep each other's sessions. -/
theorem hellos_keep_others_listedRun :
    Meets (step plainIteration) (KeepsOthers sampleOwner plainIteration)
      (SessionStore.restored ∅) listedRun := by
  have howned : ∀ e ∈ listedRun, Owned sampleOwner e := by
    intro e he
    simp only [listedRun, List.mem_cons, List.not_mem_nil, or_false] at he
    rcases he with rfl | rfl
    · rw [Owned]
      decide
    · rw [Owned]
      decide
  refine (hellos_keep_others_iff sampleOwner plainIteration ∅ howned).mpr ⟨?_, ?_, trivial⟩
  · intro sid _
    exact (ite_self none).symm
  · intro sid hother
    have hsid : sid = "a1" := by
      by_contra hne
      exact hother (if_neg hne)
    rw [hsid]
    decide +kernel

/-- A session stops between the lists of its own and of another daemon. -/
def stoppedRun : List Event :=
  [.hello "a" [sampleMeta "a1" "running"], .state (sampleMeta "a1" "stopped"),
    .hello "b" [sampleMeta "b1" "running"]]

/-- Daemons list their own sessions. -/
theorem owned_stoppedRun : ∀ e ∈ stoppedRun, Owned sampleOwner e := by
  intro e he
  simp only [stoppedRun, List.mem_cons, List.not_mem_nil, or_false] at he
  rcases he with rfl | rfl | rfl
  · rw [Owned]
    decide
  · exact trivial
  · rw [Owned]
    decide

/-- A session that has stopped runs again once another daemon lists its sessions. -/
theorem stopped_session_reverts :
    (∀ e ∈ stoppedRun, Owned sampleOwner e) ∧
      ¬Meets (step plainIteration) (KeepsOthers sampleOwner plainIteration)
        (SessionStore.restored ∅) stoppedRun := by
  refine ⟨owned_stoppedRun, ?_⟩
  rintro ⟨-, -, hkeeps, -⟩
  have hreverts := hkeeps "a1" (by decide)
  revert hreverts
  decide +kernel

end Runs

end Teleprompter.SessionLists
