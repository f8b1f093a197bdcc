import Teleprompter.CreationLogs
import Teleprompter.RingIsolation

/-!
# What the recent-frame cache stands for

For every daemon the cache stands for a log of the sessions it created, with
everything that was pushed to them since. The sessions created last are cached,
up to the cap on keys, each with its last frames. The hash map of rings and the
list of recorded keys are two views of that, and stay so.
-/

namespace Teleprompter.RingRefinement

open FiniteDictionary StepRuns RelayServer RingIsolation CreationLogs

/-- The log of every daemon. -/
abbrev DaemonLogs := String → CreationLog String Frame

/-- What an operation adds to the logs. -/
def specOp (maxKeysPerDaemon : ℕ) (logs : DaemonLogs) : CacheOp → DaemonLogs
  | .push daemonId frame =>
    Function.update logs daemonId (record maxKeysPerDaemon frame.sid frame (logs daemonId))
  | .purge daemonId => Function.update logs daemonId []

/-- The logs after a run of operations. -/
def logsAfter (maxKeysPerDaemon : ℕ) (ops : List CacheOp) : DaemonLogs :=
  runFrom (specOp maxKeysPerDaemon) (fun _ => []) ops

/-- The id has no colon. -/
def Plain (daemonId : String) : Prop := ':' ∉ daemonId.toList

/-- The cache is what the logs say. -/
structure Refines (cacheSize maxKeysPerDaemon : ℕ) (cache : RecentFrames) (logs : DaemonLogs) :
    Prop where
  /-- No key is recorded twice. -/
  nodup : cache.keyInsertionOrder.Nodup
  /-- The recorded keys are the keys of the rings. -/
  sameKeys : ∀ key, key ∈ cache.buffers ↔ key ∈ cache.keyInsertionOrder
  /-- Every key belongs to a session of a daemon. -/
  owned : ∀ key ∈ cache.keyInsertionOrder, ∃ daemonId sid, Plain daemonId ∧ key = ringKey daemonId sid
  /-- The recorded keys of a daemon are its last sessions, in the order of their creation. -/
  order : ∀ daemonId, Plain daemonId → cache.keyInsertionOrder.filter (ownsKey daemonId) =
    (keptKeys maxKeysPerDaemon (logs daemonId)).map (ringKey daemonId)
  /-- The ring of a kept session is the end of what was pushed to it, and there are no others. -/
  rings : ∀ daemonId sid, Plain daemonId → cache.buffers.lookup (ringKey daemonId sid) =
    (itemsOf maxKeysPerDaemon sid (logs daemonId)).map fun frames => frames.rtake cacheSize
  /-- Replayed is what a kept session has above a sequence number, in order. -/
  replay : ∀ daemonId sid after, Plain daemonId → cache.replayAfter daemonId sid after =
    (((itemsOf maxKeysPerDaemon sid (logs daemonId)).getD []).rtake cacheSize).filter
      fun frame => after < frame.seq

section Keys

variable {daemonId other sid sid' key : String}

/-- Sessions of daemons without a colon have keys of their own. -/
theorem ringKey_eq_iff (hd : Plain daemonId) (ho : Plain other) :
    ringKey daemonId sid = ringKey other sid' ↔ daemonId = other ∧ sid = sid' := by
  constructor
  · intro h
    have happart : ToldApart {d | Plain d} := toldApart_of_no_colon fun _ hmem => hmem
    have howns : ownsKey daemonId (ringKey other sid') = true := h ▸ ownsKey_ringKey daemonId sid
    obtain rfl : daemonId = other := happart.eq_of_ownsKey hd ho howns
    exact ⟨rfl, ringKey_inj h⟩
  · rintro ⟨rfl, rfl⟩
    rfl

theorem ownsKey_ringKey_iff (hd : Plain daemonId) (ho : Plain other) :
    ownsKey daemonId (ringKey other sid) = true ↔ daemonId = other := by
  have happart : ToldApart {d | Plain d} := toldApart_of_no_colon fun _ hmem => hmem
  constructor
  · exact fun howns => happart.eq_of_ownsKey hd ho howns
  · rintro rfl
    exact ownsKey_ringKey daemonId sid

/-- A key is owned by one daemon. -/
theorem eq_of_ownsKey (hd : Plain daemonId) (ho : Plain other) (hkey : ownsKey daemonId key = true)
    (hkey' : ownsKey other key = true) : daemonId = other := by
  have happart : ToldApart {d | Plain d} := toldApart_of_no_colon fun _ hmem => hmem
  rw [ownsKey, List.isPrefixOf_iff_prefix] at hkey hkey'
  rcases List.prefix_or_prefix_of_prefix hkey hkey' with hbegins | hbegins
  · exact happart daemonId hd other ho hbegins
  · exact (happart other ho daemonId hd hbegins).symm

end Keys

section Eviction

variable {daemonId : String} {order : List String}

/-- The evicted keys are the oldest ones of the daemon. -/
theorem evictOldest_fst (daemonId : String) (count : ℕ) (order : List String) :
    (evictOldest daemonId count order).1 = (order.filter (ownsKey daemonId)).take count := by
  induction order generalizing count with
  | nil => cases count <;> rfl
  | cons key order ih =>
    cases count with
    | zero => rw [evictOldest, List.take_zero]
    | succ count =>
      rw [evictOldest]
      split
      · rename_i howns
        rw [List.filter_cons_of_pos howns, List.take_succ_cons, ← ih]
      · rename_i howns
        rw [List.filter_cons_of_neg howns, ← ih]

/-- What is left has the evicted keys cut off its keys of the daemon. -/
theorem filter_evictOldest_snd (daemonId : String) (count : ℕ) (order : List String) :
    (evictOldest daemonId count order).2.filter (ownsKey daemonId) =
      (order.filter (ownsKey daemonId)).drop count := by
  induction order generalizing count with
  | nil => cases count <;> rfl
  | cons key order ih =>
    cases count with
    | zero => rw [evictOldest, List.drop_zero]
    | succ count =>
      rw [evictOldest]
      split
      · rename_i howns
        rw [List.filter_cons_of_pos howns, List.drop_succ_cons, ← ih]
      · rename_i howns
        dsimp only
        rw [List.filter_cons_of_neg howns, List.filter_cons_of_neg howns, ih]

/-- Keys that the daemon does not own are left where they are. -/
theorem filter_evictOldest_of_not_owned {p : String → Bool}
    (hp : ∀ key, p key = true → ownsKey daemonId key = false) (count : ℕ) :
    (evictOldest daemonId count order).2.filter p = order.filter p := by
  induction order generalizing count with
  | nil => cases count <;> rfl
  | cons key order ih =>
    cases count with
    | zero => rw [evictOldest]
    | succ count =>
      rw [evictOldest]
      split
      · rename_i howns
        rw [List.filter_cons_of_neg fun hkey => by rw [hp key hkey] at howns; cases howns]
        exact ih count
      · dsimp only
        rw [List.filter_cons, List.filter_cons, ih]

/-- Evicted and left keys are the recorded ones. -/
theorem evictOldest_perm (daemonId : String) (count : ℕ) (order : List String) :
    ((evictOldest daemonId count order).1 ++ (evictOldest daemonId count order).2).Perm order := by
  induction order generalizing count with
  | nil => cases count <;> exact List.Perm.refl _
  | cons key order ih =>
    cases count with
    | zero => exact List.Perm.refl _
    | succ count =>
      rw [evictOldest]
      split
      · exact (ih count).cons key
      · exact List.perm_middle.trans ((ih (count + 1)).cons key)

/-- A recorded key is left exactly when it is not evicted. -/
theorem mem_evictOldest_snd (h : order.Nodup) (count : ℕ) (key : String) :
    key ∈ (evictOldest daemonId count order).2 ↔
      key ∈ order ∧ key ∉ (evictOldest daemonId count order).1 := by
  have hperm := evictOldest_perm daemonId count order
  have hnodup := hperm.nodup_iff.mpr h
  rw [← hperm.mem_iff, List.mem_append]
  constructor
  · exact fun hleft => ⟨.inr hleft, fun hevicted => List.disjoint_of_nodup_append hnodup hevicted hleft⟩
  · rintro ⟨hevicted | hleft, hnot⟩
    · exact absurd hevicted hnot
    · exact hleft

end Eviction

section Steps

variable {cacheSize maxKeysPerDaemon : ℕ} {cache : RecentFrames} {logs : DaemonLogs}

/-- Everything but the replays, which follow from the rings, and the limits of the cache. -/
structure Stands (cacheSize maxKeysPerDaemon : ℕ) (cache : RecentFrames) (logs : DaemonLogs) :
    Prop where
  size : cache.cacheSize = cacheSize
  cap : cache.maxKeysPerDaemon = maxKeysPerDaemon
  nodup : cache.keyInsertionOrder.Nodup
  sameKeys : ∀ key, key ∈ cache.buffers ↔ key ∈ cache.keyInsertionOrder
  owned : ∀ key ∈ cache.keyInsertionOrder, ∃ daemonId sid, Plain daemonId ∧ key = ringKey daemonId sid
  order : ∀ daemonId, Plain daemonId → cache.keyInsertionOrder.filter (ownsKey daemonId) =
    (keptKeys maxKeysPerDaemon (logs daemonId)).map (ringKey daemonId)
  rings : ∀ daemonId sid, Plain daemonId → cache.buffers.lookup (ringKey daemonId sid) =
    (itemsOf maxKeysPerDaemon sid (logs daemonId)).map fun frames => frames.rtake cacheSize

/-- The keys of a daemon are counted by the recorded ones. -/
theorem Stands.countWhere_eq (h : Stands cacheSize maxKeysPerDaemon cache logs) {daemonId : String}
    (hd : Plain daemonId) : countWhere (fun key _ => ownsKey daemonId key) cache.buffers =
      (keptKeys maxKeysPerDaemon (logs daemonId)).length := by
  have hcount : countWhere (fun key _ => ownsKey daemonId key) cache.buffers =
      (cache.buffers.keys.filter (ownsKey daemonId)).length := by
    rw [countWhere, ← List.countP_eq_length_filter, AList.keys, List.keys, List.countP_map]
    rfl
  have hperm : cache.buffers.keys.Perm cache.keyInsertionOrder :=
    (List.perm_ext_iff_of_nodup cache.buffers.keys_nodup h.nodup).mpr fun key =>
      AList.mem_keys.symm.trans (h.sameKeys key)
  rw [hcount, (hperm.filter _).length_eq, h.order daemonId hd, List.length_map]

theorem Stands.nodup_kept (h : Stands cacheSize maxKeysPerDaemon cache logs) {daemonId : String}
    (hd : Plain daemonId) : (keptKeys maxKeysPerDaemon (logs daemonId)).Nodup := by
  have hkeys := h.nodup.filter (ownsKey daemonId)
  rw [h.order daemonId hd] at hkeys
  exact hkeys.of_map _

/-- A session is cached exactly when it is kept. -/
theorem Stands.mem_buffers_iff (h : Stands cacheSize maxKeysPerDaemon cache logs)
    {daemonId sid : String} (hd : Plain daemonId) :
    ringKey daemonId sid ∈ cache.buffers ↔ sid ∈ keptKeys maxKeysPerDaemon (logs daemonId) := by
  rw [← AList.lookup_isSome, h.rings daemonId sid hd, Option.isSome_map, mem_keptKeys_iff]

theorem specOp_push_apply (maxKeysPerDaemon : ℕ) (logs : DaemonLogs) (daemonId other : String)
    (frame : Frame) : specOp maxKeysPerDaemon logs (.push daemonId frame) other =
      if other = daemonId then record maxKeysPerDaemon frame.sid frame (logs daemonId)
      else logs other := Function.update_apply logs daemonId _ other

/-- Admitting the key of a session that is not kept. -/
theorem Stands.admitKey_new (h : Stands cacheSize maxKeysPerDaemon cache logs)
    (hcap : 0 < maxKeysPerDaemon) {daemonId sid : String} (hd : Plain daemonId)
    (hnew : sid ∉ keptKeys maxKeysPerDaemon (logs daemonId)) :
    cache.admitKey daemonId (ringKey daemonId sid) =
      { cache with
        buffers := ((outdated maxKeysPerDaemon (logs daemonId)).map (ringKey daemonId)).foldl
          (fun buffers old => buffers.erase old) cache.buffers
        keyInsertionOrder := (evictOldest daemonId
          ((keptKeys maxKeysPerDaemon (logs daemonId)).length + 1 - maxKeysPerDaemon)
          cache.keyInsertionOrder).2 ++ [ringKey daemonId sid] } := by
  have hmissing : ringKey daemonId sid ∉ cache.buffers ∧ 0 < cache.maxKeysPerDaemon :=
    ⟨fun hmem => hnew ((h.mem_buffers_iff hd).mp hmem), h.cap.symm ▸ hcap⟩
  have hevicted : (evictOldest daemonId
      ((keptKeys maxKeysPerDaemon (logs daemonId)).length + 1 - maxKeysPerDaemon)
      cache.keyInsertionOrder).1 =
      (outdated maxKeysPerDaemon (logs daemonId)).map (ringKey daemonId) := by
    rw [evictOldest_fst, h.order daemonId hd, outdated, List.map_take]
  rw [RecentFrames.admitKey, if_pos hmissing]
  dsimp only
  rw [h.countWhere_eq hd, h.cap, hevicted]

/-- A session that is kept needs no room. -/
theorem Stands.admitKey_kept (h : Stands cacheSize maxKeysPerDaemon cache logs)
    {daemonId sid : String} (hd : Plain daemonId)
    (hkept : sid ∈ keptKeys maxKeysPerDaemon (logs daemonId)) :
    cache.admitKey daemonId (ringKey daemonId sid) = cache := by
  rw [RecentFrames.admitKey, if_neg]
  exact fun hmissing => hmissing.1 ((h.mem_buffers_iff hd).mpr hkept)

/-- What admitting a key leaves in the rings. -/
theorem Stands.lookup_admitKey (h : Stands cacheSize maxKeysPerDaemon cache logs)
    (hcap : 0 < maxKeysPerDaemon) {daemonId sid other sid' : String} (hd : Plain daemonId)
    (ho : Plain other) :
    (cache.admitKey daemonId (ringKey daemonId sid)).buffers.lookup (ringKey other sid') =
      if other = daemonId ∧ sid ∉ keptKeys maxKeysPerDaemon (logs daemonId) ∧
          sid' ∈ outdated maxKeysPerDaemon (logs daemonId) then none
      else cache.buffers.lookup (ringKey other sid') := by
  by_cases hkept : sid ∈ keptKeys maxKeysPerDaemon (logs daemonId)
  · rw [h.admitKey_kept hd hkept, if_neg fun hnew => hnew.2.1 hkept]
  · rw [h.admitKey_new hcap hd hkept]
    dsimp only
    rw [lookup_eraseAll]
    refine if_congr ?_ rfl rfl
    rw [List.mem_map]
    constructor
    · rintro ⟨old, hold, hkey⟩
      obtain ⟨rfl, rfl⟩ := (ringKey_eq_iff hd ho).mp hkey
      exact ⟨rfl, hkept, hold⟩
    · rintro ⟨rfl, -, hold⟩
      exact ⟨sid', hold, rfl⟩

/-- The recorded keys once a key is admitted. -/
theorem Stands.order_admitKey (h : Stands cacheSize maxKeysPerDaemon cache logs)
    (hcap : 0 < maxKeysPerDaemon) {daemonId other : String} (hd : Plain daemonId) (ho : Plain other)
    (frame : Frame) :
    (cache.admitKey daemonId (ringKey daemonId frame.sid)).keyInsertionOrder.filter (ownsKey other) =
      (keptKeys maxKeysPerDaemon (specOp maxKeysPerDaemon logs (.push daemonId frame) other)).map
        (ringKey other) := by
  rw [specOp_push_apply]
  by_cases hsame : other = daemonId
  · subst hsame
    rw [if_pos rfl, keptKeys_record hcap]
    by_cases hkept : frame.sid ∈ keptKeys maxKeysPerDaemon (logs other)
    · rw [h.admitKey_kept hd hkept, if_pos hkept, h.order other hd]
    · rw [h.admitKey_new hcap hd hkept, if_neg hkept]
      dsimp only
      rw [List.filter_append, filter_evictOldest_snd, h.order other hd, List.map_append,
        List.map_drop, List.filter_cons_of_pos (ownsKey_ringKey other frame.sid), List.filter_nil]
      rfl
  · have hforeign : ¬ownsKey other (ringKey daemonId frame.sid) = true := fun howns =>
      hsame ((ownsKey_ringKey_iff ho hd).mp howns)
    rw [if_neg hsame]
    by_cases hkept : frame.sid ∈ keptKeys maxKeysPerDaemon (logs daemonId)
    · rw [h.admitKey_kept hd hkept, h.order other ho]
    · rw [h.admitKey_new hcap hd hkept]
      dsimp only
      rw [List.filter_append, List.filter_cons_of_neg hforeign, List.filter_nil, List.append_nil,
        filter_evictOldest_of_not_owned, h.order other ho]
      exact fun key hkey => Bool.eq_false_iff.mpr fun howns => hsame (eq_of_ownsKey ho hd hkey howns)

/-- The limits of the cache stay. -/
@[simp] theorem admitKey_maxKeysPerDaemon (daemonId key : String) (cache : RecentFrames) :
    (cache.admitKey daemonId key).maxKeysPerDaemon = cache.maxKeysPerDaemon := by
  unfold RecentFrames.admitKey
  split
  · rfl
  · rfl

/-- Admitting a key that is missing records it behind what is left. -/
theorem Stands.keys_admitKey (h : Stands cacheSize maxKeysPerDaemon cache logs)
    (hcap : 0 < maxKeysPerDaemon) {daemonId : String} (hd : Plain daemonId) (sid : String) :
    let admitted := cache.admitKey daemonId (ringKey daemonId sid)
    admitted.keyInsertionOrder.Nodup ∧
      (∀ key, key ∈ admitted.keyInsertionOrder ↔
        key = ringKey daemonId sid ∨ key ∈ admitted.buffers) ∧
      ∀ key ∈ admitted.keyInsertionOrder,
        key = ringKey daemonId sid ∨ key ∈ cache.keyInsertionOrder := by
  intro admitted
  by_cases hkept : sid ∈ keptKeys maxKeysPerDaemon (logs daemonId)
  · have hsame : admitted = cache := h.admitKey_kept hd hkept
    rw [hsame]
    refine ⟨h.nodup, fun key => ?_, fun key hkey => .inr hkey⟩
    rw [h.sameKeys key]
    constructor
    · exact .inr
    · rintro (rfl | hkey)
      · exact (h.sameKeys _).mp ((h.mem_buffers_iff hd).mpr hkept)
      · exact hkey
  · have hnew : ringKey daemonId sid ∉ cache.keyInsertionOrder := fun hkey =>
      hkept ((h.mem_buffers_iff hd).mp ((h.sameKeys _).mpr hkey))
    have hadmitted := h.admitKey_new hcap hd hkept
    have hevicted : ∀ key, key ∈ (outdated maxKeysPerDaemon (logs daemonId)).map (ringKey daemonId) ↔
        key ∈ (evictOldest daemonId
          ((keptKeys maxKeysPerDaemon (logs daemonId)).length + 1 - maxKeysPerDaemon)
          cache.keyInsertionOrder).1 := by
      intro key
      rw [evictOldest_fst, h.order daemonId hd, outdated, List.map_take]
    have horder : ∀ key, key ∈ admitted.keyInsertionOrder ↔ key = ringKey daemonId sid ∨
        (key ∈ cache.keyInsertionOrder ∧
          key ∉ (outdated maxKeysPerDaemon (logs daemonId)).map (ringKey daemonId)) := by
      intro key
      rw [show admitted = _ from hadmitted, List.mem_append, List.mem_singleton,
        mem_evictOldest_snd h.nodup, hevicted key, or_comm]
    refine ⟨?_, fun key => ?_, fun key hkey => ((horder key).mp hkey).imp id And.left⟩
    · rw [show admitted = _ from hadmitted]
      have hleft := (evictOldest_perm daemonId
        ((keptKeys maxKeysPerDaemon (logs daemonId)).length + 1 - maxKeysPerDaemon)
        cache.keyInsertionOrder).nodup_iff.mpr h.nodup
      refine List.Nodup.append (List.nodup_append.mp hleft).2.1 (List.nodup_singleton _) ?_
      intro key hkey hlast
      rw [List.mem_singleton.mp hlast] at hkey
      exact hnew ((mem_evictOldest_snd h.nodup _ _).mp hkey).1
    · rw [horder key]
      refine or_congr_right ?_
      have hlookup : admitted.buffers.lookup key =
          if key ∈ (outdated maxKeysPerDaemon (logs daemonId)).map (ringKey daemonId) then none
          else cache.buffers.lookup key := by
        rw [show admitted = _ from hadmitted]
        exact lookup_eraseAll _ _ key
      rw [← AList.lookup_isSome, hlookup, ← h.sameKeys key, ← AList.lookup_isSome]
      split
      · rename_i hold
        exact ⟨fun hboth => absurd hold hboth.2, nofun⟩
      · rename_i hold
        exact ⟨And.left, fun hsome => ⟨hsome, hold⟩⟩

/-- A push keeps the cache what the logs say. -/
theorem Stands.push (h : Stands cacheSize maxKeysPerDaemon cache logs) (hcap : 0 < maxKeysPerDaemon)
    {daemonId : String} (hd : Plain daemonId) (frame : Frame) :
    Stands cacheSize maxKeysPerDaemon (cache.push daemonId frame)
      (specOp maxKeysPerDaemon logs (.push daemonId frame)) := by
  obtain ⟨hnodup, hkeys, hold⟩ := h.keys_admitKey hcap hd frame.sid
  constructor
  case size => exact (admitKey_cacheSize daemonId _ cache).trans h.size
  case cap => exact (admitKey_maxKeysPerDaemon daemonId _ cache).trans h.cap
  case nodup => exact hnodup
  case sameKeys =>
    intro key
    exact (AList.mem_insert _).trans (hkeys key).symm
  case owned =>
    intro key hkey
    rcases hold key hkey with rfl | hkey
    · exact ⟨daemonId, frame.sid, hd, rfl⟩
    · exact h.owned key hkey
  case order => exact fun other ho => h.order_admitKey hcap hd ho frame
  case rings =>
    intro other sid ho
    rw [RecentFrames.push]
    dsimp only
    rw [lookup_insert_eq, h.lookup_admitKey hcap hd hd, h.lookup_admitKey hcap hd ho,
      specOp_push_apply, admitKey_cacheSize, h.size]
    by_cases hsame : other = daemonId
    · subst hsame
      have hkept : ¬(other = other ∧ frame.sid ∉ keptKeys maxKeysPerDaemon (logs other) ∧
          frame.sid ∈ outdated maxKeysPerDaemon (logs other)) := fun hnew =>
        hnew.2.1 (List.mem_of_mem_take hnew.2.2)
      rw [if_pos rfl, itemsOf_record hcap (h.nodup_kept ho), if_neg hkept, h.rings other _ ho,
        h.rings other _ ho]
      by_cases hsid : sid = frame.sid
      · rw [hsid, if_pos rfl, if_pos rfl, Option.map_some]
        refine congrArg some ?_
        cases itemsOf maxKeysPerDaemon frame.sid (logs other) with
        | none => rfl
        | some frames => exact rtake_rtake_append cacheSize frames [frame]
      · have hother : ¬ringKey other sid = ringKey other frame.sid := fun hkey =>
          hsid (ringKey_inj hkey)
        rw [if_neg hother, if_neg hsid, apply_ite (Option.map _)]
        exact if_congr ⟨And.right, fun hnew => ⟨rfl, hnew⟩⟩ rfl rfl
    · have hother : ¬ringKey other sid = ringKey daemonId frame.sid := fun hkey =>
        hsame ((ringKey_eq_iff ho hd).mp hkey).1
      rw [if_neg hother, if_neg fun hnew => hsame hnew.1, if_neg hsame, h.rings other sid ho]

/-- A purge keeps the cache what the logs say. -/
theorem Stands.purgeDaemon (h : Stands cacheSize maxKeysPerDaemon cache logs) {daemonId : String}
    (hd : Plain daemonId) : Stands cacheSize maxKeysPerDaemon (cache.purgeDaemon daemonId)
      (specOp maxKeysPerDaemon logs (.purge daemonId)) := by
  have hlogs : ∀ other, specOp maxKeysPerDaemon logs (.purge daemonId) other =
      if other = daemonId then [] else logs other := Function.update_apply logs daemonId _
  have horder : (cache.purgeDaemon daemonId).keyInsertionOrder =
      cache.keyInsertionOrder.filter fun key => !ownsKey daemonId key := rfl
  constructor
  case size => exact h.size
  case cap => exact h.cap
  case nodup => exact h.nodup.filter _
  case sameKeys =>
    intro key
    rw [horder, List.mem_filter, ← h.sameKeys key, ← AList.lookup_isSome, lookup_purgeDaemon,
      ← AList.lookup_isSome]
    split
    · rename_i howns
      exact ⟨nofun, fun hboth => by rw [howns] at hboth; exact absurd hboth.2 (by decide)⟩
    · rename_i howns
      rw [Bool.not_eq_true] at howns
      exact ⟨fun hsome => ⟨hsome, by rw [howns]; rfl⟩, And.left⟩
  case owned =>
    intro key hkey
    exact h.owned key (List.mem_of_mem_filter hkey)
  case order =>
    intro other ho
    rw [hlogs, horder, List.filter_filter]
    by_cases hsame : other = daemonId
    · subst hsame
      rw [if_pos rfl, keptKeys_nil, List.map_nil, List.filter_eq_nil_iff]
      intro key _ hkey
      obtain ⟨howns, hnot⟩ := Bool.and_eq_true_iff.mp hkey
      rw [howns] at hnot
      cases hnot
    · rw [if_neg hsame, ← h.order other ho]
      refine List.filter_congr fun key _ => ?_
      cases howns : ownsKey other key with
      | false => rfl
      | true =>
        have hforeign : ownsKey daemonId key = false :=
          Bool.eq_false_iff.mpr fun hkey => hsame (eq_of_ownsKey ho hd howns hkey)
        rw [hforeign]
        rfl
  case rings =>
    intro other sid ho
    rw [hlogs, lookup_purgeDaemon]
    by_cases hsame : other = daemonId
    · subst hsame
      rw [if_pos (ownsKey_ringKey other sid), if_pos rfl, itemsOf_nil, Option.map_none]
    · rw [if_neg fun howns => hsame ((ownsKey_ringKey_iff hd ho).mp howns).symm, if_neg hsame,
        h.rings other sid ho]

theorem Stands.applyOp (h : Stands cacheSize maxKeysPerDaemon cache logs)
    (hcap : 0 < maxKeysPerDaemon) {op : CacheOp} (hop : Plain op.daemonId) :
    Stands cacheSize maxKeysPerDaemon (applyOp cache op) (specOp maxKeysPerDaemon logs op) := by
  cases op with
  | push daemonId frame => exact h.push hcap hop frame
  | purge daemonId => exact h.purgeDaemon hop

/-- An empty cache stands for empty logs. -/
theorem stands_empty (cacheSize maxKeysPerDaemon : ℕ) : Stands cacheSize maxKeysPerDaemon
    (RecentFrames.withCacheAndKeyCap cacheSize maxKeysPerDaemon) fun _ => [] where
  size := rfl
  cap := rfl
  nodup := List.nodup_nil
  sameKeys _ := ⟨nofun, nofun⟩
  owned := nofun
  order _ _ := by
    rw [keptKeys_nil]
    rfl
  rings _ _ _ := by
    rw [itemsOf_nil]
    rfl

end Steps

/-- After any operations of daemons whose ids have no colon, the cache is what its
specification says. -/
theorem replay_cache_refines (cacheSize : ℕ) {maxKeysPerDaemon : ℕ} (hcap : 0 < maxKeysPerDaemon)
    (ops : List CacheOp) (hops : ∀ op ∈ ops, Plain op.daemonId) :
    Refines cacheSize maxKeysPerDaemon (cacheAfter cacheSize maxKeysPerDaemon ops)
      (logsAfter maxKeysPerDaemon ops) := by
  have hstands : Stands cacheSize maxKeysPerDaemon (cacheAfter cacheSize maxKeysPerDaemon ops)
      (logsAfter maxKeysPerDaemon ops) := by
    induction ops using List.reverseRecOn with
    | nil => exact stands_empty cacheSize maxKeysPerDaemon
    | append_singleton before op ih =>
      have hlast : Plain op.daemonId := hops op (List.mem_append.mpr (.inr List.mem_cons_self))
      have hbefore := ih fun op' hop' => hops op' (List.mem_append.mpr (.inl hop'))
      rw [cacheAfter, logsAfter, runFrom_append, runFrom_append]
      exact hbefore.applyOp hcap hlast
  refine ⟨hstands.nodup, hstands.sameKeys, hstands.owned, hstands.order, hstands.rings, ?_⟩
  intro daemonId sid after hd
  rw [RecentFrames.replayAfter, hstands.rings daemonId sid hd]
  cases itemsOf maxKeysPerDaemon sid (logsAfter maxKeysPerDaemon ops daemonId) with
  | none =>
    rw [Option.map_none, Option.getD_none, List.rtake_nil]
  | some frames => rfl

/-- Three sessions under a cap of two: the oldest is gone, of the next one the last frame is left. -/
theorem replay_cache_refines_evicted :
    keptKeys 2 (logsAfter 2 [.push "d" ⟨"s1", "a", 1, .daemon, none⟩,
      .push "d" ⟨"s:2", "b", 2, .daemon, none⟩, .push "d" ⟨"s:2", "c", 3, .daemon, none⟩,
      .push "d" ⟨"s3", "e", 4, .daemon, none⟩] "d") = ["s:2", "s3"] ∧
    Refines 1 2 (cacheAfter 1 2 [.push "d" ⟨"s1", "a", 1, .daemon, none⟩,
      .push "d" ⟨"s:2", "b", 2, .daemon, none⟩, .push "d" ⟨"s:2", "c", 3, .daemon, none⟩,
      .push "d" ⟨"s3", "e", 4, .daemon, none⟩])
      (logsAfter 2 [.push "d" ⟨"s1", "a", 1, .daemon, none⟩,
      .push "d" ⟨"s:2", "b", 2, .daemon, none⟩, .push "d" ⟨"s:2", "c", 3, .daemon, none⟩,
      .push "d" ⟨"s3", "e", 4, .daemon, none⟩]) := by
  refine ⟨by decide, replay_cache_refines 1 (by decide) _ ?_⟩
  intro op hop
  have hd : op.daemonId = "d" := by
    revert hop
    revert op
    decide
  rw [hd]
  show ':' ∉ "d".toList
  decide

/-- No daemon has more keys than the cap. -/
theorem Refines.keyCount_le {cacheSize maxKeysPerDaemon : ℕ} {cache : RecentFrames} {logs : DaemonLogs}
    (h : Refines cacheSize maxKeysPerDaemon cache logs) {daemonId : String} (hd : Plain daemonId) :
    (cache.keyInsertionOrder.filter (ownsKey daemonId)).length ≤ maxKeysPerDaemon := by
  rw [h.order daemonId hd, List.length_map]
  exact length_keptKeys_le maxKeysPerDaemon (logs daemonId)

end Teleprompter.RingRefinement
