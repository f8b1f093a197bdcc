import Teleprompter.RelayServer
import Teleprompter.StepRuns

/-!
# Isolation of the recent-frame cache

A cached frame belongs to a daemon and a session, but the cache knows only the
text `daemonId:sid`, and it finds the keys of a daemon by their beginning. Two
daemons are told apart by that exactly when neither id with a colon behind it
begins the other one with a colon behind it. The main result says that this is
what isolation of the cache comes down to.
-/

namespace Teleprompter.RingIsolation

open FiniteDictionary StepRuns RelayServer

/-- An operation on the cache. -/
inductive CacheOp where
  | push (daemonId : String) (frame : Frame)
  | purge (daemonId : String)
  deriving DecidableEq

/-- The daemon whose operation it is. -/
def CacheOp.daemonId : CacheOp → String
  | .push daemonId _ => daemonId
  | .purge daemonId => daemonId

/-- The cache after an operation. -/
def applyOp (cache : RecentFrames) : CacheOp → RecentFrames
  | .push daemonId frame => cache.push daemonId frame
  | .purge daemonId => cache.purgeDaemon daemonId

/-- The cache after a run of operations. -/
def cacheAfter (cacheSize maxKeysPerDaemon : ℕ) (ops : List CacheOp) : RecentFrames :=
  runFrom applyOp (RecentFrames.withCacheAndKeyCap cacheSize maxKeysPerDaemon) ops

/-- In a run, a daemon is replayed only its own frames of the session asked
for, and operations of other daemons change nothing that it is replayed. -/
structure Isolated (cacheSize maxKeysPerDaemon : ℕ) (daemons : Set String) (ops : List CacheOp) :
    Prop where
  /-- Replayed frames were pushed for exactly this daemon and session. -/
  own : ∀ before, before <+: ops → ∀ daemonId ∈ daemons, ∀ sid after,
    ∀ frame ∈ (cacheAfter cacheSize maxKeysPerDaemon before).replayAfter daemonId sid after,
      CacheOp.push daemonId frame ∈ before ∧ frame.sid = sid
  /-- Operations of other daemons are not visible. -/
  undisturbed : ∀ before op, before ++ [op] <+: ops → ∀ daemonId ∈ daemons,
    op.daemonId ≠ daemonId → ∀ sid after,
      (cacheAfter cacheSize maxKeysPerDaemon (before ++ [op])).replayAfter daemonId sid after =
        (cacheAfter cacheSize maxKeysPerDaemon before).replayAfter daemonId sid after

/-- No id with a colon behind it begins another one with a colon behind it. -/
def ToldApart (daemons : Set String) : Prop :=
  ∀ x ∈ daemons, ∀ y ∈ daemons, (x ++ ":").toList <+: (y ++ ":").toList → x = y

/-- A key as characters. -/
theorem ringKey_toList (daemonId sid : String) :
    (ringKey daemonId sid).toList = (daemonId ++ ":").toList ++ sid.toList := by
  rw [ringKey, String.toList_append]

/-- A daemon owns its keys. -/
theorem ownsKey_ringKey (daemonId sid : String) : ownsKey daemonId (ringKey daemonId sid) = true := by
  rw [ownsKey, ringKey_toList, List.isPrefixOf_iff_prefix]
  exact List.prefix_append _ _

/-- Of daemons that are told apart only one owns a key. -/
theorem ToldApart.eq_of_ownsKey {daemons : Set String} (h : ToldApart daemons) {x y sid : String}
    (hx : x ∈ daemons) (hy : y ∈ daemons) (howns : ownsKey x (ringKey y sid) = true) : x = y := by
  rw [ownsKey, ringKey_toList, List.isPrefixOf_iff_prefix] at howns
  rcases List.prefix_or_prefix_of_prefix howns (List.prefix_append _ sid.toList) with hxy | hyx
  · exact h x hx y hy hxy
  · exact (h y hy x hx hyx).symm

/-- The keys of one daemon differ in their sessions. -/
theorem ringKey_inj {daemonId sid sid' : String} (h : ringKey daemonId sid = ringKey daemonId sid') :
    sid = sid' := by
  have hchars := congrArg String.toList h
  rw [ringKey_toList, ringKey_toList] at hchars
  exact String.toList_inj.mp (List.append_cancel_left hchars)

/-- Erasing several keys. -/
theorem lookup_eraseAll (keys : List String) (buffers : Dict String (List Frame)) (key : String) :
    (keys.foldl (fun buffers old => buffers.erase old) buffers).lookup key =
      if key ∈ keys then none else buffers.lookup key := by
  induction keys generalizing buffers with
  | nil => rfl
  | cons old keys ih =>
    rw [List.foldl_cons, ih, lookup_erase_eq]
    by_cases hold : key = old
    · simp [hold]
    · simp [hold]

/-- Only keys of the daemon are evicted. -/
theorem ownsKey_of_mem_evictOldest {daemonId key : String} (count : ℕ) (order : List String)
    (h : key ∈ (evictOldest daemonId count order).1) : ownsKey daemonId key = true := by
  induction order generalizing count with
  | nil =>
    cases count with
    | zero => cases h
    | succ count => cases h
  | cons first order ih =>
    cases count with
    | zero => cases h
    | succ count =>
      rw [evictOldest] at h
      split at h
      · next howns =>
        rcases List.mem_cons.mp h with rfl | hrest
        · exact howns
        · exact ih count hrest
      · exact ih (count + 1) h

/-- Making room for a key keeps every ring of another owner, and loses rings
only. -/
theorem lookup_admitKey (daemonId key other : String) (cache : RecentFrames) :
    ((cache.admitKey daemonId key).buffers.lookup other = none ∧ ownsKey daemonId other = true) ∨
      (cache.admitKey daemonId key).buffers.lookup other = cache.buffers.lookup other := by
  unfold RecentFrames.admitKey
  split
  · dsimp only
    rw [lookup_eraseAll]
    split
    · next hmem => exact .inl ⟨rfl, ownsKey_of_mem_evictOldest _ _ hmem⟩
    · exact .inr rfl
  · exact .inr rfl

/-- Purging loses the rings of the daemon. -/
theorem lookup_purgeDaemon (daemonId other : String) (cache : RecentFrames) :
    (cache.purgeDaemon daemonId).buffers.lookup other =
      if ownsKey daemonId other then none else cache.buffers.lookup other := by
  unfold RecentFrames.purgeDaemon
  dsimp only
  rw [lookup_eraseAll]
  by_cases howns : ownsKey daemonId other = true
  · rw [if_pos howns]
    split
    · rfl
    · next hmem =>
      by_contra hsome
      have hkey : other ∈ cache.buffers := AList.lookup_isSome.mp (Option.isSome_iff_ne_none.mpr hsome)
      exact hmem (List.mem_filter.mpr ⟨AList.mem_keys.mp hkey, howns⟩)
  · rw [if_neg howns, if_neg fun hmem => howns (List.mem_filter.mp hmem).2]

/-- An operation keeps the rings that its daemon does not own. -/
theorem lookup_applyOp {cache : RecentFrames} {op : CacheOp} {key : String}
    (h : ownsKey op.daemonId key = false) :
    (applyOp cache op).buffers.lookup key = cache.buffers.lookup key := by
  cases op with
  | push daemonId frame =>
    have hne : key ≠ ringKey daemonId frame.sid := by
      rintro rfl
      rw [CacheOp.daemonId, ownsKey_ringKey] at h
      cases h
    rw [applyOp, RecentFrames.push, lookup_insert_eq, if_neg hne]
    rcases lookup_admitKey daemonId (ringKey daemonId frame.sid) key cache with ⟨-, howns⟩ | hsame
    · exact absurd howns (by rw [show ownsKey daemonId key = false from h]; decide)
    · exact hsame
  | purge daemonId =>
    rw [applyOp, lookup_purgeDaemon, if_neg]
    rw [show ownsKey daemonId key = false from h]
    decide

/-- Every cached frame was pushed for a daemon and session of its key. -/
def Sourced (pushed : String → Frame → Prop) (cache : RecentFrames) : Prop :=
  ∀ key ring, cache.buffers.lookup key = some ring → ∀ frame ∈ ring,
    ∃ daemonId, pushed daemonId frame ∧ key = ringKey daemonId frame.sid

/-- The frame that an operation pushes is among those counted. -/
def Counted (pushed : String → Frame → Prop) (_ : RecentFrames) : CacheOp → Prop
  | .push daemonId frame => pushed daemonId frame
  | .purge _ => True

theorem Sourced.applyOp {pushed : String → Frame → Prop} (cache : RecentFrames) (op : CacheOp)
    (h : Sourced pushed cache) (hop : Counted pushed cache op) : Sourced pushed (applyOp cache op) := by
  intro key ring hring frame hframe
  cases op with
  | push daemonId new =>
    have hkept : ∀ ring, (cache.admitKey daemonId (ringKey daemonId new.sid)).buffers.lookup key =
        some ring → cache.buffers.lookup key = some ring := by
      intro ring hsome
      rcases lookup_admitKey daemonId (ringKey daemonId new.sid) key cache with ⟨hnone, -⟩ | hsame
      · rw [hnone] at hsome
        cases hsome
      · rw [← hsame]
        exact hsome
    rw [RingIsolation.applyOp, RecentFrames.push, lookup_insert_eq] at hring
    split at hring
    · next hkey =>
      rw [← Option.some.inj hring] at hframe
      rcases List.mem_append.mp (List.mem_of_mem_drop hframe) with hold | hnew
      · rw [← hkey] at hold
        generalize hlookup : AList.lookup key _ = found at hold
        cases found with
        | none => cases hold
        | some old => exact h key old (hkept old (hkey ▸ hlookup)) frame hold
      · rw [List.mem_singleton.mp hnew]
        exact ⟨daemonId, hop, hkey⟩
    · exact h key ring (hkept ring hring) frame hframe
  | purge daemonId =>
    rw [RingIsolation.applyOp, lookup_purgeDaemon] at hring
    split at hring
    · cases hring
    · exact h key ring hring frame hframe

/-- Making room keeps the depth of the cache. -/
@[simp] theorem admitKey_cacheSize (daemonId key : String) (cache : RecentFrames) :
    (cache.admitKey daemonId key).cacheSize = cache.cacheSize := by
  unfold RecentFrames.admitKey
  split
  · rfl
  · rfl

/-- A cache of depth zero holds no frame. -/
def Shallow (cache : RecentFrames) : Prop :=
  cache.cacheSize = 0 ∧ ∀ key ring, cache.buffers.lookup key = some ring → ring = []

theorem Shallow.applyOp (cache : RecentFrames) (op : CacheOp) (h : Shallow cache) :
    Shallow (applyOp cache op) := by
  cases op with
  | push daemonId frame =>
    refine ⟨(admitKey_cacheSize daemonId _ cache).trans h.1, fun key ring hring => ?_⟩
    rw [RingIsolation.applyOp, RecentFrames.push, lookup_insert_eq, admitKey_cacheSize, h.1] at hring
    split at hring
    · rw [← Option.some.inj hring, Nat.sub_zero, List.drop_length]
    · rcases lookup_admitKey daemonId (ringKey daemonId frame.sid) key cache with ⟨hnone, -⟩ | hsame
      · rw [hnone] at hring
        cases hring
      · rw [hsame] at hring
        exact h.2 key ring hring
  | purge daemonId =>
    refine ⟨h.1, fun key ring hring => ?_⟩
    rw [RingIsolation.applyOp, lookup_purgeDaemon] at hring
    split at hring
    · cases hring
    · exact h.2 key ring hring

/-- A cache of depth zero replays nothing. -/
theorem replayAfter_of_cacheSize_zero (maxKeysPerDaemon : ℕ) (ops : List CacheOp)
    (daemonId sid : String) (after : ℕ) :
    (cacheAfter 0 maxKeysPerDaemon ops).replayAfter daemonId sid after = [] := by
  have hempty : Shallow (RecentFrames.withCacheAndKeyCap 0 maxKeysPerDaemon) :=
    ⟨rfl, fun key ring hring => by cases hring⟩
  have hshallow : Shallow (cacheAfter 0 maxKeysPerDaemon ops) :=
    runFrom_induction Shallow.applyOp hempty ops
  unfold RecentFrames.replayAfter
  cases hlookup : (cacheAfter 0 maxKeysPerDaemon ops).buffers.lookup (ringKey daemonId sid) with
  | none => rfl
  | some ring =>
    rw [hshallow.2 _ ring hlookup]
    rfl

/-- Daemons that are told apart do not disturb each other. -/
theorem replayAfter_applyOp {daemons : Set String} (h : ToldApart daemons) {cache : RecentFrames}
    {op : CacheOp} {daemonId : String} (hop : op.daemonId ∈ daemons) (hdaemon : daemonId ∈ daemons)
    (hne : op.daemonId ≠ daemonId) (sid : String) (after : ℕ) :
    (applyOp cache op).replayAfter daemonId sid after = cache.replayAfter daemonId sid after := by
  have hother : ownsKey op.daemonId (ringKey daemonId sid) = false := by
    by_contra howns
    exact hne (h.eq_of_ownsKey hop hdaemon (by simpa using howns))
  unfold RecentFrames.replayAfter
  rw [lookup_applyOp hother]

/-- Daemons that are told apart are replayed their own frames. -/
theorem mem_replayAfter {daemons : Set String} (h : ToldApart daemons)
    (cacheSize maxKeysPerDaemon : ℕ) {ops : List CacheOp} (hops : ∀ op ∈ ops, op.daemonId ∈ daemons)
    {daemonId sid : String} {after : ℕ} (hdaemon : daemonId ∈ daemons) {frame : Frame}
    (hframe : frame ∈ (cacheAfter cacheSize maxKeysPerDaemon ops).replayAfter daemonId sid after) :
    CacheOp.push daemonId frame ∈ ops ∧ frame.sid = sid := by
  have hempty : Sourced (fun d f => CacheOp.push d f ∈ ops)
      (RecentFrames.withCacheAndKeyCap cacheSize maxKeysPerDaemon) :=
    fun key ring hring => by cases hring
  have hcounted : Meets applyOp (Counted fun d f => CacheOp.push d f ∈ ops)
      (RecentFrames.withCacheAndKeyCap cacheSize maxKeysPerDaemon) ops := by
    refine meets_of_forall_mem (fun op hop cache => ?_) _
    cases op with
    | push d f => exact hop
    | purge d => trivial
  have hsourced : Sourced (fun d f => CacheOp.push d f ∈ ops)
      (cacheAfter cacheSize maxKeysPerDaemon ops) :=
    runFrom_induction_of_meets Sourced.applyOp hempty hcounted
  unfold RecentFrames.replayAfter at hframe
  have hmem := (List.mem_filter.mp hframe).1
  cases hlookup : (cacheAfter cacheSize maxKeysPerDaemon ops).buffers.lookup (ringKey daemonId sid) with
  | none =>
    rw [hlookup] at hmem
    cases hmem
  | some ring =>
    rw [hlookup] at hmem
    obtain ⟨owner, hpush, hkey⟩ := hsourced _ ring hlookup frame hmem
    have howns : ownsKey owner (ringKey daemonId sid) = true := by
      rw [hkey]
      exact ownsKey_ringKey owner frame.sid
    obtain rfl : owner = daemonId := h.eq_of_ownsKey (hops _ hpush) hdaemon howns
    exact ⟨hpush, (ringKey_inj hkey).symm⟩

/-- The first frame of an empty cache that is deep enough is replayed to
everyone whose key it has. -/
theorem mem_replayAfter_single {cacheSize : ℕ} (hsize : cacheSize ≠ 0) (maxKeysPerDaemon : ℕ)
    {x y sid : String} {frame : Frame} (hseq : 0 < frame.seq)
    (hkey : ringKey x sid = ringKey y frame.sid) :
    frame ∈ (cacheAfter cacheSize maxKeysPerDaemon [.push y frame]).replayAfter x sid 0 := by
  have hadmitted : ((RecentFrames.withCacheAndKeyCap cacheSize maxKeysPerDaemon).admitKey y
      (ringKey y frame.sid)).buffers.lookup (ringKey y frame.sid) = none := by
    rcases lookup_admitKey y (ringKey y frame.sid) (ringKey y frame.sid)
      (RecentFrames.withCacheAndKeyCap cacheSize maxKeysPerDaemon) with ⟨hnone, -⟩ | hsame
    · exact hnone
    · exact hsame
  have hring : (cacheAfter cacheSize maxKeysPerDaemon [.push y frame]).buffers.lookup
      (ringKey x sid) = some [frame] := by
    have hdepth : 1 - cacheSize = 0 := by omega
    rw [cacheAfter, runFrom_cons, runFrom_nil, applyOp, RecentFrames.push, hkey, hadmitted,
      lookup_insert_eq, if_pos rfl, admitKey_cacheSize]
    show some (List.drop (1 - cacheSize) [frame]) = some [frame]
    rw [hdepth, List.drop_zero]
  rw [RecentFrames.replayAfter, hring]
  exact List.mem_filter.mpr ⟨List.mem_singleton.mpr rfl, decide_eq_true hseq⟩

/-- Every run of some daemons is isolated exactly when the cache has depth
zero or these daemons are told apart by their ids. -/
theorem replay_cache_isolated_iff (cacheSize maxKeysPerDaemon : ℕ) (daemons : Set String) :
    (∀ ops, (∀ op ∈ ops, op.daemonId ∈ daemons) →
        Isolated cacheSize maxKeysPerDaemon daemons ops) ↔
      cacheSize = 0 ∨ ToldApart daemons := by
  constructor
  · intro hall
    by_contra hnot
    obtain ⟨hsize, happart⟩ := not_or.mp hnot
    refine happart fun x hx y hy hbegin => ?_
    obtain ⟨rest, hrest⟩ := hbegin
    have hkey : ringKey x (String.ofList rest) = ringKey y "" := by
      refine String.toList_inj.mp ?_
      rw [ringKey_toList, ringKey_toList, String.toList_ofList, hrest]
      exact (List.append_nil _).symm
    have hisolated := hall [.push y ⟨"", "", 1, .daemon, none⟩] fun op hop => by
      rw [List.mem_singleton.mp hop]
      exact hy
    have hmem := hisolated.own _ List.prefix_rfl x hx (String.ofList rest) 0 _
      (mem_replayAfter_single hsize maxKeysPerDaemon Nat.one_pos hkey)
    exact (CacheOp.push.inj (List.mem_singleton.mp hmem.1)).1
  · rintro (rfl | happart) ops hops
    · refine ⟨fun before _ d _ sid after frame hframe => ?_, fun before op _ d _ _ sid after => ?_⟩
      · rw [replayAfter_of_cacheSize_zero] at hframe
        cases hframe
      · rw [replayAfter_of_cacheSize_zero, replayAfter_of_cacheSize_zero]
    · refine ⟨fun before hbefore d hd sid after frame hframe => ?_,
        fun before op hbefore d hd hne sid after => ?_⟩
      · exact mem_replayAfter happart cacheSize maxKeysPerDaemon
          (fun op hop => hops op (hbefore.subset hop)) hd hframe
      · have hop : op.daemonId ∈ daemons :=
          hops op (hbefore.subset (List.mem_append.mpr (.inr List.mem_cons_self)))
        have hrun : cacheAfter cacheSize maxKeysPerDaemon (before ++ [op]) =
            applyOp (cacheAfter cacheSize maxKeysPerDaemon before) op := List.foldl_append
        rw [hrun]
        exact replayAfter_applyOp happart hop hd hne sid after

/-- Ids without a colon are told apart. -/
theorem toldApart_of_no_colon {daemons : Set String} (h : ∀ d ∈ daemons, ':' ∉ d.toList) :
    ToldApart daemons := by
  have hcut : ∀ d ∈ daemons, ∀ rest : List Char,
      ((d ++ ":").toList ++ rest).takeWhile (· ≠ ':') = d.toList := by
    intro d hd rest
    have hall : ∀ c ∈ d.toList, decide (c ≠ ':') = true := fun c hc =>
      decide_eq_true fun heq => h d hd (heq ▸ hc)
    rw [String.toList_append, List.append_assoc, List.takeWhile_append_of_pos hall]
    exact List.append_nil _
  rintro x hx y hy ⟨rest, hrest⟩
  have hy' := hcut y hy []
  rw [List.append_nil, ← hrest, hcut x hx rest] at hy'
  exact String.toList_inj.mp hy'

/-- A frame of one daemon is replayed to another one, and purging the second
one removes it from the first. -/
theorem replay_cache_leaks_across_colon :
    (cacheAfter 10 256 [.push "a:b" ⟨"c", "ct", 1, .daemon, none⟩]).replayAfter "a" "b:c" 0 =
        [⟨"c", "ct", 1, .daemon, none⟩] ∧
      (cacheAfter 10 256 [.push "a:b" ⟨"c", "ct", 1, .daemon, none⟩]).replayAfter "a:b" "c" 0 =
        [⟨"c", "ct", 1, .daemon, none⟩] ∧
      (cacheAfter 10 256 [.push "a:b" ⟨"c", "ct", 1, .daemon, none⟩,
        .purge "a"]).replayAfter "a:b" "c" 0 = [] ∧
      ¬∀ ops, Isolated 10 256 Set.univ ops := by
  refine ⟨by decide +kernel, by decide +kernel, by decide +kernel, fun hall => ?_⟩
  have hmem := (hall [.push "a:b" ⟨"c", "ct", 1, .daemon, none⟩]).own _ List.prefix_rfl "a"
    (Set.mem_univ _) "b:c" 0 ⟨"c", "ct", 1, .daemon, none⟩ (by decide +kernel)
  exact absurd hmem.2 (by decide)

end Teleprompter.RingIsolation
