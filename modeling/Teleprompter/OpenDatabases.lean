import Mathlib.Data.List.Nodup
import Mathlib.Order.Nat
import Teleprompter.StoreAgreement

/-!
# The open databases of the store

Open handles are kept in a map, and their sessions in a list in the order of
their last use. Handles are created, asked for and closed by several functions
with exits of their own; above the cap the front of the list is closed. Using an
element of such a list moves it to the end, and what is dropped from the front was
last used before everything that is left.
-/

namespace Teleprompter.OpenDatabases

open FiniteDictionary SessionStore StepRuns
open SessionRecords (Base64Codec RecMsg Octets DiskOutcome)
open StoreAgreement (storeStep)

section Recency

variable {α : Type} [DecidableEq α] {uses order : List α} {a b : α}

/-- The number of uses up to the last one of an element, or zero. -/
def lastUse (uses : List α) (a : α) : ℕ := uses.length - uses.reverse.idxOf a

theorem lastUse_le (uses : List α) (a : α) : lastUse uses a ≤ uses.length := Nat.sub_le _ _

@[simp] theorem lastUse_append_self (uses : List α) (a : α) :
    lastUse (uses ++ [a]) a = uses.length + 1 := by
  rw [lastUse, List.reverse_append, List.reverse_singleton, List.singleton_append,
    List.idxOf_cons_self, List.length_append, List.length_singleton, Nat.sub_zero]

theorem lastUse_append_of_ne (h : b ≠ a) : lastUse (uses ++ [a]) b = lastUse uses b := by
  rw [lastUse, lastUse, List.reverse_append, List.reverse_singleton, List.singleton_append,
    List.idxOf_cons_ne _ h.symm, List.length_append, List.length_singleton, Nat.succ_eq_add_one,
    Nat.add_sub_add_right]

/-- The list is in the order of last uses. -/
def Ordered (uses order : List α) : Prop := order.Pairwise fun a b => lastUse uses a < lastUse uses b

theorem Ordered.nodup (h : Ordered uses order) : order.Nodup := by
  refine h.imp fun hlt heq => ?_
  rw [heq] at hlt
  exact Nat.lt_irrefl _ hlt

/-- Elements may be left out. -/
theorem Ordered.sublist {order' : List α} (h : Ordered uses order) (hsub : order'.Sublist order) :
    Ordered uses order' := List.Pairwise.sublist hsub h

/-- A used element belongs at the end. -/
theorem Ordered.use (h : Ordered uses order) (a : α) :
    Ordered (uses ++ [a]) (order.erase a ++ [a]) := by
  have hne : ∀ b ∈ order.erase a, b ≠ a := by
    rintro b hb rfl
    exact h.nodup.not_mem_erase hb
  refine List.pairwise_append.mpr ⟨?_, List.pairwise_singleton _ _, ?_⟩
  · refine List.Pairwise.imp_of_mem (fun hb hc hlt => ?_) (h.sublist List.erase_sublist)
    rw [lastUse_append_of_ne (hne _ hb), lastUse_append_of_ne (hne _ hc)]
    exact hlt
  · intro b hb c hc
    rw [List.mem_singleton.mp hc, lastUse_append_of_ne (hne b hb), lastUse_append_self]
    exact Nat.lt_succ_of_le (lastUse_le uses b)

/-- The front was last used before the rest. -/
theorem Ordered.front_lt (h : Ordered uses order) (n : ℕ) (ha : a ∈ order.take n)
    (hb : b ∈ order.drop n) : lastUse uses a < lastUse uses b := by
  rw [← List.take_append_drop n order] at h
  exact (List.pairwise_append.mp h).2.2 a ha b hb

end Recency

variable {H : Type}

/-- The open handles. -/
structure OpenDbs (H : Type) where
  /-- Handles by session. -/
  sessionDbs : Dict String H
  /-- Their sessions, least recently used first. -/
  order : List String

/-- Close the oldest handles while there are more than the cap. -/
def closeOldest (cap : ℕ) : Dict String H → List String → OpenDbs H
  | dbs, [] => ⟨dbs, []⟩
  | dbs, oldest :: order =>
    if cap < dictSize dbs then closeOldest cap (dbs.erase oldest) order else ⟨dbs, oldest :: order⟩

/-- Keep a handle. Without a cap nothing is closed. -/
def OpenDbs.trackSessionDb (cap : ℕ) (s : OpenDbs H) (sid : String) (db : H) : OpenDbs H :=
  if cap = 0 then ⟨s.sessionDbs.insert sid db, touch s.order sid⟩
  else closeOldest cap (s.sessionDbs.insert sid db) (touch s.order sid)

/-- Create a session and open its database; whether it succeeded. -/
def OpenDbs.createSession (cap : ℕ) (s : OpenDbs H) (sid : String) (inserts : Bool)
    (opened : Option H) : OpenDbs H × Bool :=
  if isSafeSid sid = true ∧ inserts = true then
    match opened with
    | some db => (s.trackSessionDb cap sid db, true)
    | none => (s, false)
  else (s, false)

/-- Have the database of a session open; whether it is. -/
def OpenDbs.ensureSessionDb (cap : ℕ) (s : OpenDbs H) (sid : String) (opened : Option H) :
    OpenDbs H × Bool :=
  if sid ∈ s.sessionDbs then ({ s with order := touch s.order sid }, true)
  else
    match opened with
    | some db => (s.trackSessionDb cap sid db, true)
    | none => (s, false)

/-- Borrow the database of a session. -/
def OpenDbs.getSessionDb (cap : ℕ) (s : OpenDbs H) (sid : String) (opened : Option H) :
    OpenDbs H × Option H :=
  let ensured := s.ensureSessionDb cap sid opened
  (ensured.1, if ensured.2 then ensured.1.sessionDbs.lookup sid else none)

/-- Close the database of a session that is deleted. -/
def OpenDbs.deleteSession (s : OpenDbs H) (sid : String) : OpenDbs H :=
  if sid ∈ s.sessionDbs then ⟨s.sessionDbs.erase sid, s.order.erase sid⟩ else s

/-- A call of the store, with what opening a file gives. -/
inductive DbCall (H : Type) where
  | create (sid : String) (inserts : Bool) (opened : Option H)
  | get (sid : String) (opened : Option H)
  | delete (sid : String)

/-- The open handles, and the sessions used so far. -/
structure Traced (H : Type) where
  /-- The open handles. -/
  dbs : OpenDbs H
  /-- Sessions whose database was created or borrowed, latest last. -/
  uses : List String

/-- One call. -/
def Traced.step (cap : ℕ) (t : Traced H) : DbCall H → Traced H
  | .create sid inserts opened =>
    let created := t.dbs.createSession cap sid inserts opened
    ⟨created.1, if created.2 then t.uses ++ [sid] else t.uses⟩
  | .get sid opened =>
    let got := t.dbs.getSessionDb cap sid opened
    ⟨got.1, if got.2.isSome then t.uses ++ [sid] else t.uses⟩
  | .delete sid => ⟨t.dbs.deleteSession sid, t.uses⟩

/-- A store that was just opened, and then used. -/
def tracedAfter (cap : ℕ) (calls : List (DbCall H)) : Traced H :=
  runFrom (Traced.step cap) ⟨⟨∅, []⟩, []⟩ calls

/-- List and map agree, the cap is kept, and the list is in the order of use. -/
structure Sound (cap : ℕ) (t : Traced H) : Prop where
  /-- The list has the sessions of the map. -/
  perm : t.dbs.order.Perm t.dbs.sessionDbs.keys
  /-- A positive cap is kept. -/
  capped : 0 < cap → dictSize t.dbs.sessionDbs ≤ cap
  /-- The list is in the order of last use. -/
  ordered : Ordered t.uses t.dbs.order

section Closing

variable {cap : ℕ} {dbs : Dict String H} {order : List String}

theorem dictSize_eq (h : order.Perm dbs.keys) : dictSize dbs = order.length := by
  rw [h.length_eq, AList.keys, List.keys, List.length_map, dictSize]

/-- Closing drops the front of the list down to the cap, and its handles. -/
theorem closeOldest_spec (h : order.Perm dbs.keys) :
    (closeOldest cap dbs order).order = order.drop (order.length - cap) ∧
      ∀ sid, (closeOldest cap dbs order).sessionDbs.lookup sid =
        if sid ∈ order.take (order.length - cap) then none else dbs.lookup sid := by
  induction order generalizing dbs with
  | nil =>
    rw [closeOldest, List.drop_nil, List.take_nil]
    exact ⟨rfl, fun sid => (if_neg List.not_mem_nil).symm⟩
  | cons oldest order ih =>
    have hsize := dictSize_eq h
    rw [List.length_cons] at hsize
    rw [closeOldest, List.length_cons]
    split
    · rename_i hmore
      have hperm : order.Perm (dbs.erase oldest).keys := by
        have herased := h.erase oldest
        rw [List.erase_cons_head, ← AList.keys_erase] at herased
        exact herased
      obtain ⟨horder, hlookup⟩ := ih hperm
      have hcount : order.length + 1 - cap = (order.length - cap) + 1 := by omega
      refine ⟨by rw [horder, hcount, List.drop_succ_cons], fun sid => ?_⟩
      rw [hlookup, lookup_erase_eq, hcount, List.take_succ_cons]
      by_cases hsid : sid = oldest
      · rw [if_pos hsid, ite_self, if_pos (hsid ▸ List.mem_cons_self)]
      · rw [if_neg hsid]
        exact if_congr ((List.mem_cons.trans (or_iff_right hsid)).symm) rfl rfl
    · rename_i hroom
      have hcount : order.length + 1 - cap = 0 := by omega
      refine ⟨by rw [hcount, List.drop_zero], fun sid => ?_⟩
      rw [hcount, List.take_zero, if_neg List.not_mem_nil]

theorem mem_iff_of_perm (h : order.Perm dbs.keys) (sid : String) : sid ∈ dbs ↔ sid ∈ order := by
  rw [h.mem_iff]
  exact AList.mem_keys

/-- The list and the map still agree when a handle was inserted. -/
theorem touch_perm (h : order.Perm dbs.keys) (hnodup : order.Nodup) (sid : String) (db : H) :
    (touch order sid).Perm (dbs.insert sid db).keys := by
  refine (List.perm_ext_iff_of_nodup ?_ (AList.keys_nodup _)).mpr fun other => ?_
  · refine List.Nodup.append (hnodup.erase sid) (List.nodup_singleton sid) fun a ha hb => ?_
    rw [List.mem_singleton.mp hb] at ha
    exact hnodup.not_mem_erase ha
  · rw [touch, List.mem_append, List.mem_singleton, hnodup.mem_erase_iff, ← AList.mem_keys,
      AList.mem_insert, mem_iff_of_perm h]
    constructor
    · rintro (hold | rfl)
      · exact .inr hold.2
      · exact .inl rfl
    · rintro (rfl | hold)
      · exact .inr rfl
      · exact (eq_or_ne other sid).symm.imp (fun hne => ⟨hne, hold⟩) id

end Closing

section Calls

variable {cap : ℕ} {s : OpenDbs H} {uses : List String} {sid : String}

/-- Tracking a handle moves its session to the end of the list, and closes no more of
the front than the cap asks for. -/
theorem trackSessionDb_spec (h : s.order.Perm s.sessionDbs.keys) (hnodup : s.order.Nodup)
    {cap : ℕ} (sid : String) (db : H) :
    (s.trackSessionDb cap sid db).order =
        (touch s.order sid).drop (if cap = 0 then 0 else (touch s.order sid).length - cap) ∧
      ∀ other, (s.trackSessionDb cap sid db).sessionDbs.lookup other =
        if other ∈ (touch s.order sid).take (if cap = 0 then 0 else (touch s.order sid).length - cap)
        then none else (s.sessionDbs.insert sid db).lookup other := by
  rw [OpenDbs.trackSessionDb]
  by_cases hcap : cap = 0
  · rw [if_pos hcap, if_pos hcap]
    refine ⟨(List.drop_zero).symm, fun other => ?_⟩
    rw [List.take_zero, if_neg List.not_mem_nil]
  · rw [if_neg hcap, if_neg hcap]
    exact closeOldest_spec (touch_perm h hnodup sid db)

/-- The order is that of the store, which keeps nothing but the list. -/
theorem trackSessionDb_order (h : s.order.Perm s.sessionDbs.keys) (hnodup : s.order.Nodup)
    (config : StoreConfig) (sid : String) (db : H) :
    (s.trackSessionDb config.maxOpenSessionDbs sid db).order =
      SessionStore.trackSessionDb config s.order sid := by
  rw [(trackSessionDb_spec h hnodup sid db).1, SessionStore.trackSessionDb]
  split
  · exact List.drop_zero
  · rfl

/-- A list in step with a map, from the lookups of the map. -/
theorem perm_of_lookup {dbs : Dict String H} {order : List String} (hnodup : order.Nodup)
    (h : ∀ sid, sid ∈ order ↔ (dbs.lookup sid).isSome) : order.Perm dbs.keys :=
  (List.perm_ext_iff_of_nodup hnodup dbs.keys_nodup).mpr fun sid => by
    rw [h sid, AList.lookup_isSome, AList.mem_keys]

/-- A tracked handle is open, and the list stays sound. -/
theorem Sound.track (h : Sound cap ⟨s, uses⟩) (sid : String) (db : H) :
    Sound cap ⟨s.trackSessionDb cap sid db, uses ++ [sid]⟩ ∧
      (s.trackSessionDb cap sid db).sessionDbs.lookup sid = some db := by
  have hnodup : s.order.Nodup := h.ordered.nodup
  have htouched : Ordered (uses ++ [sid]) (touch s.order sid) := h.ordered.use sid
  have hbefore : s.order.Perm s.sessionDbs.keys := h.perm
  have hall := touch_perm hbefore hnodup sid db
  obtain ⟨horder, hlookup⟩ := trackSessionDb_spec hbefore hnodup sid db
  generalize hn : (if cap = 0 then 0 else (touch s.order sid).length - cap) = n at horder hlookup
  have hdisjoint := List.disjoint_take_drop htouched.nodup (Nat.le_refl n)
  have hlast : sid ∈ (touch s.order sid).drop n := by
    have hlength : (touch s.order sid).length = (s.order.erase sid).length + 1 := by
      rw [touch, List.length_append, List.length_singleton]
    rw [touch, List.drop_append_of_le_length (by split at hn <;> omega)]
    exact List.mem_append.mpr (.inr List.mem_cons_self)
  have hperm : (s.trackSessionDb cap sid db).order.Perm (s.trackSessionDb cap sid db).sessionDbs.keys := by
    refine perm_of_lookup ?_ fun other => ?_
    · rw [horder]
      exact htouched.nodup.sublist (List.drop_sublist n _)
    · have hmem : other ∈ touch s.order sid ↔ ((s.sessionDbs.insert sid db).lookup other).isSome := by
        rw [AList.lookup_isSome, mem_iff_of_perm hall]
      rw [horder, hlookup]
      split
      · rename_i hfront
        exact ⟨fun hback => absurd hback (hdisjoint hfront), fun hnone => absurd hnone Bool.false_ne_true⟩
      · rename_i hfront
        have hsplit : other ∈ touch s.order sid ↔
            other ∈ (touch s.order sid).take n ∨ other ∈ (touch s.order sid).drop n := by
          rw [← List.mem_append, List.take_append_drop]
        rw [← hmem, hsplit]
        exact ⟨.inr, fun hany => hany.resolve_left hfront⟩
  refine ⟨⟨hperm, fun hcap => ?_, ?_⟩, ?_⟩
  · have hsize : dictSize (s.trackSessionDb cap sid db).sessionDbs =
        (s.trackSessionDb cap sid db).order.length := dictSize_eq hperm
    dsimp only
    rw [hsize, horder, List.length_drop]
    rw [if_neg hcap.ne'] at hn
    omega
  · dsimp only
    rw [horder]
    exact htouched.sublist (List.drop_sublist n _)
  · rw [hlookup, if_neg fun hfront => hdisjoint hfront hlast, AList.lookup_insert]

/-- Using an open handle moves its session to the end. -/
theorem Sound.touched (h : Sound cap ⟨s, uses⟩) (hopen : sid ∈ s.sessionDbs) :
    Sound cap ⟨{ s with order := touch s.order sid }, uses ++ [sid]⟩ where
  perm := by
    have hmem : sid ∈ s.order := (mem_iff_of_perm h.perm sid).mp hopen
    have htouch : (touch s.order sid).Perm s.order :=
      (List.perm_append_singleton sid _).trans (List.perm_cons_erase hmem).symm
    exact htouch.trans h.perm
  capped := h.capped
  ordered := h.ordered.use sid

/-- A deleted session is closed. -/
theorem Sound.deleted (h : Sound cap ⟨s, uses⟩) (sid : String) :
    Sound cap ⟨s.deleteSession sid, uses⟩ := by
  rw [OpenDbs.deleteSession]
  split
  · have hperm : (s.order.erase sid).Perm (s.sessionDbs.erase sid).keys := by
      rw [AList.keys_erase]
      exact List.Perm.erase sid h.perm
    refine ⟨hperm, fun hcap => ?_, h.ordered.sublist List.erase_sublist⟩
    have hbefore : dictSize s.sessionDbs = s.order.length := dictSize_eq h.perm
    have hsize : dictSize (s.sessionDbs.erase sid) = (s.order.erase sid).length := dictSize_eq hperm
    have hle := h.capped hcap
    have hless := List.length_erase_le (l := s.order) (a := sid)
    dsimp only at hle ⊢
    omega
  · exact h

theorem ensureSessionDb_of_mem (h : sid ∈ s.sessionDbs) (opened : Option H) :
    s.ensureSessionDb cap sid opened = ({ s with order := touch s.order sid }, true) := if_pos h

theorem ensureSessionDb_of_notMem (h : sid ∉ s.sessionDbs) (opened : Option H) :
    s.ensureSessionDb cap sid opened =
      match opened with
      | some db => (s.trackSessionDb cap sid db, true)
      | none => (s, false) := if_neg h

/-- A request that finds or opens a handle uses it, any other one leaves the store alone. -/
theorem Sound.requested (h : Sound cap ⟨s, uses⟩) (sid : String) (opened : Option H) :
    Sound cap ⟨(s.getSessionDb cap sid opened).1,
        if (s.getSessionDb cap sid opened).2.isSome then uses ++ [sid] else uses⟩ ∧
      (s.getSessionDb cap sid opened).2 = (s.sessionDbs.lookup sid).or opened ∧
      ∀ db, (s.getSessionDb cap sid opened).2 = some db →
        (s.getSessionDb cap sid opened).1.sessionDbs.lookup sid = some db := by
  rw [OpenDbs.getSessionDb]
  by_cases hopen : sid ∈ s.sessionDbs
  · obtain ⟨db, hdb⟩ := mem_iff_lookup.mp hopen
    rw [ensureSessionDb_of_mem hopen]
    dsimp only
    rw [hdb]
    exact ⟨h.touched hopen, rfl, fun db' hdb' => hdb'⟩
  · rw [ensureSessionDb_of_notMem hopen, AList.lookup_eq_none.mpr hopen]
    cases opened with
    | none =>
      refine ⟨h, rfl, fun db hdb => ?_⟩
      cases hdb
    | some db =>
      obtain ⟨htracked, hlookup⟩ := h.track sid db
      dsimp only
      rw [hlookup]
      exact ⟨htracked, rfl, fun db' hdb' => hdb'⟩

/-- A created session is used and open, a failed creation leaves the store alone. -/
theorem Sound.created (h : Sound cap ⟨s, uses⟩) (sid : String) (inserts : Bool) (opened : Option H) :
    Sound cap ⟨(s.createSession cap sid inserts opened).1,
        if (s.createSession cap sid inserts opened).2 then uses ++ [sid] else uses⟩ ∧
      ((s.createSession cap sid inserts opened).2 = true ↔
        isSafeSid sid = true ∧ inserts = true ∧ opened.isSome) ∧
      ((s.createSession cap sid inserts opened).2 = true →
        (s.createSession cap sid inserts opened).1.sessionDbs.lookup sid = opened) := by
  unfold OpenDbs.createSession
  split
  · rename_i hguard
    cases opened with
    | none =>
      refine ⟨h, ⟨fun hok => ?_, fun hall => ?_⟩, fun hok => ?_⟩
      · cases hok
      · cases hall.2.2
      · cases hok
    | some db =>
      obtain ⟨htracked, hlookup⟩ := h.track sid db
      exact ⟨htracked, ⟨fun _ => ⟨hguard.1, hguard.2, rfl⟩, fun _ => rfl⟩, fun _ => hlookup⟩
  · rename_i hguard
    refine ⟨h, ⟨fun hok => ?_, fun hall => ?_⟩, fun hok => ?_⟩
    · cases hok
    · exact absurd ⟨hall.1, hall.2.1⟩ hguard
    · cases hok

/-- The handles that tracking closes were used before all that are left, and as many
are left as the cap says. -/
theorem Sound.closed_by_track (h : Sound cap ⟨s, uses⟩) (sid : String) (db : H) {gone : String}
    (hbefore : gone ∈ s.sessionDbs) (hafter : gone ∉ (s.trackSessionDb cap sid db).sessionDbs) :
    dictSize (s.trackSessionDb cap sid db).sessionDbs = cap ∧
      ∀ kept ∈ (s.trackSessionDb cap sid db).sessionDbs,
        lastUse (uses ++ [sid]) gone < lastUse (uses ++ [sid]) kept := by
  have htouched : Ordered (uses ++ [sid]) (touch s.order sid) := h.ordered.use sid
  have hperm : (s.trackSessionDb cap sid db).order.Perm (s.trackSessionDb cap sid db).sessionDbs.keys :=
    (h.track sid db).1.perm
  obtain ⟨horder, hlookup⟩ := trackSessionDb_spec h.perm h.ordered.nodup sid db
  dsimp only at horder hlookup
  generalize hn : (if cap = 0 then 0 else (touch s.order sid).length - cap) = n at horder hlookup
  have hfront : gone ∈ (touch s.order sid).take n := by
    by_contra hnot
    have hgone := hlookup gone
    rw [if_neg hnot, lookup_insert_eq] at hgone
    refine hafter (AList.lookup_isSome.mp ?_)
    rw [hgone]
    split
    · rfl
    · exact AList.lookup_isSome.mpr hbefore
  have hsize : dictSize (s.trackSessionDb cap sid db).sessionDbs =
      (s.trackSessionDb cap sid db).order.length := dictSize_eq hperm
  refine ⟨?_, fun kept hkept => ?_⟩
  · have hcount := List.length_pos_of_mem hfront
    rw [List.length_take] at hcount
    rw [hsize, horder, List.length_drop]
    split at hn
    · omega
    · omega
  · rw [mem_iff_of_perm hperm, horder] at hkept
    exact htouched.front_lt n hfront hkept

theorem Sound.step (t : Traced H) (call : DbCall H) (h : Sound cap t) : Sound cap (t.step cap call) := by
  cases call with
  | create sid inserts opened => exact (Sound.created h sid inserts opened).1
  | get sid opened => exact (Sound.requested h sid opened).1
  | delete sid => exact Sound.deleted h sid

theorem sound_tracedAfter (cap : ℕ) (calls : List (DbCall H)) : Sound cap (tracedAfter cap calls) := by
  refine runFrom_induction Sound.step ?_ calls
  exact ⟨List.Perm.nil, fun _ => Nat.zero_le _, List.Pairwise.nil⟩

end Calls

section Statement

/-- What a call may close: a session that it deletes, or so many of the least recently
used ones that as many are left as the cap says. -/
def ClosesOldest (cap : ℕ) (before after : Traced H) (call : DbCall H) : Prop :=
  ∀ gone ∈ before.dbs.sessionDbs, gone ∉ after.dbs.sessionDbs → call = .delete gone ∨
    (dictSize after.dbs.sessionDbs = cap ∧
      ∀ kept ∈ after.dbs.sessionDbs, lastUse after.uses gone < lastUse after.uses kept)

/-- The open databases after any calls. -/
structure KeepsRecent (cap : ℕ) (calls : List (DbCall H)) : Prop where
  /-- No session is listed twice. -/
  nodup : (tracedAfter cap calls).dbs.order.Nodup
  /-- The listed sessions are those with an open handle. -/
  perm : (tracedAfter cap calls).dbs.order.Perm (tracedAfter cap calls).dbs.sessionDbs.keys
  /-- A positive cap is kept. -/
  capped : 0 < cap → dictSize (tracedAfter cap calls).dbs.sessionDbs ≤ cap
  /-- A session is created exactly when its name is safe, its row is inserted and its
  database opens. -/
  creates : ∀ sid inserts opened,
    ((tracedAfter cap calls).dbs.createSession cap sid inserts opened).2 = true ↔
      isSafeSid sid = true ∧ inserts = true ∧ opened.isSome
  /-- A created session is open, with the handle that was opened. -/
  created : ∀ sid inserts opened,
    ((tracedAfter cap calls).dbs.createSession cap sid inserts opened).2 = true →
      ((tracedAfter cap calls).dbs.createSession cap sid inserts opened).1.sessionDbs.lookup sid =
        opened
  /-- A request gives the handle that the session had, else the one opened. -/
  requests : ∀ sid opened, ((tracedAfter cap calls).dbs.getSessionDb cap sid opened).2 =
    ((tracedAfter cap calls).dbs.sessionDbs.lookup sid).or opened
  /-- A requested session is open, with the handle that was given. -/
  requested : ∀ sid opened db,
    ((tracedAfter cap calls).dbs.getSessionDb cap sid opened).2 = some db →
      ((tracedAfter cap calls).dbs.getSessionDb cap sid opened).1.sessionDbs.lookup sid = some db
  /-- What the next call closes was used least recently. -/
  oldest : ∀ call, ClosesOldest cap (tracedAfter cap calls) (tracedAfter cap (calls ++ [call])) call

variable {cap : ℕ}

theorem closesOldest_step (t : Traced H) (call : DbCall H) (h : Sound cap t) :
    ClosesOldest cap t (t.step cap call) call := by
  intro gone hbefore hafter
  cases call with
  | create sid inserts opened =>
    unfold Traced.step OpenDbs.createSession at hafter ⊢
    dsimp only at hafter ⊢
    split at hafter
    · rename_i hguard
      rw [if_pos hguard]
      cases opened with
      | none => exact absurd hbefore hafter
      | some db => exact .inr (Sound.closed_by_track h sid db hbefore hafter)
    · exact absurd hbefore hafter
  | get sid opened =>
    rw [Traced.step, OpenDbs.getSessionDb] at hafter ⊢
    by_cases hopen : sid ∈ t.dbs.sessionDbs
    · rw [ensureSessionDb_of_mem hopen] at hafter
      exact absurd hbefore hafter
    · rw [ensureSessionDb_of_notMem hopen] at hafter ⊢
      cases opened with
      | none => exact absurd hbefore hafter
      | some db =>
        have hlookup := (Sound.track h sid db).2
        dsimp only at hafter hlookup ⊢
        rw [hlookup]
        exact .inr (Sound.closed_by_track h sid db hbefore hafter)
  | delete sid =>
    rw [Traced.step, OpenDbs.deleteSession] at hafter
    split at hafter
    · refine .inl (congrArg DbCall.delete ?_)
      by_contra hne
      exact hafter (AList.mem_erase.mpr ⟨fun heq => hne heq.symm, hbefore⟩)
    · exact absurd hbefore hafter

/-- The open databases are cached by recency, after any calls and under any cap. -/
theorem open_databases_keep_recent (cap : ℕ) (calls : List (DbCall H)) : KeepsRecent cap calls := by
  have hsound := sound_tracedAfter cap calls
  constructor
  case nodup => exact hsound.ordered.nodup
  case perm => exact hsound.perm
  case capped => exact hsound.capped
  case creates => exact fun sid inserts opened => (Sound.created hsound sid inserts opened).2.1
  case created => exact fun sid inserts opened => (Sound.created hsound sid inserts opened).2.2
  case requests => exact fun sid opened => (Sound.requested hsound sid opened).2.1
  case requested => exact fun sid opened => (Sound.requested hsound sid opened).2.2
  case oldest =>
    intro call
    have hnext : tracedAfter cap (calls ++ [call]) = (tracedAfter cap calls).step cap call :=
      runFrom_append _ _ calls [call]
    rw [hnext]
    exact closesOldest_step _ call hsound

end Statement

section Refinement

variable {s : OpenDbs H} {uses : List String} {config : StoreConfig} {store : Store}

/-- The list of open handles of the store is the one kept beside the map, and stays so
when a session is created. -/
theorem createSession_order (h : Sound config.maxOpenSessionDbs ⟨s, uses⟩)
    (hsame : store.order = s.order) (sid cwd : String) (worktreePath claudeVersion : Option String)
    (now : ℕ) (inserts : Bool) (opened : Option H) :
    (createSession config store sid cwd worktreePath claudeVersion now inserts
      opened.isSome).store.order =
      (s.createSession config.maxOpenSessionDbs sid inserts opened).1.order := by
  unfold createSession OpenDbs.createSession
  by_cases hsafe : isSafeSid sid = true
  · rw [dif_pos hsafe]
    cases inserts with
    | false =>
      rw [if_neg (by decide), if_neg (by simp)]
      exact hsame
    | true =>
      have hguard : isSafeSid sid = true ∧ true = true := ⟨hsafe, rfl⟩
      rw [if_pos hguard]
      cases opened with
      | none => exact hsame
      | some db =>
        have htrack := trackSessionDb_order h.perm h.ordered.nodup config sid db
        dsimp only at htrack ⊢
        rw [htrack, ← hsame]
        rfl
  · rw [dif_neg hsafe, if_neg fun hboth => hsafe hboth.1]
    exact hsame

/-- It stays so when a database is asked for. -/
theorem ensureSessionDb_order (h : Sound config.maxOpenSessionDbs ⟨s, uses⟩)
    (hsame : store.order = s.order) (sid : String) (opened : Option H) :
    (ensureSessionDb config store sid opened.isSome).store.order =
      (s.ensureSessionDb config.maxOpenSessionDbs sid opened).1.order := by
  have hmem : sid ∈ store.order ↔ sid ∈ s.sessionDbs := by
    rw [hsame]
    exact (mem_iff_of_perm h.perm sid).symm
  rw [ensureSessionDb]
  by_cases hopen : sid ∈ s.sessionDbs
  · rw [if_pos (hmem.mpr hopen), ensureSessionDb_of_mem hopen, ← hsame]
  · rw [if_neg fun hlisted => hopen (hmem.mp hlisted), ensureSessionDb_of_notMem hopen]
    cases opened with
    | none => exact hsame
    | some db =>
      have htrack := trackSessionDb_order h.perm h.ordered.nodup config sid db
      dsimp only at htrack ⊢
      rw [htrack, ← hsame]
      rfl

/-- It stays so when a session is deleted. -/
theorem deleteSession_order_eq {cap : ℕ} (h : Sound cap ⟨s, uses⟩) (hsame : store.order = s.order)
    (sid : String) (disk : DeleteOutcome) :
    (deleteSession config store sid disk).store.order = (s.deleteSession sid).order := by
  rw [StoreAgreement.deleteSession_order, OpenDbs.deleteSession, hsame]
  split
  · rfl
  · rename_i hclosed
    exact List.erase_of_not_mem fun hlisted => hclosed ((mem_iff_of_perm h.perm sid).mpr hlisted)

/-- What opening a file gives, for a caller that only sees whether it succeeds. -/
def handleIf (handle : H) (opens : Bool) : Option H := if opens then some handle else none

@[simp] theorem handleIf_isSome (handle : H) (opens : Bool) :
    (handleIf handle opens).isSome = opens := by
  cases opens with
  | true => rfl
  | false => rfl

/-- The calls that deleting sessions in turn makes, up to the first failure. -/
def deleteCalls (config : StoreConfig) (outcome : String → DeleteOutcome) :
    Store → List String → List (DbCall H)
  | _, [] => []
  | store, sid :: sids =>
    let deleted := deleteSession config store sid (outcome sid)
    .delete sid :: if deleted.ok then deleteCalls config outcome deleted.store sids else []

/-- The handles after one event of the store. A process that starts anew has none. -/
def Traced.follow (config : StoreConfig) (handle : H) (store : Store) (t : Traced H) :
    StoreEvent → Traced H
  | .hello sid _ _ _ _ inserts opens =>
    t.step config.maxOpenSessionDbs (.create sid inserts (handleIf handle opens))
  | .record msg _ _ disk =>
    t.step config.maxOpenSessionDbs (.get msg.sid (handleIf handle disk.opens))
  | .ended _ _ _ => t
  | .delete sid _ =>
    if sid ∈ store.table.rows then t.step config.maxOpenSessionDbs (.delete sid) else t
  | .prune includeRunning cutoff outcome =>
    runFrom (Traced.step config.maxOpenSessionDbs) t
      (deleteCalls config outcome store (pruneCandidates store includeRunning cutoff))
  | .resume sid _ disk => t.step config.maxOpenSessionDbs (.get sid (handleIf handle disk.opens))
  | .exportSession sid limit disk =>
    if (∃ l ∈ limit, l ≤ 0) ∨ sid ∉ store.table.rows then t
    else t.step config.maxOpenSessionDbs (.get sid (handleIf handle disk.opens))
  | .create _ => t
  | .restart _ => t
  | .reopen => ⟨⟨∅, []⟩, []⟩

/-- The store beside the handles that its calls keep open. -/
structure Tracked (H : Type) where
  /-- The store. -/
  store : Store
  /-- Its open handles, and the sessions used since the process started. -/
  traced : Traced H

/-- One event. -/
def Tracked.step (codec : Base64Codec) (config : StoreConfig) (handle : H) (t : Tracked H)
    (event : StoreEvent) : Tracked H :=
  ⟨storeStep codec config t.store event, t.traced.follow config handle t.store event⟩

/-- The list of the store is the one beside the map, and the handles are sound. -/
def Tracked.Follows (cap : ℕ) (t : Tracked H) : Prop :=
  Sound cap t.traced ∧ t.store.order = t.traced.dbs.order

/-- Storing a record asks for the database, and changes the list in no other way. -/
theorem storeRec_order (codec : Base64Codec) (config : StoreConfig) (store : Store) (msg : RecMsg)
    (binary : Option Octets) (now : ℕ) (disk : DiskOutcome) :
    (storeRec codec config store msg binary now disk).store.order =
      (SessionStore.ensureSessionDb config store msg.sid disk.opens).store.order := by
  unfold storeRec
  dsimp only
  split
  · split
    · rfl
    · rfl
  · rfl

/-- Deleting sessions in turn closes what the calls close. -/
theorem deleteCalls_order (outcome : String → DeleteOutcome) (sids : List String) (store : Store)
    (t : Traced H) (h : Sound config.maxOpenSessionDbs t) (hsame : store.order = t.dbs.order) :
    (deleteSessions config store outcome sids).store.order =
      (runFrom (Traced.step config.maxOpenSessionDbs) t
        (deleteCalls config outcome store sids)).dbs.order := by
  induction sids generalizing store t with
  | nil => exact hsame
  | cons sid sids ih =>
    have hnext : (deleteSession config store sid (outcome sid)).store.order =
        (t.dbs.deleteSession sid).order := deleteSession_order_eq h hsame sid (outcome sid)
    rw [deleteSessions, deleteCalls]
    dsimp only
    cases hok : (deleteSession config store sid (outcome sid)).ok with
    | true =>
      rw [if_pos rfl, if_pos rfl]
      exact ih _ _ (Sound.deleted h sid) hnext
    | false =>
      rw [if_neg (by decide), if_neg (by decide)]
      exact hnext

/-- The handles stay sound. -/
theorem Sound.follow {t : Traced H} (h : Sound config.maxOpenSessionDbs t) (handle : H)
    (store : Store) (event : StoreEvent) :
    Sound config.maxOpenSessionDbs (t.follow config handle store event) := by
  cases event with
  | hello sid cwd worktreePath claudeVersion now inserts opens =>
    rw [Traced.follow]
    exact Sound.step _ _ h
  | record msg binary now disk =>
    rw [Traced.follow]
    exact Sound.step _ _ h
  | ended sid state now => exact h
  | delete sid disk =>
    rw [Traced.follow]
    split
    · exact Sound.step _ _ h
    · exact h
  | prune includeRunning cutoff outcome => exact runFrom_induction Sound.step h _
  | resume sid cursor disk =>
    rw [Traced.follow]
    exact Sound.step _ _ h
  | exportSession sid limit disk =>
    rw [Traced.follow]
    split
    · exact h
    · exact Sound.step _ _ h
  | create sid => exact h
  | restart sid => exact h
  | reopen => exact sound_tracedAfter config.maxOpenSessionDbs []

/-- The list of the store stays the one beside the map. -/
theorem follow_order (codec : Base64Codec) (handle : H) {t : Traced H}
    (h : Sound config.maxOpenSessionDbs t) (hsame : store.order = t.dbs.order)
    (event : StoreEvent) :
    (storeStep codec config store event).order = (t.follow config handle store event).dbs.order := by
  have hopens : ∀ sid opens, (SessionStore.ensureSessionDb config store sid opens).store.order =
      (t.step config.maxOpenSessionDbs (.get sid (handleIf handle opens))).dbs.order := by
    intro sid opens
    have hnext := ensureSessionDb_order h hsame sid (handleIf handle opens)
    rw [handleIf_isSome] at hnext
    exact hnext
  rw [storeStep]
  cases event with
  | hello sid cwd worktreePath claudeVersion now inserts opens =>
    have hnext := createSession_order h hsame sid cwd worktreePath claudeVersion now inserts
      (handleIf handle opens)
    rw [handleIf_isSome] at hnext
    exact hnext
  | record msg binary now disk =>
    exact (storeRec_order codec config store msg binary now disk).trans (hopens msg.sid disk.opens)
  | ended sid state now => exact hsame
  | delete sid disk =>
    rw [handleEvent, Traced.follow]
    split
    · exact deleteSession_order_eq h hsame sid disk
    · exact hsame
  | prune includeRunning cutoff outcome =>
    exact deleteCalls_order outcome (pruneCandidates store includeRunning cutoff) store t h hsame
  | resume sid cursor disk => exact hopens sid disk.opens
  | exportSession sid limit disk =>
    rw [handleEvent, Traced.follow]
    split
    · exact hsame
    · exact hopens sid disk.opens
  | create sid => exact hsame
  | restart sid => exact hsame
  | reopen => rfl

/-- After any events the list that the store keeps is the one of the handles that its
calls keep open: sessions in the order of their last use since the process started,
none twice, and no more than a positive cap. -/
theorem store_order_run (codec : Base64Codec) (config : StoreConfig) (handle : H)
    (events : List StoreEvent) :
    let t := runFrom (Tracked.step codec config handle) ⟨Store.empty, ⟨⟨∅, []⟩, []⟩⟩ events
    t.store = runFrom (storeStep codec config) Store.empty events ∧
      t.store.order = t.traced.dbs.order ∧
      t.store.order.Perm t.traced.dbs.sessionDbs.keys ∧
      Ordered t.traced.uses t.store.order ∧
      (0 < config.maxOpenSessionDbs → t.store.order.length ≤ config.maxOpenSessionDbs) := by
  intro t
  have hstore : t.store = runFrom (storeStep codec config) Store.empty events :=
    (List.foldl_hom Tracked.store (fun _ _ => rfl)).symm
  have hfollows : t.Follows config.maxOpenSessionDbs :=
    runFrom_induction
      (fun t event h => ⟨h.1.follow handle t.store event, follow_order codec handle h.1 h.2 event⟩)
      ⟨sound_tracedAfter config.maxOpenSessionDbs [], rfl⟩ events
  obtain ⟨hsound, hsame⟩ := hfollows
  refine ⟨hstore, hsame, ?_, ?_, fun hcap => ?_⟩
  · rw [hsame]
    exact hsound.perm
  · rw [hsame]
    exact hsound.ordered
  · rw [hsame, ← dictSize_eq hsound.perm]
    exact hsound.capped hcap

end Refinement

end Teleprompter.OpenDatabases
