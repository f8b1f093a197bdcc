import Teleprompter.PairingLifecycle
import Teleprompter.PeerSnapshots

/-!
# A daemon seen at version 3 is not taken for an older one

Once a device has read version 3 or a confirmation tag from the daemon of a pairing,
a hello without a tag is to be refused for that pairing. The device remembers the
observation in floors: one in the pending record, one in the sidecar of the daemon.
An observation raises the floor of one record only, and none when that record does
not exist. Pairings that arrive through the keychain or from a phone have no
sidecar.
-/

namespace Teleprompter.AntiDowngrade

open FiniteDictionary BestPerKey StepRuns PairingRecords PairingLifecycle PeerSnapshots

section Statement

/-- A pairing of a daemon. -/
structure PairingKey where
  pairingId : String
  daemonId : String
  deriving DecidableEq

/-- The client runs for the pairing. -/
def RunsFor (key : PairingKey) (client : Client) : Prop :=
  client.pairing.pairingId = key.pairingId ∧ client.pairing.daemonId = key.daemonId

instance (key : PairingKey) (client : Client) : Decidable (RunsFor key client) :=
  inferInstanceAs (Decidable (_ ∧ _))

/-- The pairing has a blob. -/
def HasBlob (key : PairingKey) (blobs : List PairingBlob) : Prop :=
  ∃ blob ∈ blobs, blob.pairingId = key.pairingId ∧ blob.did = key.daemonId

instance (key : PairingKey) (blobs : List PairingBlob) : Decidable (HasBlob key blobs) :=
  inferInstanceAs (Decidable (∃ blob ∈ blobs, _))

/-- The pairing is pending or committed on the device. -/
def Present (key : PairingKey) (device : Device) : Prop :=
  (∃ p ∈ device.pending, p.pairingId = key.pairingId ∧ p.did = key.daemonId) ∨
    HasBlob key device.records.blobs

instance (key : PairingKey) (device : Device) : Decidable (Present key device) :=
  inferInstanceAs (Decidable (_ ∨ _))

/-- The event shows that the daemon of the pairing speaks version 3: it advertises
the version, or its hello carries a tag. -/
def Observes (key : PairingKey) (app : App) : Event → Prop
  | .kx i v _ => ∃ client ∈ app.pool[i]?, RunsFor key client ∧ 3 ≤ v.getD 1
  | .hello i (some _) => ∃ client ∈ app.pool[i]?, RunsFor key client
  | _ => False

/-- The event makes a client of the pairing accept a hello without a tag. -/
def TakesLegacyCommit (key : PairingKey) (app : App) : Event → Prop
  | .hello i none => ∃ client ∈ app.pool[i]?, RunsFor key client ∧
      (resolvePromotion app.device client none).2 = .legacyCommit
  | _ => False

/-- The event removes the sidecar of the pairing's daemon. -/
def Unpairs (key : PairingKey) : Event → Prop
  | .remove _ daemonId => daemonId = key.daemonId
  | _ => False

variable (legacyId : String → String) (decodes : PairingBlob → Bool)

/-- The event leaves the pairing on the device. -/
def Keeps (key : PairingKey) (app : App) (e : Event) : Prop :=
  ¬Unpairs key e ∧ Present key (step legacyId decodes app e).device

/-- From an observation on, and as long as the pairing stays on the device, no hello
without a tag is accepted for it. -/
def NeverDowngrades (key : PairingKey) (app : App) (events : List Event) : Prop :=
  ∀ before e mid last rest, events = before ++ e :: (mid ++ last :: rest) →
    Observes key (runFrom (step legacyId decodes) app before) e →
    Meets (step legacyId decodes) (Keeps legacyId decodes key)
      (runFrom (step legacyId decodes) app before) (e :: mid) →
    ¬TakesLegacyCommit key (runFrom (step legacyId decodes) app (before ++ e :: mid)) last

end Statement

section Condition

/-- A client of the pairing is in the committed phase, or is told to be. -/
def RunsCommitted (key : PairingKey) (pool : List Client) : Prop :=
  ∃ client ∈ pool, RunsFor key client ∧
    (client.isPendingPhase = false ∨ Job.setPairingPhase false ∈ client.jobs)

instance (key : PairingKey) (pool : List Client) : Decidable (RunsCommitted key pool) :=
  inferInstanceAs (Decidable (∃ client ∈ pool, _))

/-- Every pending record under the pairing's id names version 3. -/
def PendingAtThree (key : PairingKey) (device : Device) : Prop :=
  ∀ p ∈ device.pending, p.pairingId = key.pairingId → 3 ≤ p.floor

instance (key : PairingKey) (device : Device) : Decidable (PendingAtThree key device) :=
  inferInstanceAs (Decidable (∀ p ∈ device.pending, _))

/-- The pending records under the pairing's id are of its daemon. -/
def PendingOfDaemon (key : PairingKey) (device : Device) : Prop :=
  ∀ p ∈ device.pending, p.pairingId = key.pairingId → p.did = key.daemonId

instance (key : PairingKey) (device : Device) : Decidable (PendingOfDaemon key device) :=
  inferInstanceAs (Decidable (∀ p ∈ device.pending, _))

/-- A floor raised by the client reaches every record of the pairing that is below
version 3. For a pending client the pairing is not committed below 3; for a
committed one the sidecar exists and no pending record is below 3. -/
def Reaches (key : PairingKey) (app : App) (client : Client) : Prop :=
  if client.isPendingPhase then
    PendingOfDaemon key app.device ∧
      (HasBlob key app.device.records.blobs ∨ RunsCommitted key app.pool →
        3 ≤ committedFloor app.device key.daemonId)
  else key.daemonId ∈ app.device.sidecars ∧ PendingAtThree key app.device

instance (key : PairingKey) (app : App) (client : Client) : Decidable (Reaches key app client) :=
  inferInstanceAs (Decidable (ite _ _ _))

/-- Only the pending record names version 3. -/
def OnlyPending (key : PairingKey) (device : Device) : Prop :=
  committedFloor device key.daemonId < 3 ∧
    ∃ p ∈ device.pending, p.pairingId = key.pairingId ∧ 3 ≤ p.floor

instance (key : PairingKey) (device : Device) : Decidable (OnlyPending key device) :=
  inferInstanceAs (Decidable (_ ∧ _))

/-- Some record names version 3. -/
def Remembered (key : PairingKey) (device : Device) : Prop :=
  3 ≤ committedFloor device key.daemonId ∨
    ∃ p ∈ device.pending, p.pairingId = key.pairingId ∧ 3 ≤ p.floor

instance (key : PairingKey) (device : Device) : Decidable (Remembered key device) :=
  inferInstanceAs (Decidable (_ ∨ _))

/-- Observations reach the records; while version 3 is remembered, a new record of
the pairing names it too, and a hello without a tag does not meet a client that is
in the pending phase after its record was promoted. -/
def Guarded (legacyId : String → String) (key : PairingKey) (app : App) : Event → Prop
  | .kx i v _ => ∀ client ∈ app.pool[i]?, RunsFor key client → 3 ≤ v.getD 1 → Reaches key app client
  | .hello i (some _) => ∀ client ∈ app.pool[i]?, RunsFor key client → Reaches key app client
  | .hello i none => ∀ client ∈ app.pool[i]?, RunsFor key client → client.isPendingPhase = true →
      Remembered key app.device → pendingOf app.device key.pairingId ≠ none ∨
        3 ≤ client.epochAdvertisedV ∨ 3 ≤ client.pairing.minAdvertisedV
  | .scan data now fails => fails = false → (decode legacyId data now).pairingId = key.pairingId →
      Remembered key app.device → data.v ≥ 4 ∧
        (data.did = key.daemonId ∨ 3 ≤ committedFloor app.device key.daemonId)
  | .sync records => OnlyPending key app.device → ¬HasBlob key records.blobs
  | .snapshot _ _ incoming => OnlyPending key app.device → HasBlob key incoming.pairings →
      3 ≤ (incoming.floors.lookup key.daemonId).getD 0
  | .relaunch _ _ legacy => OnlyPending key app.device → app.migrated = false → ¬HasBlob key legacy
  | _ => True

end Condition

section Carrying

/-- The floors after one sidecar was written. -/
theorem committedFloor_insert (device : Device) (did did' : String) (floor : ℤ) :
    committedFloor { device with sidecars := device.sidecars.insert did floor } did' =
      if did' = did then floor else committedFloor device did' := by
  rw [committedFloor, lookup_insert_eq]
  split
  · rfl
  · rfl

/-- The floors after one sidecar was dropped. -/
theorem committedFloor_erase (device : Device) (did did' : String) :
    committedFloor { device with sidecars := device.sidecars.erase did } did' =
      if did' = did then 0 else committedFloor device did' := by
  rw [committedFloor, lookup_erase_eq]
  split
  · rfl
  · rfl

variable {key : PairingKey} {added : List PairingBlob} {device device' : Device}

/-- What most operations do to the records of a pairing: the floor in the sidecar
does not fall, no pending record is new, and new blobs are the given ones. -/
structure Carries (key : PairingKey) (added : List PairingBlob) (device device' : Device) :
    Prop where
  floor : committedFloor device key.daemonId ≤ committedFloor device' key.daemonId
  pending : ∀ p ∈ device'.pending, p ∈ device.pending
  blobs : ∀ blob ∈ device'.records.blobs, blob ∈ device.records.blobs ∨ blob ∈ added

theorem Carries.trans {device'' : Device} (h : Carries key added device device')
    (h' : Carries key added device' device'') : Carries key added device device'' where
  floor := h.floor.trans h'.floor
  pending := fun p hp => h.pending p (h'.pending p hp)
  blobs := fun blob hblob => (h'.blobs blob hblob).elim (h.blobs blob) .inr

/-- Operations that keep the sidecars and the pending records. -/
theorem carries_of_eq (hsidecars : device'.sidecars = device.sidecars)
    (hpending : device'.pending = device.pending)
    (hblobs : ∀ blob ∈ device'.records.blobs, blob ∈ device.records.blobs ∨ blob ∈ added) :
    Carries key added device device' where
  floor := by rw [committedFloor, committedFloor, hsidecars]
  pending := fun p hp => by rwa [← hpending]
  blobs := hblobs

theorem Carries.refl (key : PairingKey) (added : List PairingBlob) (device : Device) :
    Carries key added device device :=
  carries_of_eq rfl rfl fun _ hblob => .inl hblob

/-- A fold of operations that carry the records carries them. -/
theorem carries_foldl {σ ι : Type} (view : σ → Device) {f : σ → ι → σ} {xs : List ι}
    (h : ∀ s, ∀ x ∈ xs, Carries key added (view s) (view (f s x))) (s : σ) :
    Carries key added (view s) (view (xs.foldl f s)) := by
  induction xs generalizing s with
  | nil => exact Carries.refl key added (view s)
  | cons x xs ih =>
    have hrest : ∀ s, ∀ y ∈ xs, Carries key added (view s) (view (f s y)) :=
      fun s y hy => h s y (List.mem_cons_of_mem x hy)
    exact (h s x List.mem_cons_self).trans (ih hrest (f s x))

variable (key added)

theorem carries_clearLocalHide (device : Device) (pairingId : String) :
    Carries key added device (clearLocalHide device pairingId) := by
  rw [clearLocalHide]
  split
  · exact Carries.refl key added device
  · exact carries_of_eq rfl rfl fun _ hblob => .inl hblob

theorem carries_unhideForDaemon (legacyId : String → String) (device : Device)
    (did pairingId : String) :
    Carries key added device (unhideForDaemon legacyId device did pairingId) :=
  (carries_clearLocalHide key added device pairingId).trans
    (carries_clearLocalHide key added _ (legacyId did))

theorem carries_setLocalHidden (device : Device) (pairingId : String) :
    Carries key added device (setLocalHidden device pairingId) := by
  rw [setLocalHidden]
  split
  · exact Carries.refl key added device
  · exact carries_of_eq rfl rfl fun _ hblob => .inl hblob

theorem carries_setPointer (device : Device) (did pairingId : String) :
    Carries key added device (setPointer device did pairingId) :=
  carries_of_eq rfl rfl fun _ hblob => .inl hblob

/-- Some blobs may be lost. -/
theorem carries_records (device : Device) {records : RecordStore}
    (h : ∀ blob ∈ records.blobs, blob ∈ device.records.blobs ∨ blob ∈ added) :
    Carries key added device { device with records } :=
  carries_of_eq rfl rfl h

theorem carries_sweep (device : Device) (pairingId : String) :
    Carries key added device (sweep device pairingId) := by
  have hremove : Carries key added device
      { device with records := device.records.remove pairingId } :=
    carries_records key added device fun blob hblob => .inl (List.mem_filter.mp hblob).1
  exact hremove.trans (carries_clearLocalHide key added _ pairingId)

theorem carries_foldl_sweep (ids : List String) (device : Device) :
    Carries key added device (ids.foldl sweep device) :=
  carries_foldl id (fun device pairingId _ => carries_sweep key added device pairingId) device

variable {added}

/-- A blob that is saved is one of the new ones. -/
theorem carries_save (device : Device) (fails : Bool) {blob : PairingBlob} (hblob : blob ∈ added) :
    Carries key added device { device with records := device.records.save fails blob } := by
  refine carries_records key added device fun found hfound => ?_
  rcases mem_save_iff.mp hfound with ⟨hold, -⟩ | ⟨-, rfl⟩
  · exact .inl hold
  · exact .inr hblob

variable (added)

theorem carries_reconciledPointers (device : Device) (found : Option (List PairingBlob)) :
    Carries key added device (reconciledPointers device found).1 := by
  cases found with
  | none => exact Carries.refl key added device
  | some found =>
    rw [reconciledPointers]
    dsimp only
    split
    · split
      · exact Carries.refl key added device
      · exact carries_of_eq rfl rfl fun _ hblob => .inl hblob
    · exact (carries_foldl_sweep key added _ device).trans
        (carries_of_eq rfl rfl fun _ hblob => .inl hblob)

/-- A snapshot adds no blob but its own. -/
theorem carries_adoptBlob (legacyId : String → String) (platform : Platform)
    (held : List PairingBlob) (adoption : Adoption) {incoming : PairingBlob}
    (hincoming : incoming ∈ added) :
    Carries key added adoption.device
      (adoptBlob legacyId platform held adoption incoming).device := by
  have hhide : ∀ (ids : List String) (device : Device),
      Carries key added device (ids.foldl setLocalHidden device) :=
    fun ids => carries_foldl id fun device pairingId _ =>
      carries_setLocalHidden key added device pairingId
  have hshown := carries_unhideForDaemon key added legacyId adoption.device incoming.did
    incoming.pairingId
  have hsettle : Carries key added adoption.device
      (settle legacyId held adoption.device incoming) := by
    rw [settle]
    split
    · exact hshown.trans (hhide _ _)
    · exact hshown
  rw [adoptBlob_device]
  rcases adoptDevice_cases with ⟨-, hdevice⟩ | ⟨-, -, hdevice⟩ | ⟨-, -, hdevice⟩
  · rw [hdevice]
    exact hsettle
  · rw [hdevice]
    exact hsettle.trans (carries_save key _ true hincoming)
  · rw [hdevice]
    exact ((hsettle.trans (carries_save key _ false hincoming)).trans
      (carries_setPointer key added _ incoming.did incoming.pairingId)).trans (hhide _ _)

/-- The blobs of a snapshot are taken from it. -/
theorem carries_adoptBlobs (legacyId : String → String) (platform : Platform)
    (held : List PairingBlob) (device : Device) (snapshot : PairingSnapshot) :
    Carries key snapshot.pairings device
      ((platform.arrange ((incomingByDid snapshot).keys.filterMap
        (incomingByDid snapshot).lookup)).foldl (adoptBlob legacyId platform held)
          ⟨device, 0, 0⟩).device := by
  refine carries_foldl Adoption.device (fun adoption incoming hincoming => ?_) ⟨device, 0, 0⟩
  have hmem := (platform.arrange_perm _).mem_iff.mp hincoming
  obtain ⟨did, -, hlookup⟩ := List.mem_filterMap.mp hmem
  exact carries_adoptBlob key _ legacyId platform held adoption (mem_of_lookup_rank hlookup).1

theorem carries_hideLocally (device : Device) (found : Option (List PairingBlob)) (did : String) :
    Carries key added device (hideLocally device found did).1 := by
  have hhide : Carries key added device
      ((pairingIds device found did).foldl setLocalHidden device) :=
    carries_foldl id (fun device pairingId _ => carries_setLocalHidden key added device pairingId)
      device
  exact hhide.trans ⟨le_rfl, fun p hp => (List.mem_filter.mp hp).1, fun _ hblob => .inl hblob⟩

theorem carries_hideAbsent (platform : Platform) (incoming : Dict String PairingBlob)
    (device : Device) (shown : List String) :
    Carries key added device (hideAbsent platform incoming device shown).1 :=
  carries_foldl Prod.fst (fun state did _ =>
    carries_hideLocally key added state.1
      (platform.loadAll (2 + state.2.2) state.1.records) did) (device, [], 0)

/-- Take one floor of a snapshot. -/
def mergeFloor (incoming : Dict String PairingBlob) (device : Device) (entry : Sigma fun _ : String => ℤ) :
    Device :=
  if entry.1 ∈ incoming ∧ entry.2 > committedFloor device entry.1 then
    { device with sidecars := device.sidecars.insert entry.1 entry.2 }
  else device

theorem mergeFloors_eq_foldl (incoming : Dict String PairingBlob) (device : Device)
    (floors : Dict String ℤ) :
    mergeFloors incoming device floors = floors.entries.foldl (mergeFloor incoming) device := rfl

/-- Taking a floor lowers none. -/
theorem carries_mergeFloor (incoming : Dict String PairingBlob) (device : Device)
    (entry : Sigma fun _ : String => ℤ) :
    Carries key added device (mergeFloor incoming device entry) := by
  rw [mergeFloor]
  split
  · rename_i hraise
    refine ⟨?_, fun _ hp => hp, fun _ hblob => .inl hblob⟩
    rw [committedFloor_insert]
    split
    · rename_i hdid
      rw [hdid]
      exact hraise.2.le
    · exact le_rfl
  · exact Carries.refl key added device

theorem carries_mergeFloors (incoming : Dict String PairingBlob) (device : Device)
    (floors : Dict String ℤ) : Carries key added device (mergeFloors incoming device floors) :=
  carries_foldl id (fun device entry _ => carries_mergeFloor key added incoming device entry) device

/-- A floor of a snapshot is reached for a daemon that it shows. -/
theorem le_committedFloor_mergeFloors {incoming : Dict String PairingBlob} {floors : Dict String ℤ}
    {floor : ℤ} (hshown : key.daemonId ∈ incoming) (hfloor : floors.lookup key.daemonId = some floor)
    (device : Device) :
    floor ≤ committedFloor (mergeFloors incoming device floors) key.daemonId := by
  have hentry : (⟨key.daemonId, floor⟩ : Sigma fun _ : String => ℤ) ∈ floors.entries :=
    AList.mem_lookup_iff.mp hfloor
  rw [mergeFloors_eq_foldl]
  obtain ⟨before, after, hsplit⟩ := List.mem_iff_append.mp hentry
  rw [hsplit, List.foldl_append, List.foldl_cons]
  generalize before.foldl (mergeFloor incoming) device = reached
  have hrest : Carries key [] (mergeFloor incoming reached ⟨key.daemonId, floor⟩)
      (after.foldl (mergeFloor incoming) (mergeFloor incoming reached ⟨key.daemonId, floor⟩)) :=
    carries_foldl id (fun device entry _ => carries_mergeFloor key [] incoming device entry) _
  refine le_trans ?_ hrest.floor
  rw [mergeFloor]
  split
  · rw [committedFloor_insert, if_pos rfl]
  · rename_i hraise
    exact not_lt.mp fun hlt => hraise ⟨hshown, hlt⟩

/-- A snapshot adds no blob but its own, and lowers no floor. -/
theorem carries_applyPeerSnapshot (legacyId : String → String) (platform : Platform) (smoke : Bool)
    (device : Device) (snapshot : PairingSnapshot) :
    Carries key snapshot.pairings device
      (applyPeerSnapshot legacyId platform smoke device snapshot).1 := by
  rw [applyPeerSnapshot]
  split
  · exact Carries.refl key _ device
  · split
    · exact Carries.refl key _ device
    · dsimp only
      split
      · exact Carries.refl key _ device
      · rename_i held _
        have hadopted := carries_adoptBlobs key legacyId platform held device snapshot
        exact ((hadopted.trans (carries_mergeFloors key _ _ _ _)).trans
          (carries_reconciledPointers key _ _ _)).trans (carries_hideAbsent key _ platform _ _ _)

/-- A snapshot that shows the daemon with a floor leaves the device as it is or
reaches the floor. -/
theorem floor_applyPeerSnapshot (legacyId : String → String) (platform : Platform) (smoke : Bool)
    (device : Device) {snapshot : PairingSnapshot} {floor : ℤ}
    (hblob : HasBlob key snapshot.pairings)
    (hfloor : snapshot.floors.lookup key.daemonId = some floor) :
    (applyPeerSnapshot legacyId platform smoke device snapshot).1 = device ∨
      floor ≤ committedFloor (applyPeerSnapshot legacyId platform smoke device snapshot).1
        key.daemonId := by
  rw [applyPeerSnapshot]
  split
  · exact .inl rfl
  · split
    · exact .inl rfl
    · dsimp only
      split
      · exact .inl rfl
      · right
        have hshown : key.daemonId ∈ (rank PairingBlob.did isNewer snapshot.pairings).best := by
          obtain ⟨blob, hmem, -, hdid⟩ := hblob
          rw [← hdid, mem_iff_lookup]
          cases hlookup : (rank PairingBlob.did isNewer snapshot.pairings).best.lookup blob.did with
          | none => exact absurd hmem (notMem_of_lookup_rank hlookup)
          | some best => exact ⟨best, rfl⟩
        exact ((le_committedFloor_mergeFloors key hshown hfloor _).trans
          (carries_reconciledPointers key [] _ _).floor).trans
          (carries_hideAbsent key [] platform _ _ _).floor

theorem carries_removePending (device : Device) (pairingId : String) :
    Carries key added device (removePending device pairingId) :=
  ⟨le_rfl, fun _ hp => (List.mem_filter.mp hp).1, fun _ hblob => .inl hblob⟩

theorem carries_gcPending (device : Device) (cutoff : ℤ) :
    Carries key added device (gcPending device cutoff) :=
  ⟨le_rfl, fun _ hp => (List.mem_filter.mp hp).1, fun _ hblob => .inl hblob⟩

/-- Removing another daemon leaves the sidecar. -/
theorem carries_remove (legacyId : String → String) (device : Device)
    (found : Option (List PairingBlob)) {daemonId : String} (hother : daemonId ≠ key.daemonId) :
    Carries key added device (PairingLifecycle.remove legacyId device found daemonId) := by
  have hshown := (carries_foldl_sweep key added (pairingIds device found daemonId) device).trans
    (carries_clearLocalHide key added _ (legacyId daemonId))
  refine hshown.trans ⟨?_, fun _ hp => hp, fun _ hblob => .inl hblob⟩
  refine le_of_eq (Eq.symm ?_)
  exact (committedFloor_erase _ daemonId key.daemonId).trans (if_neg hother.symm)

/-- Old records are taken over as blobs. -/
theorem carries_migrate (platform : Platform) (device : Device) (legacy : List PairingBlob) :
    Carries key legacy device (migrateLegacyCommittedRecords platform device legacy) := by
  refine carries_foldl id (fun device blob hblob => ?_) device
  change Carries key legacy device _
  split
  · split
    · exact carries_save key device _ hblob
    · exact (carries_save key device _ hblob).trans (carries_setPointer key legacy _ _ _)
  · exact Carries.refl key legacy device

/-- Committing a blob keeps the higher floor of its daemon. -/
theorem carries_persist (legacyId : String → String) (platform : Platform) (device : Device)
    {blob : PairingBlob} (hblob : blob ∈ added) (floor : ℤ) :
    Carries key added device (persist legacyId platform device blob floor) := by
  have hsaved := carries_save key device (platform.saveFails blob) hblob
  rw [persist]
  dsimp only
  split
  · exact hsaved
  · have hshown := (hsaved.trans (carries_setPointer key added _ blob.did blob.pairingId)).trans
      (carries_unhideForDaemon key added legacyId _ blob.did blob.pairingId)
    refine (hshown.trans (carries_foldl_sweep key added _ _)).trans
      ⟨?_, fun _ hp => hp, fun _ hb => .inl hb⟩
    rw [committedFloor_insert]
    split
    · rename_i hdid
      rw [hdid]
      exact le_max_right _ _
    · exact le_rfl

/-- A committed blob brings its floor. -/
theorem le_committedFloor_persist (legacyId : String → String) {platform : Platform}
    (device : Device) {blob : PairingBlob} (floor : ℤ) (hsaved : platform.saveFails blob = false) :
    floor ≤ committedFloor (persist legacyId platform device blob floor) blob.did := by
  rw [persist, if_neg (by rw [hsaved]; exact Bool.false_ne_true)]
  rw [committedFloor_insert, if_pos rfl]
  exact le_max_left _ _

end Carrying

section Protection

variable {key : PairingKey} {app app' : App}

/-- The device remembers version 3 for the pairing: every pending record names it,
and so does the sidecar, unless nothing of the pairing is committed. -/
structure Protected (key : PairingKey) (app : App) : Prop where
  present : Present key app.device
  pending : PendingAtThree key app.device
  committed : 3 ≤ committedFloor app.device key.daemonId ∨
    PendingOfDaemon key app.device ∧ ¬HasBlob key app.device.records.blobs ∧
      ¬RunsCommitted key app.pool

/-- A pairing that is not committed has a pending record at version 3. -/
theorem Protected.exists_pending (h : Protected key app)
    (hblob : ¬HasBlob key app.device.records.blobs) :
    ∃ p ∈ app.device.pending, p.pairingId = key.pairingId ∧ 3 ≤ p.floor := by
  rcases h.present with ⟨p, hp, hid, -⟩ | hhas
  · exact ⟨p, hp, hid, h.pending p hp hid⟩
  · exact absurd hhas hblob

/-- Version 3 is remembered. -/
theorem Protected.remembered (h : Protected key app) : Remembered key app.device := by
  rcases h.committed with hfloor | ⟨-, hblob, -⟩
  · exact .inl hfloor
  · exact .inr (h.exists_pending hblob)

/-- Operations that carry the records keep the protection, when a blob of the pairing
does not arrive below version 3. -/
theorem Protected.carry {added : List PairingBlob} (h : Protected key app)
    (hcarries : Carries key added app.device app'.device) (hpresent : Present key app'.device)
    (hadded : OnlyPending key app.device → ¬HasBlob key app.device.records.blobs →
      HasBlob key added → HasBlob key app'.device.records.blobs →
        3 ≤ committedFloor app'.device key.daemonId)
    (hpool : RunsCommitted key app'.pool →
      RunsCommitted key app.pool ∨ HasBlob key app'.device.records.blobs) :
    Protected key app' := by
  refine ⟨hpresent, fun p hp => h.pending p (hcarries.pending p hp), ?_⟩
  rcases h.committed with hfloor | ⟨hdid, hblob, hruns⟩
  · exact .inl (hfloor.trans hcarries.floor)
  · by_cases hreached : 3 ≤ committedFloor app'.device key.daemonId
    · exact .inl hreached
    have honly : OnlyPending key app.device :=
      ⟨hcarries.floor.trans_lt (not_le.mp hreached), h.exists_pending hblob⟩
    have hblob' : ¬HasBlob key app'.device.records.blobs := by
      intro hhas
      obtain ⟨blob, hmem, hkey⟩ := hhas
      rcases hcarries.blobs blob hmem with hold | hnew
      · exact hblob ⟨blob, hold, hkey⟩
      · exact hreached (hadded honly hblob ⟨blob, hnew, hkey⟩ ⟨blob, hmem, hkey⟩)
    refine .inr ⟨fun p hp => hdid p (hcarries.pending p hp), hblob', fun hruns' => ?_⟩
    exact (hpool hruns').elim hruns hblob'

/-- Raising a floor changes no other field of a pending record and lowers no floor. -/
theorem mem_pending_raiseFloor {device : Device} {client : Client} {v : ℤ} {p : Pending}
    (hp : p ∈ (raiseFloor device client v).pending) :
    ∃ q ∈ device.pending, p.pairingId = q.pairingId ∧ p.did = q.did ∧ q.floor ≤ p.floor := by
  rw [raiseFloor] at hp
  split at hp
  · obtain ⟨q, hq, rfl⟩ := List.mem_map.mp hp
    refine ⟨q, hq, ?_⟩
    split
    · rename_i hraise
      exact ⟨rfl, rfl, hraise.2.le⟩
    · exact ⟨rfl, rfl, le_rfl⟩
  · refine ⟨p, ?_, rfl, rfl, le_rfl⟩
    rw [raiseCommittedFloor] at hp
    split at hp
    · split at hp
      · exact hp
      · exact hp
    · exact hp

/-- Raising a floor keeps the blobs. -/
theorem records_raiseFloor (device : Device) (client : Client) (v : ℤ) :
    (raiseFloor device client v).records = device.records := by
  rw [raiseFloor]
  split
  · rfl
  · rw [raiseCommittedFloor]
    split
    · split
      · rfl
      · rfl
    · rfl

/-- The floor of a sidecar after it was raised. -/
theorem committedFloor_raiseCommittedFloor {device : Device} {did : String}
    (hsidecar : did ∈ device.sidecars) (v : ℤ) :
    v ≤ committedFloor (raiseCommittedFloor device did v) did := by
  obtain ⟨current, hcurrent⟩ := mem_iff_lookup.mp hsidecar
  rw [raiseCommittedFloor, hcurrent]
  dsimp only
  split
  · rw [committedFloor_insert, if_pos rfl]
  · rename_i hlow
    rw [committedFloor, hcurrent]
    exact not_lt.mp hlow

/-- Raising a floor lowers none in a sidecar. -/
theorem committedFloor_le_raiseFloor (device : Device) (client : Client) (v : ℤ) (did : String) :
    committedFloor device did ≤ committedFloor (raiseFloor device client v) did := by
  rw [raiseFloor]
  split
  · exact le_rfl
  · rw [raiseCommittedFloor]
    split
    · rename_i current hcurrent
      split
      · rename_i hraise
        rw [committedFloor_insert]
        split
        · rename_i hdid
          rw [hdid, committedFloor, hcurrent]
          exact hraise.le
        · exact le_rfl
      · exact le_rfl
    · exact le_rfl

/-- Raising a floor keeps the protection. -/
theorem Protected.raise {client : Client} {v : ℤ} (h : Protected key app)
    (hdevice : app'.device = raiseFloor app.device client v)
    (hpresent : Present key app'.device)
    (hpool : RunsCommitted key app'.pool → RunsCommitted key app.pool) : Protected key app' := by
  refine ⟨hpresent, ?_, ?_⟩
  · intro p hp hid
    rw [hdevice] at hp
    obtain ⟨q, hq, hqid, -, hle⟩ := mem_pending_raiseFloor hp
    exact (h.pending q hq (hqid.symm.trans hid)).trans hle
  · rw [hdevice]
    rcases h.committed with hfloor | ⟨hdid, hblob, hruns⟩
    · exact .inl (hfloor.trans (committedFloor_le_raiseFloor app.device client v key.daemonId))
    · refine .inr ⟨?_, ?_, fun hruns' => hruns (hpool hruns')⟩
      · intro p hp hid
        obtain ⟨q, hq, hqid, hqdid, -⟩ := mem_pending_raiseFloor hp
        exact hqdid.trans (hdid q hq (hqid.symm.trans hid))
      · rw [records_raiseFloor]
        exact hblob

/-- An observation that reaches the records protects the pairing. -/
theorem protected_of_reaches {client : Client} {v : ℤ} (hruns : RunsFor key client)
    (hreaches : Reaches key app client) (hv : 3 ≤ v)
    (hdevice : app'.device = raiseFloor app.device client v)
    (hpresent : Present key app'.device)
    (hpool : RunsCommitted key app'.pool → RunsCommitted key app.pool) : Protected key app' := by
  rw [Reaches] at hreaches
  split at hreaches
  · rename_i hphase
    obtain ⟨hdid, hcommitted⟩ := hreaches
    have hraised : raiseFloor app.device client v =
        raisePendingFloor app.device key.pairingId v := by
      rw [raiseFloor, if_pos hphase, hruns.1]
    refine ⟨hpresent, ?_, ?_⟩
    · intro p hp hid
      rw [hdevice, hraised] at hp
      obtain ⟨q, -, rfl⟩ := List.mem_map.mp hp
      split
      · exact hv
      · rename_i hlow
        rw [if_neg hlow] at hid
        exact hv.trans (not_lt.mp fun hlt => hlow ⟨hid, hlt⟩)
    · by_cases hheld : HasBlob key app.device.records.blobs ∨ RunsCommitted key app.pool
      · left
        rw [hdevice, hraised]
        exact hcommitted hheld
      · rw [not_or] at hheld
        right
        refine ⟨?_, ?_, fun hruns' => hheld.2 (hpool hruns')⟩
        · intro p hp hid
          rw [hdevice] at hp
          obtain ⟨q, hq, hqid, hqdid, -⟩ := mem_pending_raiseFloor hp
          exact hqdid.trans (hdid q hq (hqid.symm.trans hid))
        · rw [hdevice, records_raiseFloor]
          exact hheld.1
  · rename_i hphase
    obtain ⟨hsidecar, hpending⟩ := hreaches
    have hraised : raiseFloor app.device client v =
        raiseCommittedFloor app.device key.daemonId v := by
      rw [raiseFloor, if_neg hphase, hruns.2]
    refine ⟨hpresent, ?_, .inl ?_⟩
    · intro p hp hid
      rw [hdevice] at hp
      obtain ⟨q, hq, hqid, -, hle⟩ := mem_pending_raiseFloor hp
      exact (hpending q hq (hqid.symm.trans hid)).trans hle
    · rw [hdevice, hraised]
      exact hv.trans (committedFloor_raiseCommittedFloor hsidecar v)

end Protection

section Clients

variable {key : PairingKey} {app app' : App} {legacyId : String → String}
  {decodes : PairingBlob → Bool}

/-- The pending clients run for the ids they are found by. -/
def Keyed (app : App) : Prop :=
  ∀ pairingId i, app.pendingClients.lookup pairingId = some i →
    ∃ client, app.pool[i]? = some client ∧ client.pairing.pairingId = pairingId

/-- Clients stay in their place and keep their pairing. -/
def Extends (pool pool' : List Client) : Prop :=
  ∀ (i : ℕ) (client : Client), pool[i]? = some client →
    ∃ client' : Client, pool'[i]? = some client' ∧ client'.pairing = client.pairing

/-- A client that replaces another in its place keeps the pairing. -/
theorem extends_set {pool : List Client} {i : ℕ} {client client' : Client}
    (hclient : pool[i]? = some client) (hpairing : client'.pairing = client.pairing) :
    Extends pool (pool.set i client') := by
  intro j other hother
  by_cases hij : i = j
  · subst hij
    obtain ⟨hlt, -⟩ := List.getElem?_eq_some_iff.mp hclient
    rw [hclient] at hother
    cases hother
    exact ⟨client', by rw [List.getElem?_set_self hlt], hpairing⟩
  · exact ⟨other, by rw [List.getElem?_set_ne hij, hother], rfl⟩

theorem extends_modify (pool : List Client) (i : ℕ) : Extends pool (pool.modify i Client.rewire) := by
  intro j other hother
  rw [List.getElem?_modify, hother]
  by_cases hij : i = j
  · exact ⟨other.rewire, by simp [hij], rfl⟩
  · exact ⟨other, by simp [hij], rfl⟩

theorem extends_append (pool : List Client) (added : List Client) : Extends pool (pool ++ added) := by
  intro j other hother
  obtain ⟨hlt, -⟩ := List.getElem?_eq_some_iff.mp hother
  exact ⟨other, by rw [List.getElem?_append_left hlt, hother], rfl⟩

theorem extends_refl (pool : List Client) : Extends pool pool :=
  fun _ client hclient => ⟨client, hclient, rfl⟩

/-- Steps that add no pending client without its id. -/
theorem Keyed.extend (h : Keyed app) (hpool : Extends app.pool app'.pool)
    (hmap : ∀ pairingId i, app'.pendingClients.lookup pairingId = some i →
      app.pendingClients.lookup pairingId = some i ∨
        ∃ client, app'.pool[i]? = some client ∧ client.pairing.pairingId = pairingId) :
    Keyed app' := by
  intro pairingId i hlookup
  rcases hmap pairingId i hlookup with hold | hnew
  · obtain ⟨client, hclient, hid⟩ := h pairingId i hold
    obtain ⟨client', hclient', hpairing⟩ := hpool i client hclient
    exact ⟨client', hclient', by rw [hpairing, hid]⟩
  · exact hnew

/-- Forgetting a pending client. -/
theorem lookup_of_erase {clients : Dict String ℕ} {gone pairingId : String} {i : ℕ}
    (h : (clients.erase gone).lookup pairingId = some i) : clients.lookup pairingId = some i := by
  rw [lookup_erase_eq] at h
  split at h
  · cases h
  · exact h

/-- Forgetting some pending clients. -/
theorem lookup_of_dispose {clients : Dict String ℕ} {swept : List String} {pairingId : String} {i : ℕ}
    (h : (dispose clients swept).lookup pairingId = some i) :
    clients.lookup pairingId = some i := by
  induction swept generalizing clients with
  | nil => exact h
  | cons gone swept ih => exact lookup_of_erase (ih h)

/-- A loaded pending record is the one of its id. -/
theorem loadPending_eq_some {device : Device} {readable : Bool} {pairingId : String} {p : Pending}
    (h : loadPending device readable pairingId = some p) :
    p ∈ device.pending ∧ p.pairingId = pairingId := by
  rw [loadPending] at h
  split at h
  · have hid := List.find?_some h
    exact ⟨List.mem_of_find?_eq_some h, of_decide_eq_true hid⟩
  · cases h

theorem keyed_promoteConfirmed (h : Keyed app) (platform : Platform) (readable readableAgain : Bool)
    (now : ℤ) (pairingId : String) :
    Keyed (promoteConfirmed legacyId platform readable readableAgain now app pairingId) := by
  rw [promoteConfirmed]
  split
  · exact h
  · rename_i i hi
    split
    · exact h.extend (extends_refl app.pool) fun _ _ hlookup => .inl (lookup_of_erase hlookup)
    · split
      · dsimp only
        split
        · exact h.extend (extends_refl app.pool) fun _ _ hlookup => .inl hlookup
        · exact h.extend (extends_modify app.pool i) fun _ _ hlookup => .inl (lookup_of_erase hlookup)
      · exact h

theorem keyed_beginPending (h : Keyed app) (pairingId : String) (readable : Bool) :
    Keyed (beginPending app pairingId readable) := by
  rw [beginPending]
  split
  · exact h
  · split
    · exact h
    · rename_i p hp
      refine h.extend (extends_append app.pool _) fun other i hlookup => ?_
      rw [lookup_insert_eq] at hlookup
      split at hlookup
      · rename_i hother
        cases hlookup
        exact .inr ⟨_, List.getElem?_concat_length, by rw [hother]; exact (loadPending_eq_some hp).2⟩
      · exact .inl hlookup

/-- Every event keeps the pending clients under their ids. -/
theorem keyed_step (h : Keyed app) (e : Event) : Keyed (step legacyId decodes app e) := by
  cases e with
  | kx i v pct =>
    change Keyed (onKeyExchangeFrame app i v pct)
    rw [onKeyExchangeFrame]
    split
    · rename_i client hclient
      exact h.extend (extends_set hclient rfl) fun _ _ hlookup => .inl hlookup
    · exact h
  | hello i pct =>
    change Keyed (onHello app i pct)
    rw [onHello]
    split
    · exact h.extend (extends_refl app.pool) fun _ _ hlookup => .inl hlookup
    · exact h
  | job i =>
    change Keyed (onJob app i)
    rw [onJob]
    split
    · rename_i client hclient
      refine h.extend (extends_set hclient ?_) fun _ _ hlookup => .inl hlookup
      rw [Client.takeJob]
      split
      · rfl
      · rfl
      · rfl
    · exact h
  | promoteConfirmed platform readable readableAgain now =>
    rw [step]
    split
    · exact h
    · rename_i pairingId rest _
      have hrest : Keyed { app with promotions := rest } := h
      exact keyed_promoteConfirmed hrest platform readable readableAgain now pairingId
  | scan data now fails => exact h
  | beginPending pairingId readable => exact keyed_beginPending h pairingId readable
  | connect platform daemonId =>
    change Keyed (connect decodes app platform daemonId)
    rw [connect]
    split
    · exact h
    · exact h.extend (extends_append app.pool _) fun _ _ hlookup => .inl hlookup
  | cancelPending pairingId =>
    exact h.extend (extends_refl app.pool) fun _ _ hlookup => .inl (lookup_of_erase hlookup)
  | hideLocally found daemonId =>
    exact h.extend (extends_refl app.pool) fun _ _ hlookup => .inl (lookup_of_dispose hlookup)
  | remove found daemonId => exact h
  | sync records => exact h
  | snapshot platform smoke incoming =>
    refine h.extend (extends_refl app.pool) fun _ _ hlookup => .inl ?_
    rw [step] at hlookup
    dsimp only at hlookup
    split at hlookup
    · exact lookup_of_dispose hlookup
    · exact hlookup
  | relaunch platform cutoff legacy =>
    intro pairingId i hlookup
    change (∅ : Dict String ℕ).lookup pairingId = some i at hlookup
    cases hlookup

/-- The client is in the committed phase, or is told to be. -/
def IsCommitted (client : Client) : Prop :=
  client.isPendingPhase = false ∨ Job.setPairingPhase false ∈ client.jobs

/-- A client that replaces another does not run committed, when the other does not. -/
theorem runsCommitted_of_set {pool : List Client} {i : ℕ} {client client' : Client}
    (hclient : pool[i]? = some client) (hpairing : client'.pairing = client.pairing)
    (hphase : IsCommitted client' → IsCommitted client)
    (h : RunsCommitted key (pool.set i client')) : RunsCommitted key pool := by
  obtain ⟨found, hfound, hruns, hcommitted⟩ := h
  rcases List.mem_or_eq_of_mem_set hfound with hold | rfl
  · exact ⟨found, hold, hruns, hcommitted⟩
  · rw [RunsFor, hpairing] at hruns
    exact ⟨client, List.mem_of_getElem? hclient, hruns, hphase hcommitted⟩

/-- A new client runs committed only when it starts so. -/
theorem runsCommitted_of_append {pool : List Client} {pairing : Pairing} {pending : Bool}
    (h : RunsCommitted key (pool ++ [Client.open pairing pending])) :
    RunsCommitted key pool ∨
      pending = false ∧ pairing.pairingId = key.pairingId ∧ pairing.daemonId = key.daemonId := by
  obtain ⟨found, hfound, hruns, hcommitted⟩ := h
  rcases List.mem_append.mp hfound with hold | hnew
  · exact .inl ⟨found, hold, hruns, hcommitted⟩
  · rw [List.mem_singleton.mp hnew] at hruns hcommitted
    refine .inr ⟨?_, hruns⟩
    exact hcommitted.resolve_right List.not_mem_nil

/-- A client of another pairing id may be told to be committed. -/
theorem runsCommitted_of_modify {pool : List Client} {i : ℕ} {client : Client}
    (hclient : pool[i]? = some client) (hother : client.pairing.pairingId ≠ key.pairingId)
    (h : RunsCommitted key (pool.modify i Client.rewire)) : RunsCommitted key pool := by
  obtain ⟨found, hfound, hruns, hcommitted⟩ := h
  obtain ⟨j, hj⟩ := List.mem_iff_getElem?.mp hfound
  rw [List.getElem?_modify] at hj
  obtain ⟨before, hbefore, rfl⟩ := Option.map_eq_some_iff.mp hj
  by_cases hij : i = j
  · subst hij
    rw [hclient] at hbefore
    cases hbefore
    rw [if_pos rfl] at hruns
    exact absurd hruns.1 hother
  · rw [if_neg hij] at hruns hcommitted
    exact ⟨before, List.mem_of_getElem? hbefore, hruns, hcommitted⟩

/-- A job changes the phase only as it was told. -/
theorem isCommitted_of_takeJob {client : Client} (h : IsCommitted client.takeJob) :
    IsCommitted client := by
  rw [Client.takeJob] at h
  split at h
  · exact h
  · rename_i pending rest hjobs
    rcases h with rfl | hmem
    · exact .inr (by rw [hjobs]; exact List.mem_cons_self)
    · exact .inr (by rw [hjobs]; exact List.mem_cons_of_mem _ hmem)
  · rename_i promotes rest hjobs
    rcases h with hphase | hmem
    · exact .inl hphase
    · exact .inr (by rw [hjobs]; exact List.mem_cons_of_mem _ hmem)

end Clients

section Steps

variable {key : PairingKey} {app app' : App} {legacyId : String → String}
  {decodes : PairingBlob → Bool}

/-- Nothing is a blob of the pairing in an empty list. -/
theorem not_hasBlob_nil : ¬HasBlob key [] := by
  rintro ⟨blob, hmem, -⟩
  exact List.not_mem_nil hmem

/-- Operations without new blobs keep the protection. -/
theorem Protected.carry_nil (h : Protected key app)
    (hcarries : Carries key [] app.device app'.device) (hpresent : Present key app'.device)
    (hpool : RunsCommitted key app'.pool →
      RunsCommitted key app.pool ∨ HasBlob key app'.device.records.blobs) :
    Protected key app' :=
  h.carry hcarries hpresent (fun _ _ hnil => absurd hnil not_hasBlob_nil) hpool

/-- A promotion changes nothing, loses a blob in a failing addition, or commits the
pending record and tells the client of its id to be committed. -/
theorem promoteConfirmed_cases (platform : Platform) (readable readableAgain : Bool) (now : ℤ)
    (pairingId : String)
    (happ : app' = promoteConfirmed legacyId platform readable readableAgain now app pairingId) :
    (app'.device = app.device ∧ app'.pool = app.pool) ∨
      (∃ blob, app'.device = { app.device with records := app.device.records.save true blob } ∧
        app'.pool = app.pool) ∨
      ∃ i, ∃ p ∈ app.device.pending, app.pendingClients.lookup pairingId = some i ∧
        p.pairingId = pairingId ∧ platform.saveFails (committedBlob p now) = false ∧
        app'.device = removePending
          (persist legacyId platform app.device (committedBlob p now) p.floor) pairingId ∧
        app'.pool = app.pool.modify i Client.rewire := by
  subst happ
  rw [promoteConfirmed]
  split
  · exact .inl ⟨rfl, rfl⟩
  rename_i i hi
  split
  · exact .inl ⟨rfl, rfl⟩
  rename_i p hp
  obtain ⟨hmem, hpid⟩ := loadPending_eq_some hp
  split
  · cases hfails : platform.saveFails (committedBlob p now) with
    | true =>
      refine .inr (.inl ⟨committedBlob p now, ?_, rfl⟩)
      rw [promote, persist, hfails]
      rfl
    | false =>
      refine .inr (.inr ⟨i, p, hmem, hi, hpid, hfails, ?_, rfl⟩)
      rw [promote, hfails, hpid]
      rfl
  · exact .inl ⟨rfl, rfl⟩

/-- A promotion carries the floor of the pending record to the sidecar. -/
theorem protected_promoteConfirmed (hkeyed : Keyed app) (h : Protected key app)
    (platform : Platform) (readable readableAgain : Bool) (now : ℤ) (pairingId : String)
    (happ : app' = promoteConfirmed legacyId platform readable readableAgain now app pairingId)
    (hpresent : Present key app'.device) : Protected key app' := by
  rcases promoteConfirmed_cases platform readable readableAgain now pairingId happ with
      ⟨hdevice, hpool⟩ | ⟨blob, hdevice, hpool⟩ | ⟨i, p, hmem, hi, hpid, hsaved, hdevice, hpool⟩
  · refine h.carry_nil ?_ hpresent fun hruns => .inl (hpool ▸ hruns)
    rw [hdevice]
    exact Carries.refl key [] app.device
  · refine h.carry_nil ?_ hpresent fun hruns => .inl (hpool ▸ hruns)
    rw [hdevice]
    refine carries_records key [] app.device fun found hfound => ?_
    rcases mem_save_iff.mp hfound with ⟨hold, -⟩ | ⟨hfalse, -⟩
    · exact .inl hold
    · cases hfalse
  · have hpersist : Carries key [committedBlob p now] app.device
        (persist legacyId platform app.device (committedBlob p now) p.floor) :=
      carries_persist key _ legacyId platform app.device List.mem_cons_self p.floor
    have hcarries : Carries key [committedBlob p now] app.device app'.device := by
      rw [hdevice]
      exact hpersist.trans (carries_removePending key _ _ pairingId)
    by_cases hkey : pairingId = key.pairingId
    · refine ⟨hpresent, ?_, .inl ?_⟩
      · intro q hq hqid
        rw [hdevice] at hq
        have hne := of_decide_eq_true (List.mem_filter.mp hq).2
        exact absurd (hqid.trans hkey.symm) hne
      · rcases h.committed with hfloor | ⟨hdid, -, -⟩
        · exact hfloor.trans hcarries.floor
        · have hfloor := h.pending p hmem (hpid.trans hkey)
          rw [hdevice, ← hdid p hmem (hpid.trans hkey)]
          exact hfloor.trans (le_committedFloor_persist legacyId app.device p.floor hsaved)
    · obtain ⟨client, hclient, hclientId⟩ := hkeyed pairingId i hi
      refine h.carry hcarries hpresent ?_ ?_
      · rintro - - ⟨blob, hblob, hid, -⟩ -
        rw [List.mem_singleton.mp hblob] at hid
        exact absurd (hpid.symm.trans hid) hkey
      · intro hruns
        rw [hpool] at hruns
        exact .inl (runsCommitted_of_modify hclient
          (fun hid => hkey (hclientId.symm.trans hid)) hruns)

/-- A scan stores one pending record. -/
theorem mem_persistPending {device : Device} {p q : Pending}
    (hq : q ∈ (persistPending device p).pending) : q = p ∨ q ∈ device.pending := by
  rw [persistPending] at hq
  dsimp only at hq
  split at hq
  · obtain ⟨old, hold, rfl⟩ := List.mem_map.mp hq
    split
    · exact .inl rfl
    · exact .inr hold
  · rcases List.mem_append.mp hq with hold | hnew
    · exact .inr hold
    · exact .inl (List.mem_singleton.mp hnew)

/-- A scan keeps the protection, when its code brings version 3. -/
theorem protected_scan (h : Protected key app) {data : PairingData} {now : ℤ} {fails : Bool}
    (hguard : Guarded legacyId key app (.scan data now fails))
    (hdevice : app'.device = ingest legacyId app.device data now fails) (hpool : app'.pool = app.pool)
    (hpresent : Present key app'.device) : Protected key app' := by
  have hshown := carries_unhideForDaemon key [] legacyId app.device (decode legacyId data now).did
    (decode legacyId data now).pairingId
  cases fails with
  | true =>
    refine h.carry_nil ?_ hpresent fun hruns => .inl (hpool ▸ hruns)
    rw [hdevice]
    exact hshown
  | false =>
    have hmem : ∀ q ∈ app'.device.pending, q = decode legacyId data now ∨ q ∈ app.device.pending := by
      intro q hq
      rw [hdevice] at hq
      exact (mem_persistPending hq).imp_right (hshown.pending q)
    have hcode := fun hid => hguard rfl hid h.remembered
    refine ⟨hpresent, ?_, ?_⟩
    · intro q hq hid
      rcases hmem q hq with rfl | hold
      · rw [decode, if_pos (hcode hid).1]
      · exact h.pending q hold hid
    · by_cases hfloor : 3 ≤ committedFloor app.device key.daemonId
      · left
        rw [hdevice]
        exact hfloor.trans hshown.floor
      · obtain ⟨hdid, hblob, hruns⟩ := h.committed.resolve_left hfloor
        refine .inr ⟨?_, ?_, hpool ▸ hruns⟩
        · intro q hq hid
          rcases hmem q hq with rfl | hold
          · exact (hcode hid).2.resolve_right hfloor
          · exact hdid q hold hid
        · rintro ⟨blob, hfound, hkey⟩
          rw [hdevice] at hfound
          rcases hshown.blobs blob hfound with hold | hnil
          · exact hblob ⟨blob, hold, hkey⟩
          · cases hnil

/-- A loaded pairing has its blob. -/
theorem hasBlob_of_load {platform : Platform} {device : Device} {daemonId : String}
    {pairing : Pairing} (h : (load decodes platform device daemonId).2 = some pairing)
    (hid : pairing.pairingId = key.pairingId) (hdid : pairing.daemonId = key.daemonId) :
    HasBlob key (load decodes platform device daemonId).1.records.blobs := by
  rw [load] at h ⊢
  dsimp only at h ⊢
  obtain ⟨pairingId, -, hread⟩ := Option.bind_eq_some_iff.mp h
  obtain ⟨blobs, hblobs, hfind⟩ := Option.bind_eq_some_iff.mp hread
  obtain ⟨blob, hblob, hdecoded⟩ := Option.bind_eq_some_iff.mp hfind
  rw [Platform.loadAll] at hblobs
  split at hblobs
  · cases hblobs
  · cases hblobs
    split at hdecoded
    · cases hdecoded
      refine ⟨blob, ?_, hid, hdid⟩
      exact (platform.enumerate_perm 1 _).mem_iff.mp (List.mem_of_find?_eq_some hblob)
    · cases hdecoded

/-- A client for a committed pairing runs only where the pairing has its blob. -/
theorem protected_connect (h : Protected key app) (platform : Platform) (daemonId : String)
    (hpresent : Present key (connect decodes app platform daemonId).device) :
    Protected key (connect decodes app platform daemonId) := by
  have hcarries : Carries key [] app.device (load decodes platform app.device daemonId).1 :=
    carries_reconciledPointers key [] app.device _
  have hdevice : (connect decodes app platform daemonId).device =
      (load decodes platform app.device daemonId).1 := by
    rw [connect]
    split
    · rfl
    · rfl
  refine h.carry_nil (hdevice ▸ hcarries) hpresent fun hruns => ?_
  rw [hdevice]
  rw [connect] at hruns
  split at hruns
  · exact .inl hruns
  · rename_i pairing hpairing
    exact (runsCommitted_of_append hruns).imp_right fun hnew =>
      hasBlob_of_load hpairing hnew.2.1 hnew.2.2

/-- Starting again keeps the protection, when no old record of the pairing is taken
over below version 3. -/
theorem protected_relaunch (h : Protected key app) {platform : Platform} {cutoff : ℤ}
    {legacy : List PairingBlob} (hguard : Guarded legacyId key app (.relaunch platform cutoff legacy))
    (hpresent : Present key (step legacyId decodes app (.relaunch platform cutoff legacy)).device) :
    Protected key (step legacyId decodes app (.relaunch platform cutoff legacy)) := by
  have hpool : RunsCommitted key
      (step legacyId decodes app (.relaunch platform cutoff legacy)).pool →
        RunsCommitted key app.pool ∨ HasBlob key
          (step legacyId decodes app (.relaunch platform cutoff legacy)).device.records.blobs := by
    rintro ⟨client, hmem, -⟩
    cases hmem
  have hstored : ∀ added, Carries key added app.device { app.device with lastGood := none } :=
    fun added => carries_of_eq rfl rfl fun _ hblob => .inl hblob
  cases hmigrated : app.migrated with
  | true =>
    refine h.carry_nil ?_ hpresent hpool
    rw [step, hmigrated]
    exact (hstored []).trans (carries_gcPending key [] _ cutoff)
  | false =>
    have hcarries : Carries key legacy app.device
        (step legacyId decodes app (.relaunch platform cutoff legacy)).device := by
      rw [step, hmigrated]
      exact ((hstored legacy).trans (carries_migrate key platform _ legacy)).trans
        (carries_gcPending key legacy _ cutoff)
    exact h.carry hcarries hpresent
      (fun honly _ hlegacy _ => absurd hlegacy (hguard honly hmigrated)) hpool

/-- A snapshot keeps the protection, when it brings the pairing with its floor. -/
theorem protected_snapshot (h : Protected key app) {platform : Platform} {smoke : Bool}
    {incoming : PairingSnapshot} (hguard : Guarded legacyId key app (.snapshot platform smoke incoming))
    (hpresent : Present key (step legacyId decodes app (.snapshot platform smoke incoming)).device) :
    Protected key (step legacyId decodes app (.snapshot platform smoke incoming)) := by
  have hcarries : Carries key incoming.pairings app.device
      (step legacyId decodes app (.snapshot platform smoke incoming)).device :=
    carries_applyPeerSnapshot key legacyId platform smoke app.device incoming
  refine h.carry hcarries hpresent ?_ fun hruns => .inl hruns
  intro honly hnone hincoming hblob
  have hfloor := hguard honly hincoming
  cases hlookup : incoming.floors.lookup key.daemonId with
  | none =>
    rw [hlookup] at hfloor
    exact absurd hfloor (by decide)
  | some floor =>
    rw [hlookup] at hfloor
    rcases floor_applyPeerSnapshot key legacyId platform smoke app.device hincoming hlookup with
        hsame | hreached
    · change HasBlob key (applyPeerSnapshot legacyId platform smoke app.device
        incoming).1.records.blobs at hblob
      rw [hsame] at hblob
      exact absurd hblob hnone
    · exact hfloor.trans hreached

/-- A new client for a pending pairing is not committed. -/
theorem protected_beginPending (h : Protected key app) (pairingId : String) (readable : Bool) :
    Protected key (beginPending app pairingId readable) := by
  rw [beginPending]
  split
  · exact h
  · split
    · exact h
    · refine h.carry_nil (Carries.refl key [] app.device) h.present fun hruns => ?_
      refine .inl ((runsCommitted_of_append hruns).resolve_right ?_)
      rintro ⟨hpending, -⟩
      cases hpending

/-- What a key exchange does to a device. -/
theorem device_onKeyExchangeFrame {i : ℕ} {v : Option ℤ} {pct : Option String} {client : Client}
    (hclient : app.pool[i]? = some client) :
    (onKeyExchangeFrame app i v pct).device =
      raiseFloor app.device { client with epochAdvertisedV := v.getD 1, epochPct := pct }
        (v.getD 1) := by
  rw [onKeyExchangeFrame, hclient]

/-- A key exchange changes no phase. -/
theorem runsCommitted_of_onKeyExchangeFrame (i : ℕ) (v : Option ℤ) (pct : Option String)
    (h : RunsCommitted key (onKeyExchangeFrame app i v pct).pool) : RunsCommitted key app.pool := by
  rw [onKeyExchangeFrame] at h
  split at h
  · rename_i client hclient
    have hpairing : ({ client with epochAdvertisedV := v.getD 1, epochPct := pct } : Client).pairing =
        client.pairing := rfl
    exact runsCommitted_of_set hclient hpairing id h
  · exact h

/-- What a hello does to a device. -/
theorem device_onHello {i : ℕ} {pct : Option String} {client : Client}
    (hclient : app.pool[i]? = some client) :
    (onHello app i pct).device = (resolvePromotion app.device client pct).1 := by
  rw [onHello, hclient]

/-- A hello runs no client. -/
theorem pool_onHello (i : ℕ) (pct : Option String) : (onHello app i pct).pool = app.pool := by
  rw [onHello]
  split
  · rfl
  · rfl

/-- The events of a run keep the protection. -/
theorem protected_step (hkeyed : Keyed app) (h : Protected key app) (e : Event)
    (hguard : Guarded legacyId key app e) (hkeeps : Keeps legacyId decodes key app e) :
    Protected key (step legacyId decodes app e) := by
  have hpresent := hkeeps.2
  cases e with
  | kx i v pct =>
    change Protected key (onKeyExchangeFrame app i v pct)
    cases hclient : app.pool[i]? with
    | none =>
      rw [onKeyExchangeFrame, hclient]
      exact h
    | some client =>
      exact h.raise (device_onKeyExchangeFrame hclient) hpresent
        (runsCommitted_of_onKeyExchangeFrame i v pct)
  | hello i pct =>
    change Protected key (onHello app i pct)
    cases hclient : app.pool[i]? with
    | none =>
      rw [onHello, hclient]
      exact h
    | some client =>
      cases pct with
      | none =>
        refine h.carry_nil ?_ hpresent fun hruns => .inl (pool_onHello i none ▸ hruns)
        rw [device_onHello hclient]
        exact Carries.refl key [] app.device
      | some tag =>
        exact h.raise (device_onHello hclient) hpresent fun hruns => pool_onHello i (some tag) ▸ hruns
  | job i =>
    change Protected key (onJob app i)
    rw [onJob]
    split
    · rename_i client hclient
      refine h.carry_nil (Carries.refl key [] app.device) h.present fun hruns => .inl ?_
      refine runsCommitted_of_set hclient ?_ isCommitted_of_takeJob hruns
      rw [Client.takeJob]
      split
      · rfl
      · rfl
      · rfl
    · exact h
  | promoteConfirmed platform readable readableAgain now =>
    change Present key (step legacyId decodes app _).device at hpresent
    rw [step] at hpresent ⊢
    split
    · exact h
    · rename_i pairingId rest hpromotions
      rw [hpromotions] at hpresent
      have hrest : Keyed { app with promotions := rest } := hkeyed
      have hprotected : Protected key { app with promotions := rest } :=
        ⟨h.present, h.pending, h.committed⟩
      exact protected_promoteConfirmed hrest hprotected platform readable readableAgain now pairingId
        rfl hpresent
  | scan data now fails => exact protected_scan h hguard rfl rfl hpresent
  | beginPending pairingId readable => exact protected_beginPending h pairingId readable
  | connect platform daemonId => exact protected_connect h platform daemonId hpresent
  | cancelPending pairingId =>
    exact h.carry_nil (carries_removePending key [] app.device pairingId) hpresent .inl
  | hideLocally found daemonId =>
    exact h.carry_nil (carries_hideLocally key [] app.device found daemonId) hpresent .inl
  | remove found daemonId =>
    exact h.carry_nil (carries_remove key [] legacyId app.device found hkeeps.1) hpresent .inl
  | sync records =>
    have hcarries : Carries key records.blobs app.device { app.device with records } :=
      carries_records key _ app.device fun _ hblob => .inr hblob
    exact h.carry hcarries hpresent
      (fun honly _ harrives _ => absurd harrives (hguard honly)) .inl
  | snapshot platform smoke incoming => exact protected_snapshot h hguard hpresent
  | relaunch platform cutoff legacy => exact protected_relaunch h hguard hpresent

/-- An observation that reaches the records protects the pairing. -/
theorem protected_of_observes (e : Event) (hobserves : Observes key app e)
    (hguard : Guarded legacyId key app e) (hkeeps : Keeps legacyId decodes key app e) :
    Protected key (step legacyId decodes app e) := by
  have hpresent := hkeeps.2
  cases e with
  | kx i v pct =>
    obtain ⟨client, hclient, hruns, hv⟩ := hobserves
    have hreaches : Reaches key app { client with epochAdvertisedV := v.getD 1, epochPct := pct } :=
      hguard client hclient hruns hv
    exact protected_of_reaches hruns hreaches hv
      (device_onKeyExchangeFrame (Option.mem_def.mp hclient)) hpresent
      (runsCommitted_of_onKeyExchangeFrame i v pct)
  | hello i pct =>
    cases pct with
    | none => exact hobserves.elim
    | some tag =>
      obtain ⟨client, hclient, hruns⟩ := hobserves
      exact protected_of_reaches hruns (hguard client hclient hruns) (le_max_right _ 3)
        (device_onHello (Option.mem_def.mp hclient)) hpresent
        fun hruns' => pool_onHello i (some tag) ▸ hruns'
  | _ => exact hobserves.elim

/-- A protected pairing accepts no hello without a tag. -/
theorem not_takesLegacyCommit (h : Protected key app) (e : Event)
    (hguard : Guarded legacyId key app e) : ¬TakesLegacyCommit key app e := by
  cases e with
  | hello i pct =>
    cases pct with
    | some tag => exact id
    | none =>
      rintro ⟨client, hclient, hruns, hlegacy⟩
      have hlow : effectiveV app.device client < 3 := by
        by_contra hhigh
        rw [resolvePromotion, if_neg hhigh] at hlegacy
        cases hlegacy
      rw [effectiveV, max_lt_iff, max_lt_iff, hruns.1, hruns.2, storedFloor] at hlow
      obtain ⟨hepoch, hloaded, hstored⟩ := hlow
      split at hstored
      · rename_i hphase
        rcases hguard client hclient hruns hphase h.remembered with hsome | hv | hv
        · obtain ⟨p, hp⟩ := Option.ne_none_iff_exists'.mp hsome
          rw [hp] at hstored
          have hid := List.find?_some hp
          have hthree := h.pending p (List.mem_of_find?_eq_some hp) (of_decide_eq_true hid)
          exact absurd hstored (not_lt.mpr hthree)
        · exact absurd hepoch (not_lt.mpr hv)
        · exact absurd hloaded (not_lt.mpr hv)
      · rename_i hphase
        have hcommitted : RunsCommitted key app.pool :=
          ⟨client, List.mem_of_getElem? (Option.mem_def.mp hclient), hruns,
            .inl (Bool.eq_false_of_not_eq_true hphase)⟩
        rcases h.committed with hthree | ⟨-, -, hnone⟩
        · exact absurd hstored (not_lt.mpr hthree)
        · exact hnone hcommitted
  | _ => exact id

end Steps

section Runs

variable (legacyId : String → String) (decodes : PairingBlob → Bool)

/-- In every run in which observations reach the records of the pairing and new
records of it name version 3 too, no hello without a tag is accepted for the pairing
once version 3 was observed. -/
theorem guarded_runs_never_downgrade (key : PairingKey) (device : Device) (migrated : Bool)
    (events : List Event)
    (hguard : Meets (step legacyId decodes) (Guarded legacyId key) (App.start device migrated) events) :
    NeverDowngrades legacyId decodes key (App.start device migrated) events := by
  intro before e mid last rest hevents hobserves hkeeps
  have hstart : Keyed (App.start device migrated) := by
    intro pairingId i hlookup
    cases hlookup
  have hstep : ∀ app e, Keyed app → Keyed (step legacyId decodes app e) :=
    fun app e h => keyed_step h e
  have hkeyed := runFrom_induction hstep hstart before
  subst hevents
  rw [meets_append, Meets, meets_append] at hguard
  obtain ⟨-, hat, hmid, hlast⟩ := hguard
  have hobserved := protected_of_observes e hobserves hat hkeeps.1
  have hboth : Meets (step legacyId decodes)
      (fun app e => Guarded legacyId key app e ∧ Keeps legacyId decodes key app e) _ mid :=
    meets_and.mpr ⟨hmid, hkeeps.2⟩
  have hprotected := runFrom_induction_of_meets
    (fun app e (h : Keyed app ∧ Protected key app) hmet =>
      And.intro (keyed_step h.1 e) (protected_step h.1 h.2 e hmet.1 hmet.2))
    ⟨keyed_step hkeyed e, hobserved⟩ hboth
  rw [runFrom_append, runFrom_cons]
  exact not_takesLegacyCommit hprotected.2 last hlast.1

end Runs

section Samples

/-- A code without a pairing id, from a daemon before version 4. -/
def sampleCode : PairingData := ⟨"ps", "pk", "wss://relay", "d", 3, "", "host"⟩

/-- The pairing of the code. -/
def sampleKey : PairingKey := ⟨"legacy-d", "d"⟩

/-- The code is scanned and its daemon shows version 3. -/
def observedRun : List Event :=
  [.scan sampleCode 0 false, .beginPending "legacy-d" true, .kx 0 (some 3) (some "tag")]

/-- The daemon confirms the pairing, the app starts again and reads an older
version. -/
def confirmedRun : List Event :=
  [.hello 0 (some "tag"), .promoteConfirmed steadyPlatform true true 10, .job 0, .job 0,
    .relaunch steadyPlatform 0 [], .connect steadyPlatform "d", .kx 0 (some 2) (some "tag")]

/-- A device without pairings. -/
def emptyDevice : Device := ⟨⟨[], List.nodup_nil⟩, [], ⟨[], ∅⟩, none, ∅, []⟩

/-- Every observation of the run reaches the records. -/
theorem guarded_confirmedRun :
    Meets (step sampleLegacyId fun _ => true) (Guarded sampleLegacyId sampleKey)
      (App.start emptyDevice true) (observedRun ++ (confirmedRun ++ [.hello 0 none])) := by
  refine ⟨?_, trivial, ?_, ?_, trivial, trivial, trivial, ?_, trivial, ?_, ?_, trivial⟩
  · rw [Guarded]
    decide +kernel
  · rw [Guarded]
    decide +kernel
  · rw [Guarded]
    decide +kernel
  · rw [Guarded]
    decide +kernel
  · rw [Guarded]
    decide +kernel
  · rw [Guarded]
    decide +kernel

/-- A scanned pairing whose daemon showed version 3 refuses an older hello after a
restart. -/
theorem guarded_runs_confirmedRun :
    ¬TakesLegacyCommit sampleKey
      (runFrom (step sampleLegacyId fun _ => true) (App.start emptyDevice true)
        (observedRun ++ confirmedRun)) (.hello 0 none) := by
  refine guarded_runs_never_downgrade sampleLegacyId (fun _ => true) sampleKey emptyDevice true _
    guarded_confirmedRun observedRun.dropLast (.kx 0 (some 3) (some "tag")) confirmedRun
    (.hello 0 none) [] rfl ?_ ?_
  · rw [Observes]
    decide +kernel
  · refine ⟨⟨id, ?_⟩, ⟨id, ?_⟩, ⟨id, ?_⟩, ⟨id, ?_⟩, ⟨id, ?_⟩, ⟨id, ?_⟩, ⟨id, ?_⟩, ⟨id, ?_⟩, trivial⟩
    · decide +kernel
    · decide +kernel
    · decide +kernel
    · decide +kernel
    · decide +kernel
    · decide +kernel
    · decide +kernel
    · decide +kernel

/-- A pairing that arrived through the keychain: the device has no sidecar for it. -/
def syncedDevice : Device :=
  ⟨⟨[sampleBlob "p1" 1], List.nodup_singleton _⟩, [], ⟨[], ∅⟩, none, ∅, []⟩

/-- Version 3 is read. -/
def syncedRun : List Event := [.connect steadyPlatform "d", .kx 0 (some 3) (some "tag")]

/-- The app starts again and reads an older version. -/
def restartedRun : List Event :=
  [.relaunch steadyPlatform 0 [], .connect steadyPlatform "d", .kx 0 (some 2) (some "tag")]

/-- Without a sidecar the observation is forgotten when the app starts again, and a
hello without a tag is accepted. -/
theorem synced_pairing_downgrades :
    ¬NeverDowngrades sampleLegacyId (fun _ => true) ⟨"p1", "d"⟩ (App.start syncedDevice true)
      (syncedRun ++ (restartedRun ++ [.hello 0 none])) := by
  intro h
  refine h syncedRun.dropLast (.kx 0 (some 3) (some "tag")) restartedRun (.hello 0 none) [] rfl
    ?_ ?_ ?_
  · rw [Observes]
    decide +kernel
  · refine ⟨⟨id, ?_⟩, ⟨id, ?_⟩, ⟨id, ?_⟩, ⟨id, ?_⟩, trivial⟩
    · decide +kernel
    · decide +kernel
    · decide +kernel
    · decide +kernel
  · rw [TakesLegacyCommit]
    decide +kernel

end Samples

end Teleprompter.AntiDowngrade
