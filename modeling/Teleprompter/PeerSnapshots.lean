import Teleprompter.PairingReconcile

/-!
# Deletions by an adopted snapshot

A watch that adopts a snapshot of its phone hides daemons instead of deleting their
blobs, but it ends with the reconciliation that all paths share, which deletes
where a daemon has two visible blobs. Adopting a daemon, or holding a copy of the
incoming blob, hides its other blobs; a daemon that the snapshot lacks, and one whose
incoming blob is not adopted, may still show two.
-/

namespace Teleprompter.PeerSnapshots

open FiniteDictionary BestPerKey PairingRecords PairingReconcile

section Statements

variable (legacyId : String → String) (platform : Platform)

/-- Every blob still has a blob of its pairing and daemon afterwards. -/
def NeverRemoves (smoke : Bool) (device : Device) (snapshot : PairingSnapshot) : Prop :=
  ∀ blob ∈ device.records.blobs,
    ∃ kept ∈ (applyPeerSnapshot legacyId platform smoke device snapshot).1.records.blobs,
      kept.pairingId = blob.pairingId ∧ kept.did = blob.did

/-- At most one blob of the daemon is visible. -/
def ShowsAtMostOne (hidden : List String) (blobs : List PairingBlob) (did : String) : Prop :=
  ∀ a ∈ blobs, ∀ b ∈ blobs, a.did = did → b.did = did → Shows hidden a → Shows hidden b → a = b

/-- The blobs of the snapshot, one for each daemon. -/
def incomingByDid (snapshot : PairingSnapshot) : Dict String PairingBlob :=
  (rank PairingBlob.did isNewer snapshot.pairings).best

/-- The device has a copy of the incoming blob. -/
def HoldsCopy (device : Device) (incoming : PairingBlob) : Prop :=
  ∃ mine ∈ device.records.blobs, mine.did = incoming.did ∧ mine.pairingId = incoming.pairingId

/-- The incoming blob is newer than every other blob of its daemon. -/
def Supersedes (device : Device) (incoming : PairingBlob) : Prop :=
  ∀ old ∈ device.records.blobs, old.did = incoming.did → old.pairingId ≠ incoming.pairingId →
    isNewer incoming old = true

/-- What keeps the blobs of a daemon that the snapshot shows. With a copy of the
incoming blob, replacing it by a newer one does not fail; without one, the incoming
blob is adopted, or at most one blob is visible when its ids are shown again. -/
def SparesShown (device : Device) (incoming : PairingBlob) : Prop :=
  (HoldsCopy device incoming →
    (∀ mine ∈ device.records.blobs, mine.did = incoming.did →
      mine.pairingId = incoming.pairingId → isNewer incoming mine = true) →
    Supersedes device incoming → platform.saveFails incoming = false) ∧
  (¬HoldsCopy device incoming →
    platform.locked 1 = true ∨
      Supersedes device incoming ∧ platform.saveFails incoming = false ∨
      ShowsAtMostOne
        (unhideForDaemon legacyId device incoming.did incoming.pairingId).hidden
        device.records.blobs incoming.did)

/-- What keeps every blob: nothing is read, or each daemon that the snapshot lacks
has at most one visible blob and those that it shows are spared. -/
def Spares (smoke : Bool) (device : Device) (snapshot : PairingSnapshot) : Prop :=
  smoke = false → snapshot.schemaVersion ≤ currentSchemaVersion → platform.locked 0 = false →
    (∀ did, did ∉ incomingByDid snapshot →
      platform.locked 1 = true ∨ ShowsAtMostOne device.hidden device.records.blobs did) ∧
    ∀ did incoming, (incomingByDid snapshot).lookup did = some incoming →
      SparesShown legacyId platform device incoming

/-- A pairing id belongs to one daemon, also where it is the one that older pairings
of a daemon have. -/
structure Coherent (known : List PairingBlob) : Prop where
  one : ∀ a ∈ known, ∀ b ∈ known, a.pairingId = b.pairingId → a.did = b.did
  legacy : ∀ a ∈ known, ∀ did, a.pairingId = legacyId did → a.did = did

end Statements

section Adoption

variable {legacyId : String → String} {platform : Platform} {held : List PairingBlob}
  {device : Device} {incoming : PairingBlob}

/-- Hiding ids adds them to the hidden ones. -/
theorem mem_foldl_setLocalHidden (ids : List String) (device : Device) (pid : String) :
    pid ∈ (ids.foldl setLocalHidden device).hidden ↔ pid ∈ device.hidden ∨ pid ∈ ids := by
  induction ids generalizing device with
  | nil => simp
  | cons id ids ih =>
    have hset : pid ∈ (setLocalHidden device id).hidden ↔ pid ∈ device.hidden ∨ pid = id := by
      rw [setLocalHidden]
      split
      · rename_i hmem
        constructor
        · exact .inl
        · rintro (h | rfl)
          · exact h
          · exact hmem
      · simp
    rw [List.foldl_cons, ih, hset, List.mem_cons, or_assoc]

/-- Hiding ids leaves the blobs. -/
theorem records_foldl_setLocalHidden (ids : List String) (device : Device) :
    (ids.foldl setLocalHidden device).records = device.records := by
  induction ids generalizing device with
  | nil => rfl
  | cons id ids ih =>
    rw [List.foldl_cons, ih, setLocalHidden]
    split
    · rfl
    · rfl

/-- Clearing a tombstone shows its id, unless it is empty. -/
theorem mem_clearLocalHide (device : Device) (id pid : String) :
    pid ∈ (clearLocalHide device id).hidden ↔ pid ∈ device.hidden ∧ ¬(id ≠ "" ∧ pid = id) := by
  rw [clearLocalHide]
  split
  · rename_i hempty
    simp [hempty]
  · rename_i hne
    simp [hne]

/-- Clearing a tombstone leaves the blobs. -/
theorem records_clearLocalHide (device : Device) (id : String) :
    (clearLocalHide device id).records = device.records := by
  rw [clearLocalHide]
  split
  · rfl
  · rfl

/-- The blobs that an incoming one supersedes. -/
def superseded (held : List PairingBlob) (incoming : PairingBlob) : List PairingBlob :=
  (held.filter (·.did = incoming.did)).filter (·.pairingId ≠ incoming.pairingId)

/-- A superseded blob is one of the same daemon under another id. -/
theorem mem_superseded_iff {old : PairingBlob} :
    old ∈ superseded held incoming ↔
      old ∈ held ∧ old.did = incoming.did ∧ old.pairingId ≠ incoming.pairingId := by
  rw [superseded, List.mem_filter, List.mem_filter, decide_eq_true_iff, decide_eq_true_iff,
    and_assoc]

/-- A copy of the incoming blob is held. -/
def Own (held : List PairingBlob) (incoming : PairingBlob) : Prop :=
  ∃ mine ∈ held.filter (·.did = incoming.did), mine.pairingId = incoming.pairingId

instance (held : List PairingBlob) (incoming : PairingBlob) : Decidable (Own held incoming) :=
  inferInstanceAs (Decidable (∃ mine ∈ _, _))

/-- The incoming blob is not written: the copy is as new, or another blob is. -/
def Skips (held : List PairingBlob) (incoming : PairingBlob) : Prop :=
  (∃ mine ∈ (held.filter (·.did = incoming.did)).find? (·.pairingId = incoming.pairingId),
    isNewer incoming mine = false) ∨
  ∃ old ∈ superseded held incoming, isNewer incoming old = false

/-- The device after one blob of a snapshot. -/
def adoptDevice (legacyId : String → String) (platform : Platform) (held : List PairingBlob)
    (device : Device) (incoming : PairingBlob) : Device :=
  (adoptBlob legacyId platform held ⟨device, 0, 0⟩ incoming).device

/-- The counts do not matter for the device. -/
theorem adoptBlob_device (adoption : Adoption) :
    (adoptBlob legacyId platform held adoption incoming).device =
      adoptDevice legacyId platform held adoption.device incoming := by
  rw [adoptDevice, adoptBlob, adoptBlob]
  dsimp only
  split
  · rfl
  · split
    · rfl
    · split
      · rfl
      · rfl

/-- The device after all blobs of a snapshot. -/
theorem foldl_adoptBlob_device (blobs : List PairingBlob) (adoption : Adoption) :
    (blobs.foldl (adoptBlob legacyId platform held) adoption).device =
      blobs.foldl (adoptDevice legacyId platform held) adoption.device := by
  induction blobs generalizing adoption with
  | nil => rfl
  | cons blob blobs ih => rw [List.foldl_cons, List.foldl_cons, ih, adoptBlob_device]

/-- The device when its own copy has been taken into account. -/
def settle (legacyId : String → String) (held : List PairingBlob) (device : Device)
    (incoming : PairingBlob) : Device :=
  if Own held incoming then
    ((superseded held incoming).map PairingBlob.pairingId).foldl setLocalHidden
      (unhideForDaemon legacyId device incoming.did incoming.pairingId)
  else unhideForDaemon legacyId device incoming.did incoming.pairingId

/-- How one blob of a snapshot is taken: skipped, lost in a failing addition, or
written with the blobs it supersedes hidden. -/
theorem adoptDevice_cases :
    (Skips held incoming ∧
        adoptDevice legacyId platform held device incoming =
          settle legacyId held device incoming) ∨
      (¬Skips held incoming ∧ platform.saveFails incoming = true ∧
        adoptDevice legacyId platform held device incoming =
          { settle legacyId held device incoming with
            records := (settle legacyId held device incoming).records.save true incoming }) ∨
      (¬Skips held incoming ∧ platform.saveFails incoming = false ∧
        adoptDevice legacyId platform held device incoming =
          ((superseded held incoming).map PairingBlob.pairingId).foldl setLocalHidden
            (setPointer
              { settle legacyId held device incoming with
                records := (settle legacyId held device incoming).records.save false incoming }
              incoming.did incoming.pairingId)) := by
  rw [adoptDevice, adoptBlob]
  dsimp only
  split
  · rename_i hmine
    exact .inl ⟨.inl hmine, rfl⟩
  · rename_i hmine
    split
    · rename_i hold
      exact .inl ⟨.inr hold, rfl⟩
    · rename_i hold
      have hwrites : ¬Skips held incoming := by
        rintro (h | h)
        · exact hmine h
        · exact hold h
      cases hfails : platform.saveFails incoming with
      | true => exact .inr (.inl ⟨hwrites, rfl, rfl⟩)
      | false => exact .inr (.inr ⟨hwrites, rfl, rfl⟩)

/-- Taking the own copy into account leaves the blobs. -/
theorem records_settle : (settle legacyId held device incoming).records = device.records := by
  rw [settle]
  split
  · rw [records_foldl_setLocalHidden, unhideForDaemon, records_clearLocalHide,
      records_clearLocalHide]
  · rw [unhideForDaemon, records_clearLocalHide, records_clearLocalHide]

/-- The blobs after one blob of a snapshot. -/
theorem records_adoptDevice (legacyId : String → String) (platform : Platform)
    (held : List PairingBlob) (device : Device) (incoming : PairingBlob) :
    (Skips held incoming ∧
        (adoptDevice legacyId platform held device incoming).records = device.records) ∨
      ¬Skips held incoming ∧
        (adoptDevice legacyId platform held device incoming).records =
          device.records.save (platform.saveFails incoming) incoming := by
  rcases adoptDevice_cases with ⟨hskips, hdevice⟩ | ⟨hwrites, hfails, hdevice⟩ |
      ⟨hwrites, hfails, hdevice⟩
  · exact .inl ⟨hskips, by rw [hdevice, records_settle]⟩
  · refine .inr ⟨hwrites, ?_⟩
    rw [hdevice, hfails]
    dsimp only
    rw [records_settle]
  · refine .inr ⟨hwrites, ?_⟩
    rw [hdevice, hfails, records_foldl_setLocalHidden]
    dsimp only [setPointer, writePointers]
    rw [records_settle]

/-- The hidden ids when the own copy has been taken into account. -/
theorem mem_hidden_settle (pid : String) :
    pid ∈ (settle legacyId held device incoming).hidden ↔
      pid ∈ (unhideForDaemon legacyId device incoming.did incoming.pairingId).hidden ∨
        Own held incoming ∧ pid ∈ (superseded held incoming).map PairingBlob.pairingId := by
  rw [settle]
  split
  · rename_i hown
    rw [mem_foldl_setLocalHidden]
    exact or_congr_right (and_iff_right hown).symm
  · rename_i hown
    exact ⟨.inl, fun h => h.resolve_right fun h => hown h.1⟩

/-- The hidden ids after one blob of a snapshot. -/
theorem mem_hidden_adoptDevice (pid : String) :
    pid ∈ (adoptDevice legacyId platform held device incoming).hidden ↔
      pid ∈ (unhideForDaemon legacyId device incoming.did incoming.pairingId).hidden ∨
        (Own held incoming ∨ ¬Skips held incoming ∧ platform.saveFails incoming = false) ∧
          pid ∈ (superseded held incoming).map PairingBlob.pairingId := by
  rcases adoptDevice_cases with ⟨hskips, hdevice⟩ | ⟨hwrites, hfails, hdevice⟩ |
      ⟨hwrites, hfails, hdevice⟩
  · rw [hdevice, mem_hidden_settle]
    simp [hskips]
  · rw [hdevice]
    dsimp only
    rw [mem_hidden_settle, hfails]
    simp
  · rw [hdevice, mem_foldl_setLocalHidden]
    dsimp only [setPointer, writePointers]
    rw [mem_hidden_settle, hfails, or_assoc]
    constructor
    · rintro (h | ⟨hown, h⟩ | h)
      · exact .inl h
      · exact .inr ⟨.inl hown, h⟩
      · exact .inr ⟨.inr ⟨hwrites, rfl⟩, h⟩
    · rintro (h | ⟨-, h⟩)
      · exact .inl h
      · exact .inr (.inr h)

end Adoption

section Frames

variable {legacyId : String → String} {platform : Platform} {held known : List PairingBlob}

/-- The id is one of the daemon's. -/
def Belongs (known : List PairingBlob) (did pid : String) : Prop :=
  ∃ blob ∈ known, blob.did = did ∧ blob.pairingId = pid

/-- Two devices have the same blobs of a daemon and hide the same of its ids. -/
structure SameFor (known : List PairingBlob) (did : String) (device device' : Device) : Prop where
  records : ∀ blob, blob.did = did →
    (blob ∈ device'.records.blobs ↔ blob ∈ device.records.blobs)
  hidden : ∀ pid, Belongs known did pid → (pid ∈ device'.hidden ↔ pid ∈ device.hidden)

/-- Every device is like itself. -/
theorem SameFor.refl (known : List PairingBlob) (did : String) (device : Device) :
    SameFor known did device device := ⟨fun _ _ => Iff.rfl, fun _ _ => Iff.rfl⟩

/-- Likeness is transitive. -/
theorem SameFor.trans {did : String} {a b c : Device} (hab : SameFor known did a b)
    (hbc : SameFor known did b c) : SameFor known did a c :=
  ⟨fun blob h => (hbc.records blob h).trans (hab.records blob h),
    fun pid h => (hbc.hidden pid h).trans (hab.hidden pid h)⟩

/-- A blob after a save is the saved one, or an earlier one with another id. -/
theorem mem_save_iff {store : RecordStore} {fails : Bool} {saved blob : PairingBlob} :
    blob ∈ (store.save fails saved).blobs ↔
      (blob ∈ store.blobs ∧ blob.pairingId ≠ saved.pairingId) ∨ fails = false ∧ blob = saved := by
  rw [RecordStore.save]
  cases fails with
  | true => simp [RecordStore.remove]
  | false => simp

/-- Blobs stay within the known ones. -/
theorem mem_known_adoptDevice {device : Device} {incoming blob : PairingBlob}
    (hincoming : incoming ∈ known) (hknown : ∀ b ∈ device.records.blobs, b ∈ known)
    (h : blob ∈ (adoptDevice legacyId platform held device incoming).records.blobs) :
    blob ∈ known := by
  rcases records_adoptDevice legacyId platform held device incoming with
    ⟨-, hrecords⟩ | ⟨-, hrecords⟩
  · rw [hrecords] at h
    exact hknown blob h
  · rw [hrecords, mem_save_iff] at h
    rcases h with ⟨h, -⟩ | ⟨-, rfl⟩
    · exact hknown blob h
    · exact hincoming

/-- Showing ids again, read for one id. -/
theorem mem_unhideForDaemon (device : Device) (did id pid : String) :
    pid ∈ (unhideForDaemon legacyId device did id).hidden ↔
      pid ∈ device.hidden ∧ ¬(id ≠ "" ∧ pid = id) ∧ ¬(legacyId did ≠ "" ∧ pid = legacyId did) := by
  rw [unhideForDaemon, mem_clearLocalHide, mem_clearLocalHide, and_assoc]

/-- A blob of a snapshot changes nothing for other daemons. -/
theorem sameFor_adoptDevice {device : Device} {incoming : PairingBlob} {did : String}
    (hcoherent : Coherent legacyId known) (hheld : ∀ b ∈ held, b ∈ known)
    (hincoming : incoming ∈ known) (hknown : ∀ b ∈ device.records.blobs, b ∈ known)
    (hdid : did ≠ incoming.did) :
    SameFor known did device (adoptDevice legacyId platform held device incoming) := by
  constructor
  · intro blob hblob
    rcases records_adoptDevice legacyId platform held device incoming with
      ⟨-, hrecords⟩ | ⟨-, hrecords⟩
    · rw [hrecords]
    · rw [hrecords, mem_save_iff]
      constructor
      · rintro (⟨h, -⟩ | ⟨-, rfl⟩)
        · exact h
        · exact absurd hblob.symm hdid
      · intro h
        refine .inl ⟨h, fun hid => hdid ?_⟩
        exact hblob.symm.trans (hcoherent.one blob (hknown blob h) incoming hincoming hid)
  · rintro pid ⟨blob, hblob, rfl, rfl⟩
    have hid : blob.pairingId ≠ incoming.pairingId := fun h =>
      hdid (hcoherent.one blob hblob incoming hincoming h)
    have hlegacy : blob.pairingId ≠ legacyId incoming.did := fun h =>
      hdid (hcoherent.legacy blob hblob incoming.did h)
    have hsuperseded : blob.pairingId ∉ (superseded held incoming).map PairingBlob.pairingId := by
      intro h
      obtain ⟨old, hold, holdid⟩ := List.mem_map.mp h
      obtain ⟨holdheld, holddid, -⟩ := mem_superseded_iff.mp hold
      exact hdid ((hcoherent.one blob hblob old (hheld old holdheld) holdid.symm).trans holddid)
    rw [mem_hidden_adoptDevice, mem_unhideForDaemon]
    simp [hid, hlegacy, hsuperseded]

/-- Blobs of a snapshot change nothing for daemons they do not name. -/
theorem sameFor_foldl_adoptDevice {did : String} (hcoherent : Coherent legacyId known)
    (hheld : ∀ b ∈ held, b ∈ known) (blobs : List PairingBlob) {device : Device}
    (hblobs : ∀ b ∈ blobs, b ∈ known) (hknown : ∀ b ∈ device.records.blobs, b ∈ known)
    (hdid : did ∉ blobs.map PairingBlob.did) :
    SameFor known did device (blobs.foldl (adoptDevice legacyId platform held) device) := by
  induction blobs generalizing device with
  | nil => exact .refl known did device
  | cons blob blobs ih =>
    rw [List.map_cons, List.mem_cons, not_or] at hdid
    have hblob := hblobs blob List.mem_cons_self
    have hfirst : SameFor known did device (adoptDevice legacyId platform held device blob) :=
      sameFor_adoptDevice hcoherent hheld hblob hknown hdid.1
    exact hfirst.trans (ih (fun b hb => hblobs b (List.mem_cons_of_mem blob hb))
      (fun b hb => mem_known_adoptDevice hblob hknown hb) hdid.2)

/-- For the daemon of one of the blobs, adopting all is adopting that one. -/
theorem foldl_adoptDevice_split {incoming : PairingBlob} (hcoherent : Coherent legacyId known)
    (hheld : ∀ b ∈ held, b ∈ known) (blobs : List PairingBlob) {device : Device}
    (hblobs : ∀ b ∈ blobs, b ∈ known) (hknown : ∀ b ∈ device.records.blobs, b ∈ known)
    (hdistinct : (blobs.map PairingBlob.did).Nodup) (hincoming : incoming ∈ blobs) :
    ∃ before, SameFor known incoming.did device before ∧
      (∀ b ∈ before.records.blobs, b ∈ known) ∧
      SameFor known incoming.did (adoptDevice legacyId platform held before incoming)
        (blobs.foldl (adoptDevice legacyId platform held) device) := by
  induction blobs generalizing device with
  | nil => cases hincoming
  | cons blob blobs ih =>
    rw [List.map_cons, List.nodup_cons] at hdistinct
    have hblob := hblobs blob List.mem_cons_self
    have hrest : ∀ b ∈ blobs, b ∈ known := fun b hb => hblobs b (List.mem_cons_of_mem blob hb)
    have hknown' : ∀ b ∈ (adoptDevice legacyId platform held device blob).records.blobs,
        b ∈ known := fun b hb => mem_known_adoptDevice hblob hknown hb
    rcases List.mem_cons.mp hincoming with rfl | hmem
    · exact ⟨device, .refl known _ device, hknown,
        sameFor_foldl_adoptDevice hcoherent hheld blobs hrest hknown' hdistinct.1⟩
    · have hdid : incoming.did ≠ blob.did := by
        intro heq
        exact hdistinct.1 (heq ▸ List.mem_map_of_mem hmem)
      obtain ⟨before, hsame, hbefore, hafter⟩ := ih hrest hknown' hdistinct.2 hmem
      exact ⟨before, (sameFor_adoptDevice hcoherent hheld hblob hknown hdid).trans hsame, hbefore,
        hafter⟩

end Frames

section OneDaemon

variable {legacyId : String → String} {platform : Platform} {held known : List PairingBlob}
  {device before : Device} {incoming : PairingBlob}

/-- Holding a copy, read from the enumeration. -/
theorem own_iff (hheld : held.Perm device.records.blobs) :
    Own held incoming ↔ HoldsCopy device incoming := by
  constructor
  · rintro ⟨mine, hmine, hid⟩
    obtain ⟨hmem, hdid⟩ := List.mem_filter.mp hmine
    exact ⟨mine, hheld.mem_iff.mp hmem, of_decide_eq_true hdid, hid⟩
  · rintro ⟨mine, hmine, hdid, hid⟩
    exact ⟨mine, List.mem_filter.mpr ⟨hheld.mem_iff.mpr hmine, decide_eq_true hdid⟩, hid⟩

/-- The incoming blob is written exactly when it is newer than the copy and than
every other blob of its daemon. -/
theorem not_skips_iff (hheld : held.Perm device.records.blobs) :
    ¬Skips held incoming ↔
      (∀ mine ∈ device.records.blobs, mine.did = incoming.did →
        mine.pairingId = incoming.pairingId → isNewer incoming mine = true) ∧
      Supersedes device incoming := by
  have hcopy : (∃ mine ∈ (held.filter (·.did = incoming.did)).find?
      (·.pairingId = incoming.pairingId), isNewer incoming mine = false) ↔
        ∃ mine ∈ device.records.blobs, mine.did = incoming.did ∧
          mine.pairingId = incoming.pairingId ∧ isNewer incoming mine = false := by
    constructor
    · rintro ⟨mine, hmine, hnewer⟩
      have hid := List.find?_some hmine
      obtain ⟨hmem, hdid⟩ := List.mem_filter.mp (List.mem_of_find?_eq_some hmine)
      exact ⟨mine, hheld.mem_iff.mp hmem, of_decide_eq_true hdid, of_decide_eq_true hid, hnewer⟩
    · rintro ⟨mine, hmine, hdid, hid, hnewer⟩
      have hmem : mine ∈ held.filter (·.did = incoming.did) :=
        List.mem_filter.mpr ⟨hheld.mem_iff.mpr hmine, decide_eq_true hdid⟩
      cases hfind : (held.filter (·.did = incoming.did)).find?
          (·.pairingId = incoming.pairingId) with
      | none =>
        have hnone := List.find?_eq_none.mp hfind mine hmem
        simp [hid] at hnone
      | some other =>
        have hother := List.find?_some hfind
        have hothermem := hheld.mem_iff.mp (List.mem_filter.mp (List.mem_of_find?_eq_some hfind)).1
        have heq : other = mine :=
          eq_of_pairingId hothermem hmine ((of_decide_eq_true hother).trans hid.symm)
        exact ⟨other, rfl, heq ▸ hnewer⟩
  rw [Skips, hcopy]
  constructor
  · intro hnot
    constructor
    · intro mine hmine hdid hid
      by_contra hnewer
      exact hnot (.inl ⟨mine, hmine, hdid, hid, Bool.eq_false_iff.mpr hnewer⟩)
    · intro old hold hdid hid
      by_contra hnewer
      exact hnot (.inr ⟨old, mem_superseded_iff.mpr ⟨hheld.mem_iff.mpr hold, hdid, hid⟩,
        Bool.eq_false_iff.mpr hnewer⟩)
  · rintro ⟨hmine, hold⟩ (⟨mine, hmem, hdid, hid, hnewer⟩ | ⟨old, hmem, hnewer⟩)
    · rw [hmine mine hmem hdid hid] at hnewer
      cases hnewer
    · obtain ⟨holdmem, hdid, hid⟩ := mem_superseded_iff.mp hmem
      rw [hold old (hheld.mem_iff.mp holdmem) hdid hid] at hnewer
      cases hnewer

/-- With a copy, or once adopted, no other blob of the daemon is visible. -/
theorem shown_after_hiding (hheld : held.Perm device.records.blobs)
    (hsame : SameFor known incoming.did device before)
    (hhides : Own held incoming ∨ ¬Skips held incoming ∧ platform.saveFails incoming = false)
    {blob : PairingBlob} (hdid : blob.did = incoming.did)
    (hblob : blob ∈ (adoptDevice legacyId platform held before incoming).records.blobs)
    (hshows : Shows (adoptDevice legacyId platform held before incoming).hidden blob) :
    blob.pairingId = incoming.pairingId := by
  by_contra hid
  have hbefore : blob ∈ before.records.blobs := by
    rcases records_adoptDevice legacyId platform held before incoming with
      ⟨-, hrecords⟩ | ⟨-, hrecords⟩
    · rwa [hrecords] at hblob
    · rw [hrecords, mem_save_iff] at hblob
      rcases hblob with ⟨h, -⟩ | ⟨-, rfl⟩
      · exact h
      · exact absurd rfl hid
  have hmem : blob ∈ held := hheld.mem_iff.mpr ((hsame.records blob hdid).mp hbefore)
  refine hshows ((mem_hidden_adoptDevice blob.pairingId).mpr (.inr ⟨hhides, ?_⟩))
  exact List.mem_map_of_mem (mem_superseded_iff.mpr ⟨hmem, hdid, hid⟩)

/-- Without a copy and without adoption, the daemon keeps its blobs and shows those
that it shows when its ids are shown again. -/
theorem daemon_not_adopted (legacyId : String → String) (hheld : held.Perm device.records.blobs)
    (hknown : ∀ b ∈ device.records.blobs, b ∈ known)
    (hsame : SameFor known incoming.did device before) (hown : ¬Own held incoming)
    (hnot : ¬(¬Skips held incoming ∧ platform.saveFails incoming = false))
    {blob : PairingBlob} (hdid : blob.did = incoming.did) :
    (blob ∈ (adoptDevice legacyId platform held before incoming).records.blobs ↔
        blob ∈ device.records.blobs) ∧
      (blob ∈ device.records.blobs →
        (Shows (adoptDevice legacyId platform held before incoming).hidden blob ↔
          Shows (unhideForDaemon legacyId device incoming.did incoming.pairingId).hidden blob)) := by
  constructor
  · rw [← hsame.records blob hdid]
    rcases records_adoptDevice legacyId platform held before incoming with
      ⟨-, hrecords⟩ | ⟨hwrites, hrecords⟩
    · rw [hrecords]
    · have hfails : platform.saveFails incoming = true := by
        by_contra h
        exact hnot ⟨hwrites, Bool.eq_false_iff.mpr h⟩
      rw [hrecords, mem_save_iff, hfails]
      simp only [Bool.true_eq_false, false_and, or_false, and_iff_left_iff_imp]
      intro hblob hid
      exact hown ((own_iff hheld).mpr ⟨blob, (hsame.records blob hdid).mp hblob, hdid, hid⟩)
  · intro hblob
    have hbelongs : Belongs known incoming.did blob.pairingId := ⟨blob, hknown blob hblob, hdid, rfl⟩
    rw [Shows, Shows, mem_hidden_adoptDevice, mem_unhideForDaemon, mem_unhideForDaemon,
      hsame.hidden _ hbelongs]
    have hneither : ¬(Own held incoming ∨
        ¬Skips held incoming ∧ platform.saveFails incoming = false) := by
      rintro (h | h)
      · exact hown h
      · exact hnot h
    simp [hneither]

/-- Blobs of the daemon stay under their id unless the copy is lost in a failing
addition. -/
theorem kept_unless_lost (hsame : SameFor known incoming.did device before)
    (hkeeps : Skips held incoming ∨ platform.saveFails incoming = false ∨ ¬HoldsCopy device incoming)
    {blob : PairingBlob} (hdid : blob.did = incoming.did) (hblob : blob ∈ device.records.blobs) :
    ∃ kept ∈ (adoptDevice legacyId platform held before incoming).records.blobs,
      kept.pairingId = blob.pairingId ∧ kept.did = blob.did := by
  have hbefore := (hsame.records blob hdid).mpr hblob
  rcases records_adoptDevice legacyId platform held before incoming with
    ⟨-, hrecords⟩ | ⟨hwrites, hrecords⟩
  · exact ⟨blob, hrecords ▸ hbefore, rfl, rfl⟩
  · rw [hrecords]
    by_cases hid : blob.pairingId = incoming.pairingId
    · rcases hkeeps with hskips | hsaves | hcopy
      · exact absurd hskips hwrites
      · exact ⟨incoming, mem_save_iff.mpr (.inr ⟨hsaves, rfl⟩), hid.symm, hdid.symm⟩
      · exact absurd ⟨blob, hblob, hdid, hid⟩ hcopy
    · exact ⟨blob, mem_save_iff.mpr (.inl ⟨hbefore, hid⟩), rfl, rfl⟩

end OneDaemon

section Sweeping

variable {store : RecordStore} {hidden : List String} {found : List PairingBlob}

/-- Nothing loses where every daemon shows at most one blob. -/
theorem losingIds_eq_nil (hfound : found.Perm store.blobs)
    (hone : ∀ did, ShowsAtMostOne hidden store.blobs did) : losingIds hidden found = [] := by
  rw [List.eq_nil_iff_forall_not_mem]
  intro pid hpid
  obtain ⟨loser, hloser, rfl⟩ := List.mem_map.mp hpid
  obtain ⟨hvisible, hnot⟩ := (mem_losers_iff (nodup_visible hfound)).mp hloser
  obtain ⟨hmem, hshows⟩ := (mem_visible_iff hfound).mp hvisible
  cases hbest : (rank PairingBlob.did replaces
      (found.filter (·.pairingId ∉ hidden))).best.lookup loser.did with
  | none => exact notMem_of_lookup_rank hbest hvisible
  | some best =>
    obtain ⟨hbestvisible, hdid⟩ := mem_of_lookup_rank hbest
    obtain ⟨hbestmem, hbestshows⟩ := (mem_visible_iff hfound).mp hbestvisible
    have heq := hone loser.did loser hmem best hbestmem rfl hdid hshows hbestshows
    rw [heq] at hnot hbest
    exact hnot hbest

/-- Of two visible blobs of one daemon, one loses. -/
theorem mem_losingIds_or {a b : PairingBlob} (hfound : found.Perm store.blobs)
    (ha : a ∈ store.blobs) (hb : b ∈ store.blobs) (hashows : Shows hidden a)
    (hbshows : Shows hidden b) (hdid : a.did = b.did) (hne : a ≠ b) :
    a.pairingId ∈ losingIds hidden found ∨ b.pairingId ∈ losingIds hidden found := by
  by_contra hneither
  rw [not_or, mem_losingIds_iff hfound ha hashows, mem_losingIds_iff hfound hb hbshows, not_not,
    not_not, hdid] at hneither
  exact hne (Option.some.inj (hneither.1.symm.trans hneither.2))

end Sweeping

section Snapshot

variable {legacyId : String → String} {platform : Platform} {device : Device}
  {snapshot : PairingSnapshot}

/-- The blobs that the snapshot shows, one for each daemon. -/
def shownBlobs (snapshot : PairingSnapshot) : List PairingBlob :=
  (incomingByDid snapshot).keys.filterMap (incomingByDid snapshot).lookup

/-- A blob that the snapshot shows is the one kept for its daemon. -/
theorem mem_shownBlobs_iff {blob : PairingBlob} :
    blob ∈ shownBlobs snapshot ↔ (incomingByDid snapshot).lookup blob.did = some blob := by
  rw [shownBlobs, List.mem_filterMap]
  constructor
  · rintro ⟨did, -, hlookup⟩
    rw [(mem_of_lookup_rank hlookup).2]
    exact hlookup
  · intro hlookup
    refine ⟨blob.did, ?_, hlookup⟩
    rw [← AList.mem_keys, mem_iff_lookup]
    exact ⟨blob, hlookup⟩

/-- The blobs that the snapshot shows belong to different daemons. -/
theorem nodup_shownBlobs (snapshot : PairingSnapshot) :
    ((shownBlobs snapshot).map PairingBlob.did).Nodup := by
  have hdids : ∀ dids : List String, (∀ did ∈ dids, did ∈ incomingByDid snapshot) →
      (dids.filterMap (incomingByDid snapshot).lookup).map PairingBlob.did = dids := by
    intro dids
    induction dids with
    | nil => exact fun _ => rfl
    | cons did dids ih =>
      intro hmem
      obtain ⟨blob, hblob⟩ := mem_iff_lookup.mp (hmem did List.mem_cons_self)
      rw [List.filterMap_cons, hblob, List.map_cons, (mem_of_lookup_rank hblob).2,
        ih fun d hd => hmem d (List.mem_cons_of_mem did hd)]
  rw [shownBlobs, hdids _ fun did h => AList.mem_keys.mpr h]
  exact (incomingByDid snapshot).nodupKeys

/-- The device when every blob of the snapshot has been taken. -/
def adoptedDevice (legacyId : String → String) (platform : Platform) (device : Device)
    (snapshot : PairingSnapshot) : Device :=
  (platform.arrange (shownBlobs snapshot)).foldl
    (adoptDevice legacyId platform (platform.enumerate 0 device.records.blobs)) device

/-- Merging floors leaves the blobs and the hidden ids. -/
theorem mergeFloors_eq (incoming : Dict String PairingBlob) (device : Device)
    (floors : Dict String ℤ) :
    (mergeFloors incoming device floors).records = device.records ∧
      (mergeFloors incoming device floors).hidden = device.hidden := by
  rw [mergeFloors]
  induction floors.entries generalizing device with
  | nil => exact ⟨rfl, rfl⟩
  | cons entry entries ih =>
    rw [List.foldl_cons]
    split
    · exact ih _
    · exact ih _

/-- Hiding daemons leaves the blobs. -/
theorem records_hideAbsent (incoming : Dict String PairingBlob) (device : Device)
    (shown : List String) : (hideAbsent platform incoming device shown).1.records = device.records := by
  have hhide : ∀ (device : Device) (found : Option (List PairingBlob)) (did : String),
      (hideLocally device found did).1.records = device.records :=
    fun device found did => records_foldl_setLocalHidden _ device
  have hfold : ∀ (dids : List String) (state : Device × List String × ℕ),
      (dids.foldl (fun (state : Device × List String × ℕ) did =>
        let outcome := hideLocally state.1 (platform.loadAll (2 + state.2.2) state.1.records) did
        (outcome.1, state.2.1 ++ outcome.2, state.2.2 + 1)) state).1.records = state.1.records := by
    intro dids
    induction dids with
    | nil => exact fun _ => rfl
    | cons did dids ih =>
      intro state
      rw [List.foldl_cons, ih]
      exact hhide _ _ _
  exact hfold _ _

/-- The blobs after a snapshot that is read: the shared reconciliation deletes the
losing ids when the keychain can be read then. -/
theorem records_applyPeerSnapshot (hschema : snapshot.schemaVersion ≤ currentSchemaVersion)
    (hread : platform.locked 0 = false) :
    (applyPeerSnapshot legacyId platform false device snapshot).1.records.blobs =
      if platform.locked 1 then (adoptedDevice legacyId platform device snapshot).records.blobs
      else (adoptedDevice legacyId platform device snapshot).records.blobs.filter
        (·.pairingId ∉ losingIds (adoptedDevice legacyId platform device snapshot).hidden
          (platform.enumerate 1 (adoptedDevice legacyId platform device snapshot).records.blobs)) := by
  have hload : platform.loadAll 0 device.records =
      some (platform.enumerate 0 device.records.blobs) := by
    rw [Platform.loadAll, hread]
    rfl
  rw [applyPeerSnapshot, if_neg (by simp), if_neg (not_lt.mpr hschema), hload]
  dsimp only
  rw [records_hideAbsent, foldl_adoptBlob_device]
  obtain ⟨hrecords, hhidden⟩ := mergeFloors_eq
    (rank PairingBlob.did isNewer snapshot.pairings).best
    (adoptedDevice legacyId platform device snapshot) snapshot.floors
  have hadopted : (platform.arrange
      ((rank PairingBlob.did isNewer snapshot.pairings).best.keys.filterMap
        (rank PairingBlob.did isNewer snapshot.pairings).best.lookup)).foldl
        (adoptDevice legacyId platform (platform.enumerate 0 device.records.blobs)) device =
      adoptedDevice legacyId platform device snapshot := rfl
  dsimp only
  rw [hadopted, Platform.loadAll]
  cases platform.locked 1 with
  | true =>
    rw [if_pos rfl, if_pos rfl, reconciledPointers, hrecords]
  | false =>
    rw [if_neg (by simp), if_neg (by simp), records_reconciledPointers, hrecords, hhidden]

/-- A daemon that the snapshot lacks is left alone until the reconciliation. -/
theorem sameFor_absent (platform : Platform)
    (hcoherent : Coherent legacyId (device.records.blobs ++ snapshot.pairings))
    {did : String} (hdid : did ∉ incomingByDid snapshot) :
    SameFor (device.records.blobs ++ snapshot.pairings) did device
      (adoptedDevice legacyId platform device snapshot) := by
  refine sameFor_foldl_adoptDevice hcoherent ?_ _ ?_ ?_ ?_
  · intro b hb
    exact List.mem_append_left _ ((platform.enumerate_perm 0 _).mem_iff.mp hb)
  · intro b hb
    have hshown := mem_shownBlobs_iff.mp ((platform.arrange_perm _).mem_iff.mp hb)
    exact List.mem_append_right _ (mem_of_lookup_rank hshown).1
  · exact fun b hb => List.mem_append_left _ hb
  · intro hmem
    obtain ⟨blob, hblob, rfl⟩ := List.mem_map.mp hmem
    have hshown := mem_shownBlobs_iff.mp ((platform.arrange_perm _).mem_iff.mp hblob)
    exact hdid (mem_iff_lookup.mpr ⟨blob, hshown⟩)

/-- A daemon that the snapshot shows is changed by its incoming blob only. -/
theorem sameFor_shown (platform : Platform)
    (hcoherent : Coherent legacyId (device.records.blobs ++ snapshot.pairings))
    {did : String} {incoming : PairingBlob}
    (hincoming : (incomingByDid snapshot).lookup did = some incoming) :
    ∃ before, SameFor (device.records.blobs ++ snapshot.pairings) incoming.did device before ∧
      (∀ b ∈ before.records.blobs, b ∈ device.records.blobs ++ snapshot.pairings) ∧
      SameFor (device.records.blobs ++ snapshot.pairings) incoming.did
        (adoptDevice legacyId platform (platform.enumerate 0 device.records.blobs) before incoming)
        (adoptedDevice legacyId platform device snapshot) := by
  have hdid : incoming.did = did := (mem_of_lookup_rank hincoming).2
  have hheld : ∀ b ∈ platform.enumerate 0 device.records.blobs,
      b ∈ device.records.blobs ++ snapshot.pairings :=
    fun b hb => List.mem_append_left _ ((platform.enumerate_perm 0 _).mem_iff.mp hb)
  have hshown : ∀ b ∈ platform.arrange (shownBlobs snapshot),
      b ∈ device.records.blobs ++ snapshot.pairings :=
    fun b hb => List.mem_append_right _
      (mem_of_lookup_rank (mem_shownBlobs_iff.mp ((platform.arrange_perm _).mem_iff.mp hb))).1
  have hdistinct : ((platform.arrange (shownBlobs snapshot)).map PairingBlob.did).Nodup :=
    ((platform.arrange_perm _).map _).nodup_iff.mpr (nodup_shownBlobs snapshot)
  have hmem : incoming ∈ platform.arrange (shownBlobs snapshot) :=
    (platform.arrange_perm _).mem_iff.mpr (mem_shownBlobs_iff.mpr (hdid ▸ hincoming))
  exact foldl_adoptDevice_split hcoherent hheld _ hshown
    (fun b hb => List.mem_append_left _ hb) hdistinct hmem

/-- The ids of a device's blobs belong to their daemons. -/
theorem belongs_of_mem {blob : PairingBlob} (hblob : blob ∈ device.records.blobs) :
    Belongs (device.records.blobs ++ snapshot.pairings) blob.did blob.pairingId :=
  ⟨blob, List.mem_append_left _ hblob, rfl, rfl⟩

/-- Being visible carries over between like devices. -/
theorem SameFor.shows_iff {known : List PairingBlob} {did : String} {a b : Device}
    (hsame : SameFor known did a b) {blob : PairingBlob}
    (hbelongs : Belongs known did blob.pairingId) : Shows b.hidden blob ↔ Shows a.hidden blob :=
  not_congr (hsame.hidden _ hbelongs)

/-- A daemon that shows two blobs before the reconciliation loses one of them. -/
theorem shows_one_of_neverRemoves (hschema : snapshot.schemaVersion ≤ currentSchemaVersion)
    (hread : platform.locked 0 = false) (hread' : platform.locked 1 = false)
    (hkeeps : NeverRemoves legacyId platform false device snapshot) {a b : PairingBlob}
    (ha : a ∈ device.records.blobs) (hb : b ∈ device.records.blobs) (hdid : a.did = b.did)
    (ha' : a ∈ (adoptedDevice legacyId platform device snapshot).records.blobs)
    (hb' : b ∈ (adoptedDevice legacyId platform device snapshot).records.blobs)
    (hashows : Shows (adoptedDevice legacyId platform device snapshot).hidden a)
    (hbshows : Shows (adoptedDevice legacyId platform device snapshot).hidden b) : a = b := by
  by_contra hne
  have hlost : ∀ blob ∈ device.records.blobs, blob.pairingId ∉
      losingIds (adoptedDevice legacyId platform device snapshot).hidden
        (platform.enumerate 1 (adoptedDevice legacyId platform device snapshot).records.blobs) := by
    intro blob hblob hloses
    obtain ⟨kept, hkept, hid, -⟩ := hkeeps blob hblob
    rw [records_applyPeerSnapshot hschema hread, hread', if_neg (by simp), List.mem_filter,
      decide_eq_true_iff, hid] at hkept
    exact hkept.2 hloses
  rcases mem_losingIds_or (platform.enumerate_perm 1 _) ha' hb' hashows hbshows hdid hne with h | h
  · exact hlost a ha h
  · exact hlost b hb h

/-- A snapshot that removes nothing spares every daemon. -/
theorem spares_of_neverRemoves
    (hcoherent : Coherent legacyId (device.records.blobs ++ snapshot.pairings))
    (hschema : snapshot.schemaVersion ≤ currentSchemaVersion) (hread : platform.locked 0 = false)
    (hkeeps : NeverRemoves legacyId platform false device snapshot) :
    (∀ did, did ∉ incomingByDid snapshot →
      platform.locked 1 = true ∨ ShowsAtMostOne device.hidden device.records.blobs did) ∧
    ∀ did incoming, (incomingByDid snapshot).lookup did = some incoming →
      SparesShown legacyId platform device incoming := by
  have hheld := platform.enumerate_perm 0 device.records.blobs
  constructor
  · intro did hdid
    cases hread' : platform.locked 1 with
    | true => exact .inl rfl
    | false =>
      right
      have hsame := sameFor_absent platform hcoherent hdid
      rintro a ha b hb rfl hbdid hashows hbshows
      refine shows_one_of_neverRemoves hschema hread hread' hkeeps ha hb hbdid.symm
        ((hsame.records a rfl).mpr ha) ((hsame.records b hbdid).mpr hb)
        ((hsame.shows_iff (belongs_of_mem ha)).mpr hashows) ?_
      exact (hsame.shows_iff (hbdid ▸ belongs_of_mem hb)).mpr hbshows
  · intro did incoming hincoming
    obtain ⟨before, hsame, -, hafter⟩ := sameFor_shown platform hcoherent hincoming
    constructor
    · rintro ⟨mine, hmine, hdid, hid⟩ hnewer hsupersedes
      have hwrites := (not_skips_iff hheld).mpr ⟨hnewer, hsupersedes⟩
      by_contra hfails
      obtain ⟨kept, hkept, hkeptid, hkeptdid⟩ := hkeeps mine hmine
      have hadopted : kept ∈ (adoptedDevice legacyId platform device snapshot).records.blobs := by
        rw [records_applyPeerSnapshot hschema hread] at hkept
        split at hkept
        · exact hkept
        · exact (List.mem_filter.mp hkept).1
      rw [hafter.records kept (hkeptdid.trans hdid)] at hadopted
      rcases records_adoptDevice legacyId platform (platform.enumerate 0 device.records.blobs) before
        incoming with ⟨hskips, -⟩ | ⟨-, hrecords⟩
      · exact hwrites hskips
      · rw [hrecords, mem_save_iff] at hadopted
        rcases hadopted with ⟨-, hne⟩ | ⟨hsaves, -⟩
        · exact hne (hkeptid.trans hid)
        · exact hfails hsaves
    · intro hcopy
      cases hread' : platform.locked 1 with
      | true => exact .inl rfl
      | false =>
        right
        by_cases hadopts : Supersedes device incoming ∧ platform.saveFails incoming = false
        · exact .inl hadopts
        · right
          have hown : ¬Own (platform.enumerate 0 device.records.blobs) incoming := fun h =>
            hcopy ((own_iff hheld).mp h)
          have hnot : ¬(¬Skips (platform.enumerate 0 device.records.blobs) incoming ∧
              platform.saveFails incoming = false) := fun h =>
            hadopts ⟨((not_skips_iff hheld).mp h.1).2, h.2⟩
          have hview : ∀ blob ∈ device.records.blobs, blob.did = incoming.did →
              Shows (unhideForDaemon legacyId device incoming.did incoming.pairingId).hidden blob →
              blob ∈ (adoptedDevice legacyId platform device snapshot).records.blobs ∧
                Shows (adoptedDevice legacyId platform device snapshot).hidden blob := by
            intro blob hblob hdid hshows
            obtain ⟨hmem, hvisible⟩ := daemon_not_adopted legacyId hheld
              (fun b hb => List.mem_append_left snapshot.pairings hb) hsame hown hnot hdid
            refine ⟨(hafter.records blob hdid).mpr (hmem.mpr hblob), ?_⟩
            exact (hafter.shows_iff (hdid ▸ belongs_of_mem hblob)).mpr
              ((hvisible hblob).mpr hshows)
          intro a ha b hb hadid hbdid hashows hbshows
          obtain ⟨ha', hashows'⟩ := hview a ha hadid hashows
          obtain ⟨hb', hbshows'⟩ := hview b hb hbdid hbshows
          exact shows_one_of_neverRemoves hschema hread hread' hkeeps ha hb
            (hadid.trans hbdid.symm) ha' hb' hashows' hbshows'

/-- A spared daemon shows at most one blob before the reconciliation. -/
theorem showsAtMostOne_of_spares
    (hcoherent : Coherent legacyId (device.records.blobs ++ snapshot.pairings))
    (hread' : platform.locked 1 = false)
    (habsent : ∀ did, did ∉ incomingByDid snapshot →
      platform.locked 1 = true ∨ ShowsAtMostOne device.hidden device.records.blobs did)
    (hshown : ∀ did incoming, (incomingByDid snapshot).lookup did = some incoming →
      SparesShown legacyId platform device incoming) (did : String) :
    ShowsAtMostOne (adoptedDevice legacyId platform device snapshot).hidden
      (adoptedDevice legacyId platform device snapshot).records.blobs did := by
  have hheld := platform.enumerate_perm 0 device.records.blobs
  have hlocked : ¬platform.locked 1 = true := by rw [hread']; simp
  cases hincoming : (incomingByDid snapshot).lookup did with
  | none =>
    have hdid : did ∉ incomingByDid snapshot := by
      rw [mem_iff_lookup]
      rintro ⟨blob, hblob⟩
      rw [hincoming] at hblob
      cases hblob
    have hsame := sameFor_absent platform hcoherent hdid
    intro a ha b hb hadid hbdid hashows hbshows
    have ha' := (hsame.records a hadid).mp ha
    have hb' := (hsame.records b hbdid).mp hb
    exact (habsent did hdid).resolve_left hlocked a ha' b hb' hadid hbdid
      ((hsame.shows_iff (hadid ▸ belongs_of_mem ha')).mp hashows)
      ((hsame.shows_iff (hbdid ▸ belongs_of_mem hb')).mp hbshows)
  | some incoming =>
    obtain rfl : incoming.did = did := (mem_of_lookup_rank hincoming).2
    obtain ⟨before, hsame, hbefore, hafter⟩ := sameFor_shown platform hcoherent hincoming
    have hadopted : ∀ blob ∈ (adoptedDevice legacyId platform device snapshot).records.blobs,
        blob.did = incoming.did →
        Shows (adoptedDevice legacyId platform device snapshot).hidden blob →
        blob ∈ (adoptDevice legacyId platform (platform.enumerate 0 device.records.blobs) before
            incoming).records.blobs ∧
          Shows (adoptDevice legacyId platform (platform.enumerate 0 device.records.blobs) before
            incoming).hidden blob := by
      intro blob hblob hdid hshows
      have hmem := (hafter.records blob hdid).mp hblob
      have hknown := mem_known_adoptDevice
        (List.mem_append_right _ (mem_of_lookup_rank hincoming).1) hbefore hmem
      exact ⟨hmem, (hafter.shows_iff ⟨blob, hknown, hdid, rfl⟩).mp hshows⟩
    intro a ha b hb hadid hbdid hashows hbshows
    obtain ⟨ha', hashows'⟩ := hadopted a ha hadid hashows
    obtain ⟨hb', hbshows'⟩ := hadopted b hb hbdid hbshows
    by_cases hhides : Own (platform.enumerate 0 device.records.blobs) incoming ∨
        ¬Skips (platform.enumerate 0 device.records.blobs) incoming ∧
          platform.saveFails incoming = false
    · have haid := shown_after_hiding hheld hsame hhides hadid ha' hashows'
      have hbid := shown_after_hiding hheld hsame hhides hbdid hb' hbshows'
      exact eq_of_pairingId ha hb (haid.trans hbid.symm)
    · rw [not_or] at hhides
      have hcopy : ¬HoldsCopy device incoming := fun h => hhides.1 ((own_iff hheld).mpr h)
      have hone := (hshown incoming.did incoming hincoming).2 hcopy
      obtain ⟨hamem, havisible⟩ := daemon_not_adopted legacyId hheld
        (fun b hb => List.mem_append_left snapshot.pairings hb) hsame hhides.1 hhides.2 hadid
      obtain ⟨hbmem, hbvisible⟩ := daemon_not_adopted legacyId hheld
        (fun b hb => List.mem_append_left snapshot.pairings hb) hsame hhides.1 hhides.2 hbdid
      rcases hone with hone | ⟨hsupersedes, hsaves⟩ | hone
      · exact absurd hone hlocked
      · refine absurd ⟨(not_skips_iff hheld).mpr ⟨?_, hsupersedes⟩, hsaves⟩ hhides.2
        intro mine hmine hdid hid
        exact absurd ⟨mine, hmine, hdid, hid⟩ hcopy
      · exact hone a (hamem.mp ha') b (hbmem.mp hb') hadid hbdid
          ((havisible (hamem.mp ha')).mp hashows') ((hbvisible (hbmem.mp hb')).mp hbshows')

/-- A spared daemon keeps a blob for each of its pairings until the reconciliation. -/
theorem kept_of_spares
    (hcoherent : Coherent legacyId (device.records.blobs ++ snapshot.pairings))
    (hshown : ∀ did incoming, (incomingByDid snapshot).lookup did = some incoming →
      SparesShown legacyId platform device incoming) {blob : PairingBlob}
    (hblob : blob ∈ device.records.blobs) :
    ∃ kept ∈ (adoptedDevice legacyId platform device snapshot).records.blobs,
      kept.pairingId = blob.pairingId ∧ kept.did = blob.did := by
  have hheld := platform.enumerate_perm 0 device.records.blobs
  cases hincoming : (incomingByDid snapshot).lookup blob.did with
  | none =>
    have hdid : blob.did ∉ incomingByDid snapshot := by
      rw [mem_iff_lookup]
      rintro ⟨other, hother⟩
      rw [hincoming] at hother
      cases hother
    have hsame := sameFor_absent platform hcoherent hdid
    exact ⟨blob, (hsame.records blob rfl).mpr hblob, rfl, rfl⟩
  | some incoming =>
    have hdid : incoming.did = blob.did := (mem_of_lookup_rank hincoming).2
    obtain ⟨before, hsame, -, hafter⟩ := sameFor_shown platform hcoherent hincoming
    have hkeeps : Skips (platform.enumerate 0 device.records.blobs) incoming ∨
        platform.saveFails incoming = false ∨ ¬HoldsCopy device incoming := by
      by_cases hskips : Skips (platform.enumerate 0 device.records.blobs) incoming
      · exact .inl hskips
      · by_cases hcopy : HoldsCopy device incoming
        · obtain ⟨hnewer, hsupersedes⟩ := (not_skips_iff hheld).mp hskips
          exact .inr (.inl ((hshown blob.did incoming hincoming).1 hcopy hnewer hsupersedes))
        · exact .inr (.inr hcopy)
    obtain ⟨kept, hkept, hid, hkeptdid⟩ := kept_unless_lost hsame hkeeps hdid.symm hblob
    exact ⟨kept, (hafter.records kept (hkeptdid.trans hdid.symm)).mpr hkept, hid, hkeptdid⟩

/-- A snapshot that leaves the device removes nothing. -/
theorem neverRemoves_of_eq {smoke : Bool}
    (h : (applyPeerSnapshot legacyId platform smoke device snapshot).1 = device) :
    NeverRemoves legacyId platform smoke device snapshot := by
  intro blob hblob
  exact ⟨blob, h.symm ▸ hblob, rfl, rfl⟩

/-- A snapshot that is read removes no blob when it spares every daemon. -/
theorem neverRemoves_of_spares
    (hcoherent : Coherent legacyId (device.records.blobs ++ snapshot.pairings))
    (hschema : snapshot.schemaVersion ≤ currentSchemaVersion) (hread : platform.locked 0 = false)
    (hspares : Spares legacyId platform false device snapshot) :
    NeverRemoves legacyId platform false device snapshot := by
  intro blob hblob
  obtain ⟨habsent, hshown⟩ := hspares rfl hschema hread
  obtain ⟨kept, hkept, hid, hdid⟩ := kept_of_spares hcoherent hshown hblob
  refine ⟨kept, ?_, hid, hdid⟩
  rw [records_applyPeerSnapshot hschema hread]
  cases hread' : platform.locked 1 with
  | true =>
    rw [if_pos rfl]
    exact hkept
  | false =>
    rw [if_neg (by simp), losingIds_eq_nil (platform.enumerate_perm 1 _)
      (showsAtMostOne_of_spares hcoherent hread' habsent hshown)]
    simpa using hkept

/-- Where pairing ids belong to one daemon, a snapshot removes no blob exactly when it
spares every daemon. -/
theorem never_removes_iff_spares (smoke : Bool)
    (hcoherent : Coherent legacyId (device.records.blobs ++ snapshot.pairings)) :
    NeverRemoves legacyId platform smoke device snapshot ↔
      Spares legacyId platform smoke device snapshot := by
  cases smoke with
  | true =>
    have hsame : (applyPeerSnapshot legacyId platform true device snapshot).1 = device := by
      rw [applyPeerSnapshot, if_pos rfl]
    exact ⟨fun _ h => absurd h (by simp), fun _ => neverRemoves_of_eq hsame⟩
  | false =>
    by_cases hschema : snapshot.schemaVersion ≤ currentSchemaVersion
    · cases hread : platform.locked 0 with
      | true =>
        have hsame : (applyPeerSnapshot legacyId platform false device snapshot).1 = device := by
          rw [applyPeerSnapshot, if_neg (by simp), if_neg (not_lt.mpr hschema), Platform.loadAll,
            hread]
          rfl
        refine ⟨fun _ _ _ h => ?_, fun _ => neverRemoves_of_eq hsame⟩
        rw [hread] at h
        cases h
      | false =>
        exact ⟨fun hkeeps _ _ _ => spares_of_neverRemoves hcoherent hschema hread hkeeps,
          neverRemoves_of_spares hcoherent hschema hread⟩
    · have hsame : (applyPeerSnapshot legacyId platform false device snapshot).1 = device := by
        rw [applyPeerSnapshot, if_neg (by simp), if_pos (not_le.mp hschema)]
      exact ⟨fun _ _ h => absurd h hschema, fun _ => neverRemoves_of_eq hsame⟩

end Snapshot

section Samples

/-- A keychain that is always readable and a language that keeps orders. -/
def steadyPlatform : Platform where
  locked := fun _ => false
  enumerate := fun _ blobs => blobs
  enumerate_perm := fun _ blobs => List.Perm.refl blobs
  saveFails := fun _ => false
  arrange := fun blobs => blobs
  arrange_perm := List.Perm.refl

/-- A blob of the daemon `d`. -/
def sampleBlob (pairingId : String) (ts : ℤ) : PairingBlob :=
  ⟨"ps", "pk", "wss://relay", "d", 4, pairingId, "host", ts⟩

/-- Two pairing ids. -/
theorem nodup_sample :
    ([sampleBlob "p1" 1, sampleBlob "p2" 2].map PairingBlob.pairingId).Nodup := by decide

/-- A watch with two blobs of one daemon. -/
def sampleWatch (hidden : List String) : Device :=
  ⟨⟨[sampleBlob "p1" 1, sampleBlob "p2" 2], nodup_sample⟩, hidden, ⟨[], ∅⟩, none, ∅, []⟩

/-- Ids for older pairings. -/
def sampleLegacyId (did : String) : String := "legacy-" ++ did

/-- The ids of a watch belong to its daemon. -/
theorem coherent_sample (hidden : List String) (pairings : List PairingBlob)
    (h : ∀ a ∈ (sampleWatch hidden).records.blobs ++ pairings,
      a.did = "d" ∧ a.pairingId.length = 2) :
    Coherent sampleLegacyId ((sampleWatch hidden).records.blobs ++ pairings) := by
  constructor
  · intro a ha b hb _
    rw [(h a ha).1, (h b hb).1]
  · intro a ha did hid
    have hlength := (h a ha).2
    rw [hid, sampleLegacyId, String.length_append] at hlength
    have hlegacy : "legacy-".length = 7 := by decide
    omega

/-- A newer blob of the phone is adopted, and the two older ones stay. -/
theorem never_removes_adopted :
    NeverRemoves sampleLegacyId steadyPlatform false (sampleWatch [])
      ⟨1, [sampleBlob "p3" 3], ∅⟩ := by
  refine (never_removes_iff_spares false (coherent_sample _ _ (by decide))).mpr ?_
  intro _ _ _
  constructor
  · intro did hdid
    right
    intro a ha b _ hadid _ _ _
    have hd : ∀ blob ∈ (sampleWatch []).records.blobs, blob.did = "d" := by decide
    have hshown : "d" ∈ incomingByDid ⟨1, [sampleBlob "p3" 3], ∅⟩ := by decide +kernel
    exact absurd (((hd a ha).symm.trans hadid) ▸ hshown) hdid
  · intro did incoming hincoming
    have hmem := (mem_of_lookup_rank hincoming).1
    rw [List.mem_singleton.mp hmem]
    constructor
    · rintro ⟨mine, hmine, -, hid⟩
      have hother : ∀ blob ∈ (sampleWatch []).records.blobs, blob.pairingId ≠ "p3" := by decide
      exact absurd hid (hother mine hmine)
    · intro _
      have hnewer : ∀ old ∈ (sampleWatch []).records.blobs,
          isNewer (sampleBlob "p3" 3) old = true := by decide
      exact .inr (.inl ⟨fun old hold _ _ => hnewer old hold, rfl⟩)

/-- A watch that shows two blobs of a daemon deletes one when its phone does not show
the daemon. -/
theorem absent_daemon_loses_blob :
    Coherent sampleLegacyId ((sampleWatch []).records.blobs ++ []) ∧
      ¬NeverRemoves sampleLegacyId steadyPlatform false (sampleWatch []) ⟨1, [], ∅⟩ := by
  refine ⟨coherent_sample _ _ (by decide), ?_⟩
  intro hkeeps
  obtain ⟨kept, hkept, hid, -⟩ := hkeeps (sampleBlob "p1" 1) (by decide +kernel)
  have hrecords : (applyPeerSnapshot sampleLegacyId steadyPlatform false (sampleWatch [])
      ⟨1, [], ∅⟩).1.records.blobs = [sampleBlob "p2" 2] := by decide +kernel
  rw [hrecords, List.mem_singleton] at hkept
  rw [hkept] at hid
  exact absurd hid (by decide)

end Samples

end Teleprompter.PeerSnapshots
