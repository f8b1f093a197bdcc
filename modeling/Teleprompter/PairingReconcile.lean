import Mathlib.Data.Prod.Lex
import Mathlib.Data.String.Lemmas
import Teleprompter.PairingRecords
import Teleprompter.StepRuns

/-!
# Convergence of the reconciliation

Devices that share the blobs reconcile them independently, each in the order of its
own enumeration. Reconciliation keeps the first enumerated of the blobs with the
latest time, while a snapshot breaks ties by the pairing id. The two agree, and no
two devices delete each other's blob, exactly where the latest time of each daemon
is reached by one visible blob.
-/

namespace Teleprompter.PairingReconcile

open FiniteDictionary BestPerKey PairingRecords StepRuns

/-- The blob is not hidden. -/
def Shows (hidden : List String) (blob : PairingBlob) : Prop := blob.pairingId ∉ hidden

/-- The visible blob is newer than every other visible blob of its daemon. -/
def Newest (store : RecordStore) (hidden : List String) (blob : PairingBlob) : Prop :=
  ∀ other ∈ store.blobs, Shows hidden other → other.did = blob.did → other ≠ blob →
    isNewer blob other = true

/-- The latest time of each daemon is reached by one visible blob. -/
def NoTie (store : RecordStore) (hidden : List String) : Prop :=
  ∀ blob ∈ store.blobs, Shows hidden blob →
    (∀ other ∈ store.blobs, Shows hidden other → other.did = blob.did → other.ts ≤ blob.ts) →
    ∀ other ∈ store.blobs, Shows hidden other → other.did = blob.did → other ≠ blob →
      other.ts < blob.ts

/-- Whatever the order of the enumerations, reconciliation keeps the newest visible
blob of each daemon and no other, and this is the one that a snapshot reports. -/
def KeepsNewest (store : RecordStore) (hidden : List String) : Prop :=
  ∀ (device : Device) (found found' : List PairingBlob), device.records = store →
    device.hidden = hidden → found.Perm store.blobs → found'.Perm store.blobs →
    ∀ blob ∈ store.blobs, Shows hidden blob →
      (blob ∈ (reconciledPointers device (some found)).1.records.blobs ↔
          Newest store hidden blob) ∧
        ((∃ snapshot ∈ committedSnapshot device (some found'), blob ∈ snapshot.pairings) ↔
          Newest store hidden blob)

section Devices

/-- The pairing ids that a reconciliation deletes. -/
def losingIds (hidden : List String) (found : List PairingBlob) : List String :=
  (rank PairingBlob.did replaces (found.filter (·.pairingId ∉ hidden))).losers.map
    PairingBlob.pairingId

/-- The shared blobs, and the deletions that each of two devices has still to make. -/
structure Mesh where
  /-- The shared blobs. -/
  synced : RecordStore
  /-- Deletions that each device has still to make. -/
  todo : Bool → List String

/-- A device enumerates the blobs in some order, or makes its next deletion. -/
inductive MeshEvent where
  | reconcile (device : Bool) (found : List PairingBlob)
  | delete (device : Bool)

/-- One event. -/
def meshStep (hidden : Bool → List String) (mesh : Mesh) : MeshEvent → Mesh
  | .reconcile device found =>
    if found.Perm mesh.synced.blobs then
      { mesh with
        todo := Function.update mesh.todo device
          (mesh.todo device ++ losingIds (hidden device) found) }
    else mesh
  | .delete device =>
    match mesh.todo device with
    | [] => mesh
    | pairingId :: rest =>
      ⟨mesh.synced.remove pairingId, Function.update mesh.todo device rest⟩

/-- In every run of two devices, every daemon with a blob keeps a blob. -/
def NoDaemonLost (store : RecordStore) (hidden : Bool → List String) : Prop :=
  ∀ (events : List MeshEvent) (blob : PairingBlob), blob ∈ store.blobs →
    ∃ kept ∈ (runFrom (meshStep hidden) ⟨store, fun _ => []⟩ events).synced.blobs,
      kept.did = blob.did

end Devices

section Scores

/-- The time of a blob decides whether it replaces another. -/
theorem replaces_iff (blob existing : PairingBlob) :
    replaces blob existing = true ↔ existing.ts < blob.ts := by
  simp [replaces]

/-- The time and the pairing id decide which blob is newer. -/
theorem isNewer_iff (blob existing : PairingBlob) :
    isNewer blob existing = true ↔
      toLex (existing.ts, existing.pairingId) < toLex (blob.ts, blob.pairingId) := by
  rw [isNewer, Prod.Lex.toLex_lt_toLex]
  split
  · rename_i hne
    rw [decide_eq_true_iff]
    constructor
    · exact fun h => .inl h
    · rintro (h | ⟨h, -⟩)
      · exact h
      · exact absurd h.symm hne
  · rename_i heq
    have hts : existing.ts = blob.ts := (not_not.mp heq).symm
    rw [decide_eq_true_iff]
    constructor
    · exact fun h => .inr ⟨hts, h⟩
    · rintro (h | ⟨-, h⟩)
      · exact absurd hts (ne_of_lt h)
      · exact h

end Scores

section Keeping

variable {store : RecordStore} {hidden : List String} {device : Device}
  {found : List PairingBlob} {blob : PairingBlob}

/-- Blobs are determined by their pairing id. -/
theorem eq_of_pairingId {other : PairingBlob} (hblob : blob ∈ store.blobs)
    (hother : other ∈ store.blobs) (h : blob.pairingId = other.pairingId) : blob = other :=
  List.inj_on_of_nodup_map store.nodup hblob hother h

/-- Sweeping deletes the blobs of the given ids. -/
theorem records_foldl_sweep (ids : List String) (device : Device) :
    (ids.foldl sweep device).records.blobs =
      device.records.blobs.filter (·.pairingId ∉ ids) := by
  induction ids generalizing device with
  | nil => simp
  | cons id ids ih =>
    have hsweep : (sweep device id).records.blobs =
        device.records.blobs.filter (·.pairingId ≠ id) := by
      rw [sweep, clearLocalHide]
      split
      · rfl
      · rfl
    rw [List.foldl_cons, ih, hsweep, List.filter_filter]
    congr 1
    funext b
    simp [Bool.and_comm]

/-- Reconciliation deletes the losing ids. -/
theorem records_reconciledPointers (device : Device) (found : List PairingBlob) :
    (reconciledPointers device (some found)).1.records.blobs =
      device.records.blobs.filter (·.pairingId ∉ losingIds device.hidden found) := by
  rw [reconciledPointers]
  dsimp only
  split
  · rename_i hnil
    have hlosing : losingIds device.hidden found = [] := by
      have hvisible : found.filter (·.pairingId ∉ device.hidden) = [] := hnil
      rw [losingIds, hvisible]
      rfl
    rw [hlosing]
    split
    · simp
    · simp
  · exact records_foldl_sweep _ device

/-- An entry of a rearranged, filtered store. -/
theorem mem_visible_iff (hfound : found.Perm store.blobs) :
    blob ∈ found.filter (·.pairingId ∉ hidden) ↔ blob ∈ store.blobs ∧ Shows hidden blob := by
  rw [List.mem_filter, hfound.mem_iff, decide_eq_true_iff]
  rfl

/-- Visible blobs are enumerated once. -/
theorem nodup_visible (hfound : found.Perm store.blobs) :
    (found.filter (·.pairingId ∉ hidden)).Nodup :=
  (hfound.nodup_iff.mpr (List.Nodup.of_map _ store.nodup)).filter _

/-- A visible blob loses exactly when it is not the one kept for its daemon. -/
theorem mem_losingIds_iff (hfound : found.Perm store.blobs) (hblob : blob ∈ store.blobs)
    (hshows : Shows hidden blob) :
    blob.pairingId ∈ losingIds hidden found ↔
      (rank PairingBlob.did replaces (found.filter (·.pairingId ∉ hidden))).best.lookup blob.did ≠
        some blob := by
  have hlosers : ∀ other, other ∈
      (rank PairingBlob.did replaces (found.filter (·.pairingId ∉ hidden))).losers ↔ _ :=
    fun other => mem_losers_iff (nodup_visible hfound)
  rw [losingIds, List.mem_map]
  constructor
  · rintro ⟨other, hother, hid⟩
    obtain ⟨hmem, hnot⟩ := (hlosers other).mp hother
    obtain rfl := eq_of_pairingId ((mem_visible_iff hfound).mp hmem).1 hblob hid
    exact hnot
  · intro hnot
    exact ⟨blob, (hlosers blob).mpr ⟨(mem_visible_iff hfound).mpr ⟨hblob, hshows⟩, hnot⟩, rfl⟩

/-- An entry of the visible blobs of one daemon. -/
theorem mem_daemonBlobs_iff (hfound : found.Perm store.blobs) {other : PairingBlob} :
    other ∈ (found.filter (·.pairingId ∉ hidden)).filter (fun b => b.did = blob.did) ↔
      other ∈ store.blobs ∧ Shows hidden other ∧ other.did = blob.did := by
  rw [List.mem_filter, mem_visible_iff hfound, decide_eq_true_iff, and_assoc]

/-- The snapshot's choice for a daemon is its newest visible blob. -/
theorem lookup_isNewer_iff (hfound : found.Perm store.blobs) (hblob : blob ∈ store.blobs)
    (hshows : Shows hidden blob) :
    (rank PairingBlob.did isNewer (found.filter (·.pairingId ∉ hidden))).best.lookup blob.did =
        some blob ↔ Newest store hidden blob := by
  rw [lookup_rank]
  constructor
  · intro hbest other hother hothershows hdid hne
    have hle := score_le_bestOf isNewer_iff hbest other
      ((mem_daemonBlobs_iff hfound).mpr ⟨hother, hothershows, hdid⟩)
    rw [isNewer_iff]
    refine lt_of_le_of_ne hle ?_
    intro heq
    have hpair : (other.ts, other.pairingId) = (blob.ts, blob.pairingId) := heq
    exact hne (eq_of_pairingId hother hblob (Prod.mk.inj hpair).2)
  · intro hnewest
    refine bestOf_of_unique isNewer_iff
      ((mem_daemonBlobs_iff hfound).mpr ⟨hblob, hshows, rfl⟩) ?_
    intro other hmem hne
    obtain ⟨hother, hothershows, hdid⟩ := (mem_daemonBlobs_iff hfound).mp hmem
    exact (isNewer_iff blob other).mp (hnewest other hother hothershows hdid hne)

/-- A snapshot reports the blobs it chose. -/
theorem mem_committedSnapshot_iff :
    (∃ snapshot ∈ committedSnapshot device (some found), blob ∈ snapshot.pairings) ↔
      (rank PairingBlob.did isNewer (found.filter (·.pairingId ∉ device.hidden))).best.lookup
        blob.did = some blob := by
  constructor
  · rintro ⟨snapshot, hsnapshot, hblob⟩
    rw [committedSnapshot, Option.map_some, Option.mem_some_iff] at hsnapshot
    rw [← hsnapshot, List.mem_filterMap] at hblob
    obtain ⟨did, -, hlookup⟩ := hblob
    rw [(mem_of_lookup_rank hlookup).2]
    exact hlookup
  · intro hlookup
    refine ⟨_, rfl, List.mem_filterMap.mpr ⟨blob.did, ?_, hlookup⟩⟩
    rw [List.mem_mergeSort, ← AList.mem_keys, mem_iff_lookup]
    exact ⟨blob, hlookup⟩

/-- A visible blob survives a reconciliation exactly when it is kept for its daemon. -/
theorem mem_reconciled_iff (hrecords : device.records = store) (hhidden : device.hidden = hidden)
    (hfound : found.Perm store.blobs) (hblob : blob ∈ store.blobs) (hshows : Shows hidden blob) :
    blob ∈ (reconciledPointers device (some found)).1.records.blobs ↔
      (rank PairingBlob.did replaces (found.filter (·.pairingId ∉ hidden))).best.lookup blob.did =
        some blob := by
  rw [records_reconciledPointers, List.mem_filter, hrecords, hhidden, decide_eq_true_iff,
    mem_losingIds_iff hfound hblob hshows, not_not]
  exact and_iff_right hblob

/-- Without ties, the blob that is kept is the newest one. -/
theorem lookup_replaces_iff (hties : NoTie store hidden) (hfound : found.Perm store.blobs)
    (hblob : blob ∈ store.blobs) (hshows : Shows hidden blob) :
    (rank PairingBlob.did replaces (found.filter (·.pairingId ∉ hidden))).best.lookup blob.did =
        some blob ↔ Newest store hidden blob := by
  rw [lookup_rank]
  constructor
  · intro hbest other hother hothershows hdid hne
    have hmax : ∀ c ∈ store.blobs, Shows hidden c → c.did = blob.did → c.ts ≤ blob.ts := by
      intro c hc hcshows hcdid
      exact score_le_bestOf replaces_iff hbest c
        ((mem_daemonBlobs_iff hfound).mpr ⟨hc, hcshows, hcdid⟩)
    have hlt := hties blob hblob hshows hmax other hother hothershows hdid hne
    rw [isNewer_iff, Prod.Lex.toLex_lt_toLex]
    exact .inl hlt
  · intro hnewest
    have hmax : ∀ c ∈ store.blobs, Shows hidden c → c.did = blob.did → c.ts ≤ blob.ts := by
      intro c hc hcshows hcdid
      by_cases hcb : c = blob
      · rw [hcb]
      · have hnewer := (isNewer_iff blob c).mp (hnewest c hc hcshows hcdid hcb)
        rcases (Prod.Lex.toLex_lt_toLex).mp hnewer with hlt | ⟨heq, -⟩
        · exact hlt.le
        · exact heq.le
    refine bestOf_of_unique replaces_iff
      ((mem_daemonBlobs_iff hfound).mpr ⟨hblob, hshows, rfl⟩) ?_
    intro other hmem hne
    obtain ⟨hother, hothershows, hdid⟩ := (mem_daemonBlobs_iff hfound).mp hmem
    exact hties blob hblob hshows hmax other hother hothershows hdid hne

/-- Without ties, reconciliation keeps the newest blobs. -/
theorem keepsNewest_of_noTie (hties : NoTie store hidden) : KeepsNewest store hidden := by
  intro device found found' hrecords hhidden hfound hfound' blob hblob hshows
  refine ⟨?_, ?_⟩
  · rw [mem_reconciled_iff hrecords hhidden hfound hblob hshows,
      lookup_replaces_iff hties hfound hblob hshows]
  · rw [mem_committedSnapshot_iff, hhidden, lookup_isNewer_iff hfound' hblob hshows]

/-- A blob with the latest time of its daemon is kept when it is enumerated first. -/
theorem kept_first (hblob : blob ∈ store.blobs) (hshows : Shows hidden blob)
    (hmax : ∀ other ∈ store.blobs, Shows hidden other → other.did = blob.did →
      other.ts ≤ blob.ts) (hkeeps : KeepsNewest store hidden) : Newest store hidden blob := by
  have hperm : (blob :: store.blobs.erase blob).Perm store.blobs :=
    (List.perm_cons_erase hblob).symm
  have hkept := (hkeeps ⟨store, hidden, ⟨[], ∅⟩, none, ∅, []⟩ _ _ rfl rfl hperm hperm blob hblob
    hshows).1
  rw [← hkept, mem_reconciled_iff rfl rfl hperm hblob hshows, lookup_rank]
  have hcons : ((blob :: store.blobs.erase blob).filter (·.pairingId ∉ hidden)).filter
      (fun b => b.did = blob.did) =
        blob :: ((store.blobs.erase blob).filter (·.pairingId ∉ hidden)).filter
          (fun b => b.did = blob.did) := by
    have hvisible : blob.pairingId ∉ hidden := hshows
    simp only [List.filter_cons, hvisible, not_false_eq_true, decide_true, if_true]
  rw [hcons]
  refine bestOf_cons replaces_iff ?_
  intro other hother
  have hmem := List.mem_cons_of_mem blob hother
  rw [← hcons, mem_daemonBlobs_iff hperm] at hmem
  exact hmax other hmem.1 hmem.2.1 hmem.2.2

/-- Two blobs are not newer than each other. -/
theorem isNewer_asymm {a b : PairingBlob} (h : isNewer a b = true) : ¬isNewer b a = true := by
  rw [isNewer_iff] at h ⊢
  exact lt_asymm h

/-- Reconciliation keeps the newest blobs only where there are no ties. -/
theorem noTie_of_keepsNewest (hkeeps : KeepsNewest store hidden) : NoTie store hidden := by
  intro blob hblob hshows hmax other hother hothershows hdid hne
  by_contra hnot
  have hts : other.ts = blob.ts := le_antisymm (hmax other hother hothershows hdid) (not_lt.mp hnot)
  have hnewest := kept_first hblob hshows hmax hkeeps
  have hmax' : ∀ c ∈ store.blobs, Shows hidden c → c.did = other.did → c.ts ≤ other.ts := by
    intro c hc hcshows hcdid
    rw [hts]
    exact hmax c hc hcshows (hcdid.trans hdid)
  have hnewest' := kept_first hother hothershows hmax' hkeeps
  exact isNewer_asymm (hnewest other hother hothershows hdid hne)
    (hnewest' blob hblob hshows hdid.symm (Ne.symm hne))

end Keeping

section Mesh

variable {store : RecordStore} {hidden : Bool → List String}

/-- The blob is shared and no device is going to delete it. -/
def Safe (mesh : Mesh) (blob : PairingBlob) : Prop :=
  blob ∈ mesh.synced.blobs ∧ ∀ device, blob.pairingId ∉ mesh.todo device

/-- Only blobs of the store are shared. -/
def Within (store : RecordStore) (mesh : Mesh) : Prop := ∀ blob ∈ mesh.synced.blobs, blob ∈ store.blobs

/-- A device does not delete a blob that it hides, nor one that alone has the latest
time of its daemon. -/
theorem notMem_losingIds {synced : RecordStore} {hidden : List String} {found : List PairingBlob}
    {blob : PairingBlob} (hfound : found.Perm synced.blobs) (hblob : blob ∈ synced.blobs)
    (hbest : Shows hidden blob → ∀ other ∈ synced.blobs, Shows hidden other →
      other.did = blob.did → other ≠ blob → other.ts < blob.ts) :
    blob.pairingId ∉ losingIds hidden found := by
  by_cases hshows : Shows hidden blob
  · rw [mem_losingIds_iff hfound hblob hshows, not_not, lookup_rank]
    refine bestOf_of_unique replaces_iff
      ((mem_daemonBlobs_iff hfound).mpr ⟨hblob, hshows, rfl⟩) ?_
    intro other hmem hne
    obtain ⟨hother, hothershows, hdid⟩ := (mem_daemonBlobs_iff hfound).mp hmem
    exact hbest hshows other hother hothershows hdid hne
  · intro hmem
    obtain ⟨other, hother, hid⟩ := List.mem_map.mp hmem
    have hvisible := ((mem_losers_iff (nodup_visible hfound)).mp hother).1
    obtain ⟨hothermem, hothershows⟩ := (mem_visible_iff hfound).mp hvisible
    rw [eq_of_pairingId hothermem hblob hid] at hothershows
    exact hshows hothershows

/-- Every event keeps a blob that alone has the latest time wherever it is shown. -/
theorem safe_meshStep {blob : PairingBlob}
    (hbest : ∀ device, Shows (hidden device) blob → ∀ other ∈ store.blobs,
      Shows (hidden device) other → other.did = blob.did → other ≠ blob → other.ts < blob.ts)
    (mesh : Mesh) (event : MeshEvent) (h : Safe mesh blob ∧ Within store mesh) :
    Safe (meshStep hidden mesh event) blob ∧ Within store (meshStep hidden mesh event) := by
  obtain ⟨⟨hmem, htodo⟩, hwithin⟩ := h
  cases event with
  | reconcile device found =>
    rw [meshStep]
    split
    · rename_i hfound
      refine ⟨⟨hmem, ?_⟩, hwithin⟩
      intro other
      by_cases hdevice : other = device
      · rw [hdevice]
        dsimp only
        rw [Function.update_self, List.mem_append, not_or]
        refine ⟨htodo device, notMem_losingIds hfound hmem ?_⟩
        intro hshows c hc
        exact hbest device hshows c (hwithin c hc)
      · dsimp only
        rw [Function.update_of_ne hdevice]
        exact htodo other
    · exact ⟨⟨hmem, htodo⟩, hwithin⟩
  | delete device =>
    rw [meshStep]
    split
    · exact ⟨⟨hmem, htodo⟩, hwithin⟩
    · rename_i pairingId rest hrest
      have hne : blob.pairingId ≠ pairingId := by
        intro heq
        have hnot := htodo device
        rw [hrest, heq] at hnot
        exact hnot List.mem_cons_self
      refine ⟨⟨List.mem_filter.mpr ⟨hmem, decide_eq_true hne⟩, ?_⟩, ?_⟩
      · intro other
        by_cases hdevice : other = device
        · rw [hdevice]
          dsimp only
          rw [Function.update_self]
          intro hblob
          have hnot := htodo device
          rw [hrest] at hnot
          exact hnot (List.mem_cons_of_mem _ hblob)
        · dsimp only
          rw [Function.update_of_ne hdevice]
          exact htodo other
      · intro c hc
        exact hwithin c (List.mem_filter.mp hc).1

/-- Among the blobs of a daemon that some device shows, one has the latest time. -/
theorem exists_latest {blob : PairingBlob} (hblob : blob ∈ store.blobs)
    (hshows : ∃ device, Shows (hidden device) blob) :
    ∃ latest ∈ store.blobs, latest.did = blob.did ∧
      ∀ other ∈ store.blobs, other.did = blob.did → (∃ device, Shows (hidden device) other) →
        other.ts ≤ latest.ts := by
  classical
  let candidates := store.blobs.filter fun b =>
    decide (b.did = blob.did ∧ ∃ device, Shows (hidden device) b)
  have hmem : ∀ b, b ∈ candidates ↔
      b ∈ store.blobs ∧ b.did = blob.did ∧ ∃ device, Shows (hidden device) b := by
    intro b
    rw [List.mem_filter, decide_eq_true_iff]
  cases hbest : bestOf replaces candidates with
  | none =>
    have hblob' := (hmem blob).mpr ⟨hblob, rfl, hshows⟩
    rw [bestOf_eq_none_iff.mp hbest] at hblob'
    cases hblob'
  | some latest =>
    obtain ⟨hlatest, hdid, -⟩ := (hmem latest).mp (mem_of_bestOf hbest)
    refine ⟨latest, hlatest, hdid, ?_⟩
    intro other hother hotherdid hothershows
    exact score_le_bestOf replaces_iff hbest other ((hmem other).mpr ⟨hother, hotherdid, hothershows⟩)

/-- A blob that alone has the latest time wherever it is shown is never deleted. -/
theorem mem_synced_of_best {blob : PairingBlob} (hblob : blob ∈ store.blobs)
    (hbest : ∀ device, Shows (hidden device) blob → ∀ other ∈ store.blobs,
      Shows (hidden device) other → other.did = blob.did → other ≠ blob → other.ts < blob.ts)
    (events : List MeshEvent) :
    blob ∈ (runFrom (meshStep hidden) ⟨store, fun _ => []⟩ events).synced.blobs := by
  have hstart : Safe ⟨store, fun _ => []⟩ blob ∧ Within store ⟨store, fun _ => []⟩ :=
    ⟨⟨hblob, fun _ => List.not_mem_nil⟩, fun _ h => h⟩
  exact (runFrom_induction (safe_meshStep hbest) hstart events).1.1

/-- Without ties on either device, no daemon loses its last blob: it keeps the latest one
that is shown, and any one when none is shown. -/
theorem noDaemonLost_of_noTie (hties : ∀ device, NoTie store (hidden device)) :
    NoDaemonLost store hidden := by
  intro events blob hblob
  by_cases hshows : ∃ device, Shows (hidden device) blob
  swap
  · exact ⟨blob, mem_synced_of_best hblob
      (fun device hdevice => absurd ⟨device, hdevice⟩ hshows) events, rfl⟩
  obtain ⟨latest, hlatest, hdid, hmax⟩ := exists_latest hblob hshows
  have hbest : ∀ device, Shows (hidden device) latest → ∀ other ∈ store.blobs,
      Shows (hidden device) other → other.did = latest.did → other ≠ latest →
        other.ts < latest.ts := by
    intro device hlatestshows other hother hothershows hotherdid hne
    refine hties device latest hlatest hlatestshows ?_ other hother hothershows hotherdid hne
    intro c hc hcshows hcdid
    exact hmax c hc (hcdid.trans hdid) ⟨device, hcshows⟩
  exact ⟨latest, mem_synced_of_best hlatest hbest events, hdid⟩

/-- On two devices reconciliation keeps the newest blobs whatever the order, and no
daemon loses its last blob, exactly where no latest time is tied on either. -/
theorem converges_iff_no_ties (store : RecordStore) (hidden : Bool → List String) :
    ((∀ device, KeepsNewest store (hidden device)) ∧ NoDaemonLost store hidden) ↔
      ∀ device, NoTie store (hidden device) := by
  constructor
  · rintro ⟨hkeeps, -⟩ device
    exact noTie_of_keepsNewest (hkeeps device)
  · intro hties
    exact ⟨fun device => keepsNewest_of_noTie (hties device), noDaemonLost_of_noTie hties⟩

/-- A blob of one daemon. -/
def tiedBlob (pairingId : String) : PairingBlob :=
  ⟨"ps", "pk", "wss://relay", "d", 4, pairingId, "host", 1000⟩

/-- Two pairing ids. -/
theorem nodup_tied : ([tiedBlob "p1", tiedBlob "p2"].map PairingBlob.pairingId).Nodup := by decide

/-- Two blobs of one daemon with the same time. -/
def tiedStore : RecordStore := ⟨[tiedBlob "p1", tiedBlob "p2"], nodup_tied⟩

/-- Two devices that enumerate two tied blobs in opposite orders delete both. -/
theorem tied_blobs_both_deleted :
    ¬((∀ _ : Bool, KeepsNewest tiedStore []) ∧
      NoDaemonLost tiedStore fun _ => []) := by
  rintro ⟨-, hkept⟩
  obtain ⟨kept, hmem, -⟩ := hkept
    [.reconcile true [tiedBlob "p1", tiedBlob "p2"],
      .reconcile false [tiedBlob "p2", tiedBlob "p1"], .delete true, .delete false]
    (tiedBlob "p1") (by decide +kernel)
  have hempty : (runFrom (meshStep fun _ => []) ⟨tiedStore, fun _ => []⟩
      [.reconcile true [tiedBlob "p1", tiedBlob "p2"],
        .reconcile false [tiedBlob "p2", tiedBlob "p1"], .delete true, .delete false]).synced.blobs =
        [] := by decide +kernel
  rw [hempty] at hmem
  cases hmem

end Mesh

end Teleprompter.PairingReconcile
