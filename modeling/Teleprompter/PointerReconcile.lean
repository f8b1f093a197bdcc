import Teleprompter.ListedKeys
import Teleprompter.PairingReconcile

/-!
# The index of the daemons

The index tells which daemons a device shows, in their order, and under which
pairing id. A reconciliation combines what the keychain enumerates, what the device
hides, and what the stored index says: hidden blobs are passed over, the newest
blob of a daemon wins, and a daemon without a blob keeps its pointer. A dictionary
is read in an order of its own each time, so the stored order is what keeps the
daemons in place.
-/

namespace Teleprompter.PointerReconcile

open FiniteDictionary BestPerKey ListedKeys PairingRecords PairingReconcile StepRuns

section Model

/-- The stored order without vanished daemons, then the daemons it misses as the
dictionary gives them. -/
def pointers (keyOrder : KeyOrder String) (device : Device) : Pointers :=
  let order := device.pointers.order.filter (· ∈ device.pointers.map)
  ⟨order ++ (keyOrder.arrange device.pointers.map.keys).filter (· ∉ order), device.pointers.map⟩

/-- A reconciliation that reads dictionaries in a given order; `none` stands for a
keychain that cannot be read. -/
def reconcile (keyOrder : KeyOrder String) (device : Device) :
    Option (List PairingBlob) → Device × Pointers
  | none => (device, device.lastGood.getD (pointers keyOrder device))
  | some found =>
    let blobs := visible device found
    let current := pointers keyOrder device
    if blobs = [] then
      if current.order = [] then (device, current)
      else ({ device with lastGood := some current }, current)
    else
      let ranking := rank PairingBlob.did replaces blobs
      let swept := (ranking.losers.map PairingBlob.pairingId).foldl sweep device
      let reconciled := repoint device.hidden current ranking.best
      (writePointers swept reconciled, reconciled)

/-- The order of the entries. -/
def entryOrder : KeyOrder String := ⟨fun keys => keys, List.Perm.refl⟩

/-- The reconciliation of the devices that share blobs reads in the order of the entries. -/
theorem reconcile_entryOrder (device : Device) (found : Option (List PairingBlob)) :
    reconcile entryOrder device found = reconciledPointers device found := rfl

end Model

section Statements

/-- The device shows a blob. -/
def HasVisible (device : Device) : Prop :=
  ∃ blob ∈ device.records.blobs, Shows device.hidden blob

/-- A second reconciliation changes nothing that is stored and shows the same daemons
under the same ids; it changes nothing at all when the first one wrote the index or the
stored order was complete. -/
structure Settled (device after : Device) (index : Pointers) (second : Device × Pointers) :
    Prop where
  records : second.1.records = after.records
  hidden : second.1.hidden = after.hidden
  pointers : second.1.pointers = after.pointers
  map : second.2.map = index.map
  order : second.2.order.Perm index.order
  same : (HasVisible device ∨ ∀ did ∈ device.pointers.map, did ∈ device.pointers.order) →
    second = (after, index)

/-- What a reconciliation leaves behind. -/
structure Reconciled (device after : Device) (index : Pointers) : Prop where
  written : after.pointers = index ∨ ¬HasVisible device ∧ after.pointers = device.pointers
  mem_order : ∀ did, did ∈ index.order ↔ did ∈ index.map
  nodup_order : device.pointers.order.Nodup → index.order.Nodup
  hidden : after.hidden = device.hidden
  /-- A daemon has at most one blob that is shown. -/
  one_shown : ∀ blob ∈ after.records.blobs, ∀ other ∈ after.records.blobs,
    Shows device.hidden blob → Shows device.hidden other → blob.did = other.did → blob = other
  /-- Hidden blobs are kept. -/
  hidden_kept : ∀ blob ∈ device.records.blobs, ¬Shows device.hidden blob →
    blob ∈ after.records.blobs
  /-- A daemon without a blob that is shown keeps its pointer unless that is hidden. -/
  pointer_kept : ∀ did pairingId, device.pointers.map.lookup did = some pairingId →
    pairingId ∉ device.hidden →
    (∀ blob ∈ device.records.blobs, Shows device.hidden blob → blob.did ≠ did) →
    index.map.lookup did = some pairingId
  /-- A daemon with a blob that is shown points at the one that is left. -/
  pointed : ∀ blob ∈ device.records.blobs, Shows device.hidden blob →
    ∃ kept ∈ after.records.blobs, Shows device.hidden kept ∧ kept.did = blob.did ∧
      index.map.lookup blob.did = some kept.pairingId
  /-- Whatever the order of the second enumeration and reading. -/
  settled : ∀ (keyOrder : KeyOrder String) (found : List PairingBlob),
    found.Perm after.records.blobs → Settled device after index (reconcile keyOrder after (some found))

end Statements

section Repointing

variable {hidden : List String} {current : Pointers} {kept : Dict String PairingBlob} {did : String}

/-- The pairing id that a daemon resolves to: that of its blob, or else its pointer. -/
def resolved (current : Pointers) (kept : Dict String PairingBlob) (did : String) : Option String :=
  ((kept.lookup did).map PairingBlob.pairingId).or (current.map.lookup did)

/-- A known daemon keeps its place unless it resolves to a hidden id. -/
def survive (hidden : List String) (current : Pointers) (kept : Dict String PairingBlob)
    (pointers : Pointers) (did : String) : Pointers :=
  match resolved current kept did with
  | some pairingId =>
    if pairingId ∈ hidden then pointers
    else ⟨pointers.order ++ [did], pointers.map.insert did pairingId⟩
  | none => ⟨pointers.order ++ [did], pointers.map⟩

/-- A new daemon follows. -/
def arrive (kept : Dict String PairingBlob) (pointers : Pointers) (did : String) : Pointers :=
  if did ∈ pointers.map then pointers
  else
    match kept.lookup did with
    | some blob => ⟨pointers.order ++ [did], pointers.map.insert did blob.pairingId⟩
    | none => ⟨pointers.order ++ [did], pointers.map⟩

theorem repoint_eq_foldl : repoint hidden current kept =
    (kept.keys.mergeSort (· ≤ ·)).foldl (arrive kept)
      (current.order.foldl (survive hidden current kept) ⟨[], ∅⟩) := rfl

/-- The daemons that keep their place. -/
def survivors (hidden : List String) (current : Pointers) (kept : Dict String PairingBlob) :
    List String :=
  current.order.filter fun did => (resolved current kept did).all (· ∉ hidden)

/-- The daemons that the index shows: the survivors, then the new ones in order. -/
def names (hidden : List String) (current : Pointers) (kept : Dict String PairingBlob) :
    List String :=
  survivors hidden current kept ++
    (kept.keys.mergeSort (· ≤ ·)).filter (· ∉ survivors hidden current kept)

theorem resolved_of_lookup {blob : PairingBlob} (h : kept.lookup did = some blob) :
    resolved current kept did = some blob.pairingId := by
  rw [resolved, h]
  rfl

theorem resolved_of_absent (h : kept.lookup did = none) :
    resolved current kept did = current.map.lookup did := by
  rw [resolved, h]
  rfl

theorem mem_survivors : did ∈ survivors hidden current kept ↔
    did ∈ current.order ∧ ∀ pairingId, resolved current kept did = some pairingId →
      pairingId ∉ hidden := by
  rw [survivors, List.mem_filter]
  refine and_congr_right fun _ => ?_
  cases resolved current kept did with
  | none => exact iff_of_true rfl fun _ h => absurd h.symm (Option.some_ne_none _)
  | some pairingId =>
    rw [Option.all_some, decide_eq_true_iff]
    exact ⟨fun h _ heq => Option.some.inj heq ▸ h, fun h => h pairingId rfl⟩

theorem mem_names : did ∈ names hidden current kept ↔
    did ∈ survivors hidden current kept ∨ did ∈ kept := by
  rw [names, List.mem_append, List.mem_filter, List.mem_mergeSort, decide_eq_true_iff,
    ← AList.mem_keys]
  constructor
  · exact Or.imp_right And.left
  · rintro (h | h)
    · exact .inl h
    · by_cases hsurvivor : did ∈ survivors hidden current kept
      · exact .inl hsurvivor
      · exact .inr ⟨h, hsurvivor⟩

theorem nodup_names (h : current.order.Nodup) : (names hidden current kept).Nodup := by
  refine List.nodup_append.mpr ⟨h.filter _,
    ((List.mergeSort_perm _ _).nodup_iff.mpr kept.keys_nodup).filter _, ?_⟩
  rintro did hdid other hother rfl
  exact of_decide_eq_true (List.mem_filter.mp hother).2 hdid

/-- Every daemon of the index resolves to a pairing id. -/
theorem exists_resolved (hcurrent : ∀ did ∈ current.order, did ∈ current.map)
    (h : did ∈ names hidden current kept) :
    ∃ pairingId, resolved current kept did = some pairingId := by
  cases hlookup : kept.lookup did with
  | some blob => exact ⟨_, resolved_of_lookup hlookup⟩
  | none =>
    rw [resolved_of_absent hlookup]
    rcases mem_names.mp h with hsurvivor | hkept
    · exact mem_iff_lookup.mp (hcurrent did (mem_survivors.mp hsurvivor).1)
    · exact absurd hkept (AList.lookup_eq_none.mp hlookup)

/-- One daemon after another, the index lists the survivors and enters their ids. -/
theorem foldl_survivors (order : List String) :
    order.foldl (survive hidden current kept) ⟨[], ∅⟩ =
    let shown := order.filter fun did => (resolved current kept did).all (· ∉ hidden)
    ⟨shown, tabulate (resolved current kept) shown⟩ := by
  induction order using List.reverseRecOn with
  | nil => rfl
  | append_singleton order did ih =>
    rw [List.foldl_append, ih]
    dsimp only [List.foldl_cons, List.foldl_nil]
    rw [List.filter_append, List.filter_singleton, survive]
    cases hdid : resolved current kept did with
    | none =>
      rw [Option.all_none, cond_true, tabulate_concat, enter, hdid]
    | some pairingId =>
      rw [Option.all_some]
      dsimp only
      by_cases hmem : pairingId ∈ hidden
      · rw [if_pos hmem, decide_eq_false (not_not.mpr hmem), cond_false, List.append_nil]
      · rw [if_neg hmem, decide_eq_true hmem, cond_true, tabulate_concat, enter, hdid]

/-- Then it lists the new daemons. -/
theorem foldl_arrivals {known arrivals : List String}
    (hknown : ∀ did ∈ known, ∃ pairingId, resolved current kept did = some pairingId)
    (hkept : ∀ did ∈ arrivals, did ∈ kept) (hnodup : arrivals.Nodup) :
    arrivals.foldl (arrive kept) ⟨known, tabulate (resolved current kept) known⟩ =
    let shown := known ++ arrivals.filter (· ∉ known)
    ⟨shown, tabulate (resolved current kept) shown⟩ := by
  induction arrivals using List.reverseRecOn with
  | nil =>
    rw [List.filter_nil, List.append_nil]
    rfl
  | append_singleton arrivals did ih =>
    obtain ⟨hrest, -, hdisjoint⟩ := List.nodup_append.mp hnodup
    have hnew : did ∉ arrivals := fun hmem => hdisjoint did hmem did (List.mem_singleton_self did) rfl
    have hvalues : ∀ other ∈ known ++ arrivals.filter (· ∉ known),
        ∃ pairingId, resolved current kept other = some pairingId := by
      intro other hother
      rcases List.mem_append.mp hother with hold | harrival
      · exact hknown other hold
      · obtain ⟨blob, hblob⟩ := mem_iff_lookup.mp
          (hkept other (List.mem_append_left _ (List.mem_filter.mp harrival).1))
        exact ⟨_, resolved_of_lookup hblob⟩
    have hmem : did ∈ tabulate (resolved current kept) (known ++ arrivals.filter (· ∉ known)) ↔
        did ∈ known := by
      rw [mem_tabulate hvalues, List.mem_append]
      exact or_iff_left fun h => hnew (List.mem_filter.mp h).1
    obtain ⟨blob, hblob⟩ := mem_iff_lookup.mp
      (hkept did (List.mem_append_right _ (List.mem_singleton_self did)))
    rw [List.foldl_append, ih (fun other hother => hkept other (List.mem_append_left _ hother)) hrest]
    dsimp only [List.foldl_cons, List.foldl_nil]
    rw [List.filter_append, List.filter_singleton, arrive]
    by_cases hold : did ∈ known
    · rw [if_pos (hmem.mpr hold), decide_eq_false (not_not.mpr hold), cond_false, List.append_nil]
    · rw [if_neg (mt hmem.mp hold), decide_eq_true hold, cond_true, ← List.append_assoc,
        tabulate_concat, enter, resolved_of_lookup hblob, hblob]

/-- The index lists the daemons and has the ids they resolve to. -/
theorem repoint_eq (hcurrent : ∀ did ∈ current.order, did ∈ current.map) :
    repoint hidden current kept =
      ⟨names hidden current kept, tabulate (resolved current kept) (names hidden current kept)⟩ := by
  rw [repoint_eq_foldl, foldl_survivors]
  refine foldl_arrivals (fun did hdid => ?_) (fun did hdid => ?_) ?_
  · exact exists_resolved hcurrent (mem_names.mpr (.inl hdid))
  · exact AList.mem_keys.mpr (List.mem_mergeSort.mp hdid)
  · exact (List.mergeSort_perm _ _).nodup_iff.mpr kept.keys_nodup

theorem lookup_repoint (hcurrent : ∀ did ∈ current.order, did ∈ current.map) :
    (repoint hidden current kept).map.lookup did =
      if did ∈ names hidden current kept then resolved current kept did else none := by
  rw [repoint_eq hcurrent]
  exact lookup_tabulate _ did

theorem mem_repoint (hcurrent : ∀ did ∈ current.order, did ∈ current.map) :
    did ∈ (repoint hidden current kept).order ↔ did ∈ (repoint hidden current kept).map := by
  rw [repoint_eq hcurrent]
  exact (mem_tabulate fun other hother => exists_resolved hcurrent hother).symm

/-- No daemon of the index resolves to a hidden id. -/
theorem resolved_visible (hvisible : ∀ did blob, kept.lookup did = some blob →
    blob.pairingId ∉ hidden) (h : did ∈ names hidden current kept) {pairingId : String}
    (hdid : resolved current kept did = some pairingId) : pairingId ∉ hidden := by
  rcases mem_names.mp h with hsurvivor | hkept
  · exact (mem_survivors.mp hsurvivor).2 pairingId hdid
  · obtain ⟨blob, hblob⟩ := mem_iff_lookup.mp hkept
    rw [← Option.some.inj ((resolved_of_lookup hblob).symm.trans hdid)]
    exact hvisible did blob hblob

/-- An index that was repointed to visible blobs is repointed to itself. -/
theorem repoint_self (hcurrent : ∀ did ∈ current.order, did ∈ current.map)
    (hvisible : ∀ did blob, kept.lookup did = some blob → blob.pairingId ∉ hidden)
    {kept' : Dict String PairingBlob} (hkept : ∀ did, kept'.lookup did = kept.lookup did) :
    repoint hidden (repoint hidden current kept) kept' = repoint hidden current kept := by
  have horder : (repoint hidden current kept).order = names hidden current kept := by
    rw [repoint_eq hcurrent]
  have hresolved : ∀ did ∈ names hidden current kept,
      resolved (repoint hidden current kept) kept' did = resolved current kept did := by
    intro did hdid
    cases hlookup : kept.lookup did with
    | some blob => rw [resolved_of_lookup hlookup, resolved_of_lookup ((hkept did).trans hlookup)]
    | none => rw [resolved_of_absent ((hkept did).trans hlookup), lookup_repoint hcurrent, if_pos hdid]
  have hsurvivors : survivors hidden (repoint hidden current kept) kept' =
      names hidden current kept := by
    rw [survivors, horder, List.filter_eq_self]
    intro did hdid
    rw [hresolved did hdid]
    obtain ⟨pairingId, hpid⟩ := exists_resolved hcurrent hdid
    rw [hpid, Option.all_some]
    exact decide_eq_true (resolved_visible hvisible hdid hpid)
  have harrivals : (kept'.keys.mergeSort (· ≤ ·)).filter (· ∉ names hidden current kept) = [] := by
    refine List.filter_eq_nil_iff.mpr fun did hdid hmissing => ?_
    obtain ⟨blob, hblob⟩ := mem_iff_lookup.mp (AList.mem_keys.mpr (List.mem_mergeSort.mp hdid))
    refine of_decide_eq_true hmissing (mem_names.mpr (.inr (mem_iff_lookup.mpr ⟨blob, ?_⟩)))
    exact (hkept did).symm.trans hblob
  have hnames : names hidden (repoint hidden current kept) kept' = names hidden current kept := by
    rw [names, hsurvivors, harrivals, List.append_nil]
  have hexact : ∀ did ∈ (repoint hidden current kept).order, did ∈ (repoint hidden current kept).map :=
    fun did => (mem_repoint hcurrent).mp
  rw [repoint_eq hexact, hnames, tabulate_congr hresolved, repoint_eq hcurrent]

end Repointing

section Passes

variable {keyOrder : KeyOrder String} {device : Device} {found : List PairingBlob}
  {blob : PairingBlob} {did : String}

/-- The blob that is kept for each daemon. -/
def keptBlobs (device : Device) (found : List PairingBlob) : Dict String PairingBlob :=
  (rank PairingBlob.did replaces (visible device found)).best

/-- The index of a pass that finds a visible blob. -/
def repointed (keyOrder : KeyOrder String) (device : Device) (found : List PairingBlob) : Pointers :=
  repoint device.hidden (pointers keyOrder device) (keptBlobs device found)

/-- The device without the blobs that lost. -/
def swept (device : Device) (found : List PairingBlob) : Device :=
  (losingIds device.hidden found).foldl sweep device

/-- The index is remembered unless it is empty. -/
def remember (device : Device) (current : Pointers) : Device :=
  if current.order = [] then device else { device with lastGood := some current }

theorem reconcile_of_visible (h : visible device found ≠ []) :
    reconcile keyOrder device (some found) =
      (writePointers (swept device found) (repointed keyOrder device found),
        repointed keyOrder device found) := by
  rw [reconcile]
  exact if_neg h

theorem reconcile_of_hidden (h : visible device found = []) :
    reconcile keyOrder device (some found) =
      (remember device (pointers keyOrder device), pointers keyOrder device) := by
  rw [reconcile, remember]
  dsimp only
  rw [if_pos h]
  split
  · rfl
  · rfl

/-- The daemons that are listed are those with a stored pointer. -/
theorem mem_pointers : did ∈ (pointers keyOrder device).order ↔ did ∈ device.pointers.map :=
  mem_completed

/-- An exact index is read as it is stored. -/
theorem pointers_of_exact (h : ∀ did, did ∈ device.pointers.order ↔ did ∈ device.pointers.map) :
    pointers keyOrder device = device.pointers :=
  congrArg (fun order => Pointers.mk order device.pointers.map) (completed_of_exact h)

theorem visible_ne_nil_iff (hfound : found.Perm device.records.blobs) :
    visible device found ≠ [] ↔ HasVisible device := by
  constructor
  · intro h
    obtain ⟨blob, hblob⟩ := List.exists_mem_of_ne_nil _ h
    exact ⟨blob, (mem_visible_iff hfound).mp hblob⟩
  · rintro ⟨blob, hblob⟩
    exact List.ne_nil_of_mem ((mem_visible_iff hfound).mpr hblob)

/-- No daemon is kept under a hidden id. -/
theorem keptBlobs_visible (h : (keptBlobs device found).lookup did = some blob) :
    blob.pairingId ∉ device.hidden :=
  of_decide_eq_true (List.mem_filter.mp (mem_of_lookup_rank h).1).2

theorem hidden_foldl_sweep (ids : List String) (device : Device)
    (h : ∀ id ∈ ids, id ∉ device.hidden) : (ids.foldl sweep device).hidden = device.hidden := by
  induction ids generalizing device with
  | nil => rfl
  | cons id ids ih =>
    have hid : (sweep device id).hidden = device.hidden := by
      rw [sweep, clearLocalHide]
      split
      · rfl
      · refine List.filter_eq_self.mpr fun other hother => decide_eq_true ?_
        rintro rfl
        exact h other List.mem_cons_self hother
    rw [List.foldl_cons, ih (sweep device id), hid]
    intro other hother
    rw [hid]
    exact h other (List.mem_cons_of_mem id hother)

/-- A sweep changes no tombstone. -/
theorem hidden_swept (hfound : found.Perm device.records.blobs) :
    (swept device found).hidden = device.hidden := by
  refine hidden_foldl_sweep _ device fun id hid => ?_
  obtain ⟨blob, hblob, rfl⟩ := List.mem_map.mp hid
  exact ((mem_visible_iff hfound).mp ((mem_losers_iff (nodup_visible hfound)).mp hblob).1).2

/-- A sweep leaves the hidden blobs and those that are kept. -/
theorem mem_swept (hfound : found.Perm device.records.blobs) :
    blob ∈ (swept device found).records.blobs ↔ blob ∈ device.records.blobs ∧
      (Shows device.hidden blob → (keptBlobs device found).lookup blob.did = some blob) := by
  rw [swept, records_foldl_sweep, List.mem_filter, decide_eq_true_iff]
  refine and_congr_right fun hblob => ?_
  by_cases hshows : Shows device.hidden blob
  · rw [mem_losingIds_iff hfound hblob hshows, not_not]
    exact ⟨fun h _ => h, fun h => h hshows⟩
  · exact iff_of_true (notMem_losingIds hfound hblob fun h => absurd h hshows) fun h => absurd h hshows

/-- A kept blob is one of the shown blobs of its daemon, and it stays. -/
theorem mem_swept_of_kept (hfound : found.Perm device.records.blobs)
    (h : (keptBlobs device found).lookup did = some blob) :
    blob ∈ (swept device found).records.blobs ∧ Shows device.hidden blob ∧ blob.did = did := by
  obtain ⟨hmem, rfl⟩ := mem_of_lookup_rank h
  obtain ⟨hblob, hshows⟩ := (mem_visible_iff hfound).mp hmem
  exact ⟨(mem_swept hfound).mpr ⟨hblob, fun _ => h⟩, hshows, rfl⟩

/-- A daemon with a shown blob has one that is kept. -/
theorem exists_kept (hfound : found.Perm device.records.blobs) (hblob : blob ∈ device.records.blobs)
    (hshows : Shows device.hidden blob) :
    ∃ kept, (keptBlobs device found).lookup blob.did = some kept := by
  cases hlookup : (keptBlobs device found).lookup blob.did with
  | some kept => exact ⟨kept, rfl⟩
  | none => exact absurd ((mem_visible_iff hfound).mpr ⟨hblob, hshows⟩) (notMem_of_lookup_rank hlookup)

/-- After a sweep a daemon has one shown blob. -/
theorem one_shown_swept (hfound : found.Perm device.records.blobs) {other : PairingBlob}
    (hblob : blob ∈ (swept device found).records.blobs)
    (hother : other ∈ (swept device found).records.blobs) (hshows : Shows device.hidden blob)
    (hshows' : Shows device.hidden other) (hdid : blob.did = other.did) : blob = other := by
  have hkept := ((mem_swept hfound).mp hblob).2 hshows
  have hkept' := ((mem_swept hfound).mp hother).2 hshows'
  rw [hdid] at hkept
  exact Option.some.inj (hkept.symm.trans hkept')

/-- The pass that found a visible blob. -/
def written (keyOrder : KeyOrder String) (device : Device) (found : List PairingBlob) : Device :=
  writePointers (swept device found) (repointed keyOrder device found)

/-- A second enumeration finds one shown blob of each daemon, the one that was kept. -/
theorem kept_again (hfound : found.Perm device.records.blobs) {found' : List PairingBlob}
    (hfound' : found'.Perm (written keyOrder device found).records.blobs) :
    (∀ did, (keptBlobs (written keyOrder device found) found').lookup did =
        (keptBlobs device found).lookup did) ∧
      losingIds (written keyOrder device found).hidden found' = [] := by
  have hhidden : (written keyOrder device found).hidden = device.hidden := hidden_swept hfound
  have hmem : ∀ blob, blob ∈ visible (written keyOrder device found) found' ↔
      blob ∈ (swept device found).records.blobs ∧ Shows device.hidden blob := by
    intro blob
    rw [← hhidden]
    exact mem_visible_iff hfound'
  have hdistinct : ∀ blob ∈ visible (written keyOrder device found) found',
      ∀ other ∈ visible (written keyOrder device found) found', blob.did = other.did →
        blob = other := by
    intro blob hblob other hother
    obtain ⟨hblob, hshows⟩ := (hmem blob).mp hblob
    obtain ⟨hother, hshows'⟩ := (hmem other).mp hother
    exact one_shown_swept hfound hblob hother hshows hshows'
  constructor
  · refine fun did => Option.ext fun blob => ?_
    change (rank _ _ _).best.lookup did = some blob ↔ _
    rw [lookup_rank_of_distinct hdistinct, hmem]
    constructor
    · rintro ⟨⟨hblob, hshows⟩, rfl⟩
      exact ((mem_swept hfound).mp hblob).2 hshows
    · intro h
      obtain ⟨hblob, hshows, hdid⟩ := mem_swept_of_kept hfound h
      exact ⟨⟨hblob, hshows⟩, hdid⟩
  · have hnone : (rank PairingBlob.did replaces
        (visible (written keyOrder device found) found')).losers = [] :=
      losers_of_distinct (nodup_visible hfound') hdistinct
    exact congrArg (List.map PairingBlob.pairingId) hnone

/-- After a pass that wrote the index, a second one changes nothing. -/
theorem reconcile_written (hfound : found.Perm device.records.blobs) (hvisible : HasVisible device)
    (keyOrder' : KeyOrder String) {found' : List PairingBlob}
    (hfound' : found'.Perm (written keyOrder device found).records.blobs) :
    reconcile keyOrder' (written keyOrder device found) (some found') =
      (written keyOrder device found, repointed keyOrder device found) := by
  have hhidden : (written keyOrder device found).hidden = device.hidden := hidden_swept hfound
  have hcurrent : ∀ did ∈ (pointers keyOrder device).order, did ∈ (pointers keyOrder device).map :=
    fun did => mem_pointers.mp
  obtain ⟨hkept, hlosers⟩ := kept_again hfound hfound'
  have hvisible' : HasVisible (written keyOrder device found) := by
    obtain ⟨blob, hblob, hshows⟩ := hvisible
    obtain ⟨kept, hlookup⟩ := exists_kept hfound hblob hshows
    obtain ⟨hmem, hkeptshows, -⟩ := mem_swept_of_kept hfound hlookup
    exact ⟨kept, hmem, hhidden.symm ▸ hkeptshows⟩
  have hread : pointers keyOrder' (written keyOrder device found) = repointed keyOrder device found :=
    pointers_of_exact fun did => mem_repoint hcurrent
  have hindex : repointed keyOrder' (written keyOrder device found) found' =
      repointed keyOrder device found := by
    rw [repointed, hread, hhidden]
    exact repoint_self hcurrent (fun did blob => keptBlobs_visible) hkept
  have hswept : swept (written keyOrder device found) found' = written keyOrder device found := by
    rw [swept, hlosers]
    rfl
  rw [reconcile_of_visible ((visible_ne_nil_iff hfound').mpr hvisible'), hindex, hswept]
  rfl

/-- What a pass leaves that found a visible blob. -/
theorem reconciled_of_visible (hfound : found.Perm device.records.blobs)
    (hvisible : HasVisible device) :
    Reconciled device (written keyOrder device found) (repointed keyOrder device found) := by
  have hcurrent : ∀ did ∈ (pointers keyOrder device).order, did ∈ (pointers keyOrder device).map :=
    fun did => mem_pointers.mp
  refine ⟨.inl rfl, fun did => mem_repoint hcurrent, fun h => ?_, hidden_swept hfound,
    fun blob hblob other hother => one_shown_swept hfound hblob hother,
    fun blob hblob hhidden => (mem_swept hfound).mpr ⟨hblob, fun hshows => absurd hshows hhidden⟩,
    fun did pairingId hstored hshown habsent => ?_, fun blob hblob hshows => ?_,
    fun keyOrder' found' hfound' => ?_⟩
  · rw [repointed, repoint_eq hcurrent]
    exact nodup_names (nodup_completed h)
  · have hnone : (keptBlobs device found).lookup did = none := by
      cases hlookup : (keptBlobs device found).lookup did with
      | none => rfl
      | some blob =>
        obtain ⟨hmem, hshows, hdid⟩ := mem_swept_of_kept hfound hlookup
        exact absurd hdid (habsent blob ((mem_swept hfound).mp hmem).1 hshows)
    have hresolved : resolved (pointers keyOrder device) (keptBlobs device found) did =
        some pairingId := (resolved_of_absent hnone).trans hstored
    have hsurvives : did ∈ survivors device.hidden (pointers keyOrder device)
        (keptBlobs device found) := by
      refine mem_survivors.mpr ⟨mem_pointers.mpr (mem_iff_lookup.mpr ⟨pairingId, hstored⟩), ?_⟩
      intro other hother
      rw [← Option.some.inj (hresolved.symm.trans hother)]
      exact hshown
    rw [repointed, lookup_repoint hcurrent, if_pos (mem_names.mpr (.inl hsurvives)), hresolved]
  · obtain ⟨kept, hlookup⟩ := exists_kept hfound hblob hshows
    obtain ⟨hmem, hkeptshows, hdid⟩ := mem_swept_of_kept hfound hlookup
    refine ⟨kept, hmem, hkeptshows, hdid, ?_⟩
    rw [repointed, lookup_repoint hcurrent,
      if_pos (mem_names.mpr (.inr (mem_iff_lookup.mpr ⟨kept, hlookup⟩))), resolved_of_lookup hlookup]
  · have hsecond := reconcile_written hfound hvisible keyOrder' hfound'
    rw [hsecond]
    exact ⟨rfl, rfl, rfl, rfl, List.Perm.refl _, fun _ => rfl⟩

theorem remember_eq (device : Device) (current : Pointers) :
    ∃ lastGood, remember device current = { device with lastGood } := by
  unfold remember
  split
  · exact ⟨device.lastGood, rfl⟩
  · exact ⟨some current, rfl⟩

/-- An index that was remembered is remembered. -/
theorem remember_again (device : Device) (current : Pointers) :
    remember (remember device current) current = remember device current := by
  unfold remember
  split
  · rfl
  · rfl

/-- Two readings of one index. -/
theorem pointers_of_stored {other : Device} (h : other.pointers = device.pointers)
    (keyOrder' : KeyOrder String) :
    (pointers keyOrder' other).map = (pointers keyOrder device).map ∧
      (pointers keyOrder' other).order.Perm (pointers keyOrder device).order ∧
      ((∀ did ∈ device.pointers.map, did ∈ device.pointers.order) →
        pointers keyOrder' other = pointers keyOrder device) := by
  have hread : pointers keyOrder' other = pointers keyOrder' device := by
    rw [pointers, pointers, h]
  rw [hread]
  refine ⟨rfl, perm_completed keyOrder', fun hlisted => ?_⟩
  have horder : (pointers keyOrder' device).order = (pointers keyOrder device).order :=
    (completed_of_listed hlisted).trans (completed_of_listed hlisted).symm
  exact congrArg (fun order => Pointers.mk order device.pointers.map) horder

/-- What a pass leaves that found no visible blob. -/
theorem reconciled_of_hidden (hvisible : ¬HasVisible device) :
    Reconciled device (remember device (pointers keyOrder device)) (pointers keyOrder device) := by
  have hnone : ∀ blob ∈ device.records.blobs, ¬Shows device.hidden blob := fun blob hblob hshows =>
    hvisible ⟨blob, hblob, hshows⟩
  obtain ⟨lastGood, hafter⟩ := remember_eq device (pointers keyOrder device)
  have hagain := remember_again device (pointers keyOrder device)
  rw [hafter] at hagain ⊢
  refine ⟨.inr ⟨hvisible, rfl⟩, fun did => mem_pointers, fun h => nodup_completed h, rfl,
    fun blob hblob other hother hshows => absurd hshows (hnone blob hblob), fun blob hblob _ => hblob,
    fun did pairingId hstored _ _ => hstored,
    fun blob hblob hshows => absurd hshows (hnone blob hblob), fun keyOrder' found' hfound' => ?_⟩
  obtain ⟨hmap, horder, hsame⟩ :=
    @pointers_of_stored keyOrder device { device with lastGood } rfl keyOrder'
  have hnil : visible { device with lastGood } found' = [] :=
    not_not.mp fun h => hvisible ((visible_ne_nil_iff hfound').mp h)
  obtain ⟨lastGood', hsecond⟩ := remember_eq { device with lastGood }
    (pointers keyOrder' { device with lastGood })
  rw [reconcile_of_hidden hnil]
  refine ⟨?_, ?_, ?_, hmap, horder, fun hlisted => ?_⟩
  · rw [hsecond]
  · rw [hsecond]
  · rw [hsecond]
  · rw [hsame (hlisted.resolve_left hvisible), hagain]

/-- A blob of a daemon. -/
def sampleBlob (did pairingId : String) (ts : ℤ) : PairingBlob :=
  ⟨"ps", "pk", "wss://relay", did, 4, pairingId, "host", ts⟩

/-- Two blobs of one daemon, and one of another. -/
theorem nodup_sample : ([sampleBlob "d" "p1" 1000, sampleBlob "d" "p2" 2000,
    sampleBlob "e" "p3" 1000].map PairingBlob.pairingId).Nodup := by decide

/-- A device that points at the older blob of one daemon and at a hidden one. -/
def sampleDevice : Device :=
  ⟨⟨_, nodup_sample⟩, ["p3"],
    ⟨["d", "e"], ((∅ : Dict String String).insert "d" "p1").insert "e" "p3"⟩, none, ∅, []⟩

/-- A device without blobs and with the given stored order. -/
def storedDevice (order : List String) (map : Dict String String) : Device :=
  ⟨⟨[], List.nodup_nil⟩, [], ⟨order, map⟩, none, ∅, []⟩

/-- The reverse order of the entries. -/
def reverseOrder : KeyOrder String := ⟨List.reverse, List.reverse_perm⟩

/-- Two pointers. -/
def twoPointers : Dict String String := ((∅ : Dict String String).insert "d" "p1").insert "e" "p2"

end Passes

section Writes

variable {keyOrder : KeyOrder String} {device : Device}

end Writes

end Teleprompter.PointerReconcile
