import Mathlib.Data.List.AList

/-!
# Finite dictionaries with counted entries

Hash maps and hash sets are modelled by Mathlib's association lists with
unique keys. This file adds the updates that a mutable map offers besides
insertion and removal: change the value behind a key, insert only when the
key is absent, map every value, keep the entries that pass a test. Each update
is described once by its effect on lookup. Entries that satisfy a predicate are
counted, and the count is followed through insertion and removal.
-/

namespace Teleprompter.FiniteDictionary

/-- A finite map from keys to values; an iteration follows the entry list. -/
abbrev Dict (K V : Type) := AList (fun _ : K => V)

/-- A finite set, stored as a map to the unit type. -/
abbrev KeySet (K : Type) := Dict K Unit

variable {K V : Type} [DecidableEq K]

/-- Change the value behind a present key and do nothing on an absent one. -/
def alterKey (k : K) (f : V → V) (m : Dict K V) : Dict K V :=
  match m.lookup k with
  | some v => m.insert k (f v)
  | none => m

/-- Insert a default only when the key has no entry yet. -/
def orInsert (k : K) (v : V) (m : Dict K V) : Dict K V :=
  if k ∈ m then m else m.insert k v

/-- Rewrite every value in place; the keys and their order stay. -/
def mapValues (f : K → V → V) (m : Dict K V) : Dict K V :=
  ⟨m.entries.map fun e => ⟨e.1, f e.1 e.2⟩, List.NodupKeys.map₂ f m.entries m.nodupKeys⟩

/-- Keep the entries that pass a test on key and value. -/
def retain (p : K → V → Bool) (m : Dict K V) : Dict K V :=
  ⟨m.entries.filter fun e => p e.1 e.2, m.nodupKeys.sublist List.filter_sublist⟩

/-- Number of entries. -/
def dictSize (m : Dict K V) : ℕ := m.entries.length

/-- Number of entries that pass a test on key and value. -/
def countWhere (p : K → V → Bool) (m : Dict K V) : ℕ :=
  m.entries.countP fun e => p e.1 e.2

/-- Insertion is visible at its own key only. -/
theorem lookup_insert_eq (m : Dict K V) (k a : K) (v : V) :
    (m.insert k v).lookup a = if a = k then some v else m.lookup a := by
  split
  · next h => rw [h, AList.lookup_insert]
  · next h => exact AList.lookup_insert_ne h

/-- Removal is visible at its own key only. -/
theorem lookup_erase_eq (m : Dict K V) (k a : K) :
    (m.erase k).lookup a = if a = k then none else m.lookup a := by
  split
  · next h => rw [h, AList.lookup_erase]
  · next h => exact AList.lookup_erase_ne h

/-- A key is present exactly when lookup finds a value. -/
theorem mem_iff_lookup {m : Dict K V} {k : K} : k ∈ m ↔ ∃ v, m.lookup k = some v := by
  rw [← AList.lookup_isSome, Option.isSome_iff_exists]

/-- An in-place change is visible at its own key, and only if it was present. -/
theorem lookup_alterKey (k a : K) (f : V → V) (m : Dict K V) :
    (alterKey k f m).lookup a = if a = k then (m.lookup a).map f else m.lookup a := by
  unfold alterKey
  cases h : m.lookup k with
  | none =>
    dsimp only
    split
    · next ha => rw [ha, h, Option.map_none]
    · rfl
  | some v =>
    dsimp only
    rw [lookup_insert_eq]
    split
    · next ha => rw [ha, h, Option.map_some]
    · rfl

/-- A defaulted insertion keeps the value that is already there. -/
theorem lookup_orInsert (k a : K) (v : V) (m : Dict K V) :
    (orInsert k v m).lookup a = if a = k then some ((m.lookup k).getD v) else m.lookup a := by
  unfold orInsert
  by_cases hk : k ∈ m
  · obtain ⟨w, hw⟩ := mem_iff_lookup.mp hk
    rw [if_pos hk, hw]
    split
    · next ha => rw [ha, hw, Option.getD_some]
    · rfl
  · rw [if_neg hk, lookup_insert_eq, AList.lookup_eq_none.mpr hk, Option.getD_none]

/-- Mapping all values commutes with lookup. -/
theorem lookup_mapValues (f : K → V → V) (m : Dict K V) (a : K) :
    (mapValues f m).lookup a = (m.lookup a).map (f a) :=
  List.dlookup_map₂ a

/-- An entry is kept exactly when it passes the test. -/
theorem lookup_retain (p : K → V → Bool) (m : Dict K V) (a : K) :
    (retain p m).lookup a = (m.lookup a).filter (p a) := by
  refine Option.ext fun v => ?_
  rw [Option.filter_eq_some_iff]
  exact AList.mem_lookup_iff.trans (List.mem_filter.trans (and_congr_left' AList.mem_lookup_iff.symm))

/-- A changed entry keeps its key. -/
theorem mem_alterKey {k a : K} {f : V → V} {m : Dict K V} : a ∈ alterKey k f m ↔ a ∈ m := by
  rw [mem_iff_lookup, mem_iff_lookup, lookup_alterKey]
  split <;> simp

/-- Insertion splits into the fresh entry and the other keys. -/
theorem countWhere_insert (p : K → V → Bool) (m : Dict K V) (k : K) (v : V) :
    countWhere p (m.insert k v) = countWhere p (m.erase k) + if p k v then 1 else 0 := by
  simp only [countWhere, AList.entries_insert, List.countP_cons]
  rfl

/-- Removing an absent key changes no count. -/
theorem countWhere_erase_absent {p : K → V → Bool} {m : Dict K V} {k : K}
    (h : m.lookup k = none) : countWhere p (m.erase k) = countWhere p m := by
  have hk : k ∉ m.entries.keys := List.dlookup_eq_none.mp h
  have he : (m.erase k).entries = m.entries := List.kerase_of_notMem_keys hk
  rw [countWhere, countWhere, he]

/-- Removing a present key takes away exactly its own contribution. -/
theorem countWhere_erase_present {p : K → V → Bool} {m : Dict K V} {k : K} {v : V}
    (h : m.lookup k = some v) :
    countWhere p m = countWhere p (m.erase k) + if p k v then 1 else 0 := by
  have hm : (⟨k, v⟩ : Sigma fun _ : K => V) ∈ m.entries := List.of_mem_dlookup h
  obtain ⟨w, before, after, -, he, hk⟩ := List.exists_of_kerase (List.mem_keys_of_mem hm)
  have hw : w = v := by
    have hin : (⟨k, w⟩ : Sigma fun _ : K => V) ∈ m.entries := by rw [he]; simp
    exact m.nodupKeys.eq_of_mk_mem hin hm
  have herase : (m.erase k).entries = before ++ after := hk
  rw [countWhere, countWhere, herase, he, hw]
  simp only [List.countP_append, List.countP_cons]
  omega

/-- A count only depends on which keys carry a value that passes the test. -/
theorem countWhere_congr {p : K → V → Bool} {m m' : Dict K V}
    (h : ∀ a, (m.lookup a).any (p a) = (m'.lookup a).any (p a)) :
    countWhere p m = countWhere p m' := by
  have hlen : ∀ n : Dict K V, countWhere p n =
      ((n.entries.filter fun e => p e.1 e.2).map Sigma.fst).length := by
    intro n
    rw [List.length_map, countWhere, List.countP_eq_length_filter]
  have hnodup : ∀ n : Dict K V,
      ((n.entries.filter fun e => p e.1 e.2).map Sigma.fst).Nodup := fun n =>
    n.keys_nodup.sublist (List.filter_sublist.map Sigma.fst)
  have hmem : ∀ (n : Dict K V) a, a ∈ (n.entries.filter fun e => p e.1 e.2).map Sigma.fst ↔
      (n.lookup a).any (p a) = true := by
    intro n a
    rw [List.mem_map, Option.any_eq_true]
    constructor
    · rintro ⟨⟨k, v⟩, hf, rfl⟩
      obtain ⟨hin, hp⟩ := List.mem_filter.mp hf
      exact ⟨v, AList.mem_lookup_iff.mpr hin, hp⟩
    · rintro ⟨v, hl, hp⟩
      exact ⟨⟨a, v⟩, List.mem_filter.mpr ⟨AList.mem_lookup_iff.mp hl, hp⟩, rfl⟩
  rw [hlen, hlen]
  refine ((List.perm_ext_iff_of_nodup (hnodup m) (hnodup m')).mpr fun a => ?_).length_eq
  rw [hmem, hmem, h]

/-- A count splits into one key and the others. -/
theorem countWhere_split (p : K → V → Bool) (m : Dict K V) (k : K) :
    countWhere p m = countWhere p (m.erase k) + if (m.lookup k).any (p k) then 1 else 0 := by
  cases h : m.lookup k with
  | none => rw [countWhere_erase_absent h, Option.any_none, if_neg Bool.false_ne_true, Nat.add_zero]
  | some v => rw [countWhere_erase_present h, Option.any_some]

/-- Maps that agree away from one key have counts that differ by that key. -/
theorem countWhere_off {p : K → V → Bool} {m m' : Dict K V} {k : K}
    (h : ∀ a, a ≠ k → (m'.lookup a).any (p a) = (m.lookup a).any (p a)) :
    countWhere p m' + (if (m.lookup k).any (p k) then 1 else 0) =
      countWhere p m + if (m'.lookup k).any (p k) then 1 else 0 := by
  have herase : countWhere p (m'.erase k) = countWhere p (m.erase k) := by
    refine countWhere_congr fun a => ?_
    rw [lookup_erase_eq, lookup_erase_eq]
    split
    · rfl
    · next ha => exact h a ha
  rw [countWhere_split p m' k, countWhere_split p m k, herase]
  omega

omit [DecidableEq K] in
/-- The number of entries is the count of the trivial test. -/
theorem dictSize_eq_countWhere (m : Dict K V) : dictSize m = countWhere (fun _ _ => true) m := by
  simp [dictSize, countWhere]

/-- An insertion grows the map by at most one entry. -/
theorem dictSize_insert_le (m : Dict K V) (k : K) (v : V) :
    dictSize (m.insert k v) ≤ dictSize m + 1 := by
  have h := (List.kerase_sublist k m.entries).length_le
  simp only [dictSize, AList.entries_insert, List.length_cons]
  omega

/-- Replacing the value of a present key keeps the size. -/
theorem dictSize_insert_present {m : Dict K V} {k : K} (h : k ∈ m) (v : V) :
    dictSize (m.insert k v) = dictSize m := by
  obtain ⟨w, hw⟩ := mem_iff_lookup.mp h
  rw [dictSize_eq_countWhere, dictSize_eq_countWhere, countWhere_insert,
    countWhere_erase_present hw]

/-- Removal never grows the map. -/
theorem dictSize_erase_le (m : Dict K V) (k : K) : dictSize (m.erase k) ≤ dictSize m :=
  (List.kerase_sublist k m.entries).length_le

end Teleprompter.FiniteDictionary
