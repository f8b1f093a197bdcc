import Mathlib.Data.List.Induction
import Teleprompter.FiniteDictionary

/-!
# Dictionaries with a listing of their keys

A dictionary is read in an order that may differ from reading to reading, so a
listing of its keys is kept beside it. The listing is completed before use: keys
that are gone are dropped, and keys that it misses follow in the order of the
reading. A listing and its dictionary are built together by entering keys one
by one; the dictionary is then determined by the listing.
-/

namespace Teleprompter.ListedKeys

open FiniteDictionary

variable {K V : Type} [DecidableEq K]

/-- The order of one reading. -/
structure KeyOrder (K : Type) where
  arrange : List K → List K
  perm : ∀ keys, (arrange keys).Perm keys

/-- The listed keys that the dictionary has, then the keys that are not listed. -/
def completed (keyOrder : KeyOrder K) (listing : List K) (table : Dict K V) : List K :=
  let known := listing.filter (· ∈ table)
  known ++ (keyOrder.arrange table.keys).filter (· ∉ known)

/-- Enter the value of a key, if it has one. -/
def enter (f : K → Option V) (table : Dict K V) (k : K) : Dict K V :=
  match f k with
  | some v => table.insert k v
  | none => table

/-- The values of the keys of a listing. -/
def tabulate (f : K → Option V) (listing : List K) : Dict K V := listing.foldl (enter f) ∅

section Completion

variable {keyOrder : KeyOrder K} {listing : List K} {table : Dict K V} {k : K}

omit [DecidableEq K] in
theorem mem_arrange_keys : k ∈ keyOrder.arrange table.keys ↔ k ∈ table :=
  (keyOrder.perm table.keys).mem_iff.trans AList.mem_keys.symm

theorem mem_known : k ∈ listing.filter (· ∈ table) ↔ k ∈ listing ∧ k ∈ table := by
  rw [List.mem_filter, decide_eq_true_iff]

/-- A completed listing has the keys of the dictionary. -/
theorem mem_completed : k ∈ completed keyOrder listing table ↔ k ∈ table := by
  rw [completed, List.mem_append, mem_known, List.mem_filter, decide_eq_true_iff, mem_arrange_keys]
  constructor
  · rintro (h | h)
    · exact h.2
    · exact h.1
  · intro h
    by_cases hk : k ∈ listing
    · exact .inl ⟨hk, h⟩
    · exact .inr ⟨h, fun hknown => hk (mem_known.mp hknown).1⟩

/-- Completion repeats no key. -/
theorem nodup_completed (h : listing.Nodup) : (completed keyOrder listing table).Nodup := by
  refine List.nodup_append.mpr ⟨h.filter _,
    (((keyOrder.perm table.keys).nodup_iff).mpr table.keys_nodup).filter _, ?_⟩
  rintro k hk other hother rfl
  exact of_decide_eq_true (List.mem_filter.mp hother).2 hk

/-- A listing that has every key keeps its own order. -/
theorem completed_of_listed (h : ∀ k ∈ table, k ∈ listing) :
    completed keyOrder listing table = listing.filter (· ∈ table) := by
  have hrest : (keyOrder.arrange table.keys).filter (· ∉ listing.filter (· ∈ table)) = [] := by
    refine List.filter_eq_nil_iff.mpr fun k hk hmissing => ?_
    have hmem := mem_arrange_keys.mp hk
    exact of_decide_eq_true hmissing (mem_known.mpr ⟨h k hmem, hmem⟩)
  rw [completed, hrest, List.append_nil]

/-- An exact listing is complete. -/
theorem completed_of_exact (h : ∀ k, k ∈ listing ↔ k ∈ table) :
    completed keyOrder listing table = listing := by
  rw [completed_of_listed fun k => (h k).mpr, List.filter_eq_self]
  exact fun k hk => decide_eq_true ((h k).mp hk)

/-- Two readings complete a listing by the same keys. -/
theorem perm_completed (other : KeyOrder K) :
    (completed other listing table).Perm (completed keyOrder listing table) :=
  List.Perm.append_left _ (((other.perm _).trans (keyOrder.perm _).symm).filter _)

end Completion

section Tables

variable {f g : K → Option V} {listing : List K}

theorem lookup_enter (table : Dict K V) (k a : K) :
    (enter f table k).lookup a = if a = k then (f k).or (table.lookup k) else table.lookup a := by
  unfold enter
  cases f k with
  | some v => exact lookup_insert_eq table k a v
  | none =>
    dsimp only
    split
    · rename_i h
      rw [h]
      rfl
    · rfl

theorem tabulate_concat (listing : List K) (k : K) :
    tabulate f (listing ++ [k]) = enter f (tabulate f listing) k := by
  rw [tabulate, List.foldl_append]
  rfl

/-- A table has the values of the listed keys. -/
theorem lookup_tabulate (listing : List K) (a : K) :
    (tabulate f listing).lookup a = if a ∈ listing then f a else none := by
  induction listing using List.reverseRecOn with
  | nil => rfl
  | append_singleton listing k ih =>
    rw [tabulate_concat, lookup_enter]
    by_cases ha : a = k
    · have hmem : a ∈ listing ++ [k] := List.mem_append_right _ (List.mem_singleton.mpr ha)
      rw [if_pos ha, if_pos hmem, ← ha, ih]
      split
      · exact Option.or_self
      · exact Option.or_none
    · have hmem : a ∈ listing ++ [k] ↔ a ∈ listing := by
        rw [List.mem_append, List.mem_singleton, or_iff_left ha]
      rw [if_neg ha, ih]
      simp only [hmem]

/-- A table has the listed keys that have a value. -/
theorem mem_tabulate (h : ∀ k ∈ listing, ∃ v, f k = some v) {a : K} :
    a ∈ tabulate f listing ↔ a ∈ listing := by
  rw [mem_iff_lookup, lookup_tabulate]
  constructor
  · rintro ⟨v, hv⟩
    by_contra hnot
    rw [if_neg hnot] at hv
    exact (Option.some_ne_none v).symm hv
  · intro ha
    rw [if_pos ha]
    exact h a ha

/-- A table depends on the values of the listed keys only. -/
theorem tabulate_congr (h : ∀ k ∈ listing, f k = g k) : tabulate f listing = tabulate g listing := by
  induction listing using List.reverseRecOn with
  | nil => rfl
  | append_singleton listing k ih =>
    rw [tabulate_concat, tabulate_concat, ih fun a ha => h a (List.mem_append_left _ ha), enter, enter,
      h k (List.mem_append_right _ (List.mem_singleton_self k))]

end Tables

end Teleprompter.ListedKeys
