import Mathlib.Data.List.DropRight
import Mathlib.Data.List.Nodup

/-!
# Logs of created keys

Items are recorded under keys. A key that is not among the last so many that
were created is created anew, with the item as its only one; other items are
added behind those of their key. Nothing is ever taken out of the log: what is
kept is a matter of looking at its end.
-/

namespace Teleprompter.CreationLogs

variable {κ β : Type}

/-- The keys in the order of their creation, each with its items. -/
abbrev CreationLog (κ β : Type) := List (κ × List β)

/-- The entries that were created last. -/
def kept (cap : ℕ) (log : CreationLog κ β) : CreationLog κ β := log.rtake cap

/-- The keys that were created last. -/
def keptKeys (cap : ℕ) (log : CreationLog κ β) : List κ := (kept cap log).map Prod.fst

@[simp] theorem keptKeys_nil (cap : ℕ) : keptKeys cap ([] : CreationLog κ β) = [] := by
  rw [keptKeys, kept, List.rtake_nil, List.map_nil]

theorem length_keptKeys_le (cap : ℕ) (log : CreationLog κ β) : (keptKeys cap log).length ≤ cap := by
  rw [keptKeys, List.length_map, kept, List.rtake, List.length_drop]
  omega

/-- The last elements of a list depend on nothing but the last ones of its front. -/
theorem rtake_rtake_append (n : ℕ) (front back : List β) :
    (front.rtake n ++ back).rtake n = (front ++ back).rtake n := by
  have hdrop : front.rtake n ++ back = (front ++ back).drop (front.length - n) := by
    rw [List.rtake, List.drop_append_of_le_length (Nat.sub_le _ _)]
  rw [hdrop, List.rtake, List.rtake, List.drop_drop, List.length_drop]
  congr 1
  rw [List.length_append]
  omega

variable [DecidableEq κ]

/-- The items of a key that is kept. -/
def itemsOf (cap : ℕ) (k : κ) (log : CreationLog κ β) : Option (List β) :=
  ((kept cap log).find? fun e => e.1 = k).map Prod.snd

@[simp] theorem itemsOf_nil (cap : ℕ) (k : κ) : itemsOf cap k ([] : CreationLog κ β) = none := by
  rw [itemsOf, kept, List.rtake_nil, List.find?_nil, Option.map_none]

/-- Add an item behind those of a key. -/
def addTo (k : κ) (x : β) (e : κ × List β) : κ × List β := if e.1 = k then (k, e.2 ++ [x]) else e

/-- Record an item. -/
def record (cap : ℕ) (k : κ) (x : β) (log : CreationLog κ β) : CreationLog κ β :=
  if k ∈ keptKeys cap log then log.rdrop cap ++ (kept cap log).map (addTo k x)
  else log ++ [(k, [x])]

/-- The keys that are no longer kept once a new one is created. -/
def outdated (cap : ℕ) (log : CreationLog κ β) : List κ :=
  (keptKeys cap log).take ((keptKeys cap log).length + 1 - cap)

@[simp] theorem addTo_fst (k : κ) (x : β) (e : κ × List β) : (addTo k x e).1 = e.1 := by
  rw [addTo]
  split
  · rename_i hkey
    exact hkey.symm
  · rfl

variable {cap : ℕ} {k : κ} {x : β} {log : CreationLog κ β}

/-- An item under a kept key leaves the kept entries where they are. -/
theorem kept_record_of_mem (h : k ∈ keptKeys cap log) :
    kept cap (record cap k x log) = (kept cap log).map (addTo k x) := by
  have hlength : (log.rdrop cap ++ (kept cap log).map (addTo k x)).length - cap =
      (log.rdrop cap).length := by
    rw [List.length_append, List.length_map, kept, List.rtake, List.length_drop, List.rdrop,
      List.length_take]
    omega
  rw [record, if_pos h, kept, List.rtake, hlength, List.drop_left]

/-- A new key is kept behind those that remain. -/
theorem kept_record_of_notMem (hcap : 0 < cap) (h : k ∉ keptKeys cap log) :
    kept cap (record cap k x log) =
      (kept cap log).drop ((keptKeys cap log).length + 1 - cap) ++ [(k, [x])] := by
  have hsize : (keptKeys cap log).length = log.length - (log.length - cap) := by
    rw [keptKeys, List.length_map, kept, List.rtake, List.length_drop]
  rw [record, if_neg h, hsize, kept, kept, List.rtake, List.rtake, List.drop_drop,
    List.length_append, List.length_singleton, List.drop_append_of_le_length (by omega)]
  congr 2
  omega

/-- The kept keys once an item was recorded. -/
theorem keptKeys_record (hcap : 0 < cap) (k : κ) (x : β) (log : CreationLog κ β) :
    keptKeys cap (record cap k x log) =
      if k ∈ keptKeys cap log then keptKeys cap log
      else (keptKeys cap log).drop ((keptKeys cap log).length + 1 - cap) ++ [k] := by
  split
  · rename_i hmem
    rw [keptKeys, kept_record_of_mem hmem, List.map_map, keptKeys]
    exact List.map_congr_left fun e _ => addTo_fst k x e
  · rename_i hmem
    rw [keptKeys, kept_record_of_notMem hcap hmem, List.map_append, List.map_drop]
    rfl

/-- A key is kept exactly when it has items. -/
theorem mem_keptKeys_iff : k ∈ keptKeys cap log ↔ (itemsOf cap k log).isSome := by
  rw [itemsOf, Option.isSome_map, List.find?_isSome, keptKeys, List.mem_map]
  exact exists_congr fun e => and_congr_right fun _ => decide_eq_true_iff.symm

/-- The items behind the outdated keys are those there were. -/
theorem find?_drop_eq {entries : CreationLog κ β} (h : (entries.map Prod.fst).Nodup) (n : ℕ) (a : κ) :
    ((entries.drop n).find? fun e => e.1 = a) =
      if a ∈ (entries.map Prod.fst).take n then none else entries.find? fun e => e.1 = a := by
  have hsplit : (entries.find? fun e => e.1 = a) =
      ((entries.take n).find? fun e => e.1 = a).or ((entries.drop n).find? fun e => e.1 = a) := by
    rw [← List.find?_append, List.take_append_drop]
  have hdisjoint := List.disjoint_take_drop h (Nat.le_refl n)
  rw [← List.map_take, ← List.map_drop] at hdisjoint
  rw [← List.map_take]
  split
  · rename_i hmem
    rw [List.find?_eq_none]
    intro e he heq
    exact hdisjoint hmem (List.mem_map.mpr ⟨e, he, of_decide_eq_true heq⟩)
  · rename_i hmem
    have hnone : ((entries.take n).find? fun e => e.1 = a) = none := by
      rw [List.find?_eq_none]
      intro e he heq
      exact hmem (List.mem_map.mpr ⟨e, he, of_decide_eq_true heq⟩)
    rw [hsplit, hnone, Option.none_or]

/-- Adding to one key is visible at that key only. -/
theorem find?_map_addTo (entries : CreationLog κ β) (a : κ) :
    ((entries.map (addTo k x)).find? fun e => e.1 = a).map Prod.snd =
      ((entries.find? fun e => e.1 = a).map Prod.snd).map fun items =>
        if a = k then items ++ [x] else items := by
  rw [List.find?_map, Option.map_map, Option.map_map]
  have hsame : ((fun e : κ × List β => decide (e.1 = a)) ∘ addTo k x) = fun e => decide (e.1 = a) :=
    funext fun e => by rw [Function.comp_apply, addTo_fst]
  rw [hsame]
  cases hfound : entries.find? fun e => e.1 = a with
  | none => rfl
  | some e =>
    have hkey : e.1 = a := by simpa using List.find?_some hfound
    rw [Option.map_some, Option.map_some, Function.comp_apply, Function.comp_apply, addTo, hkey]
    split
    · rfl
    · rfl

/-- The items of every key once an item was recorded. -/
theorem itemsOf_record (hcap : 0 < cap) (h : (keptKeys cap log).Nodup) (k : κ) (x : β) (a : κ) :
    itemsOf cap a (record cap k x log) =
      if a = k then some ((itemsOf cap k log).getD [] ++ [x])
      else if k ∉ keptKeys cap log ∧ a ∈ outdated cap log then none
      else itemsOf cap a log := by
  by_cases hmem : k ∈ keptKeys cap log
  · obtain ⟨items, hitems⟩ := Option.isSome_iff_exists.mp (mem_keptKeys_iff.mp hmem)
    rw [itemsOf, kept_record_of_mem hmem, find?_map_addTo]
    change (itemsOf cap a log).map _ = _
    by_cases ha : a = k
    · rw [ha, hitems, Option.map_some, if_pos rfl, if_pos rfl, Option.getD_some]
    · have hid : (fun items : List β => if a = k then items ++ [x] else items) = id :=
        funext fun items => if_neg ha
      rw [hid, Option.map_id, if_neg ha, if_neg fun hnew => hnew.1 hmem]
      rfl
  · have hnone : ((kept cap log).find? fun e => e.1 = k) = none := by
      rw [← Option.not_isSome_iff_eq_none, ← Option.isSome_map (f := Prod.snd)]
      exact fun hsome => hmem (mem_keptKeys_iff.mpr hsome)
    have hdropped : (((kept cap log).drop ((keptKeys cap log).length + 1 - cap)).find? fun e =>
        e.1 = a) = if a ∈ outdated cap log then none else (kept cap log).find? fun e => e.1 = a :=
      find?_drop_eq h _ a
    rw [itemsOf, kept_record_of_notMem hcap hmem, List.find?_append, hdropped, List.find?_singleton]
    by_cases ha : a = k
    · rw [ha, hnone, ite_self, Option.none_or, if_pos (decide_eq_true rfl), if_pos rfl, itemsOf,
        hnone]
      rfl
    · have hother : ¬decide (k = a) = true := by simpa using fun heq : k = a => ha heq.symm
      rw [if_neg hother, Option.or_none, if_neg ha, itemsOf, apply_ite (Option.map Prod.snd)]
      exact if_congr ⟨fun hold => ⟨hmem, hold⟩, And.right⟩ rfl rfl

end Teleprompter.CreationLogs
