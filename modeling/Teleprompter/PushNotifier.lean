import Teleprompter.JsonValues
import Teleprompter.PairingLink
import Teleprompter.RelayManager

/-!
# The push notifier of the daemon

The notifier holds the sealed push tokens of the apps in memory and keeps a
table of them for the next start. A hook event that asks for attention becomes
a message of bounded length, which goes to every token held. The table and the
memory are changed separately: a restart brings back what was held exactly when
each change that mattered also reached the table.
-/

namespace Teleprompter.PushNotifier

open FiniteDictionary JsonValues StepRuns
open RelayManager (Manager PushRequest TokenEntry notifyEvents)
open PairingLink (trim)

section Messages

/-- Hook events that break through a focus mode. -/
def timeSensitiveEvents : List String := ["Notification", "PermissionRequest", "Elicitation"]

/-- How urgent a push is. -/
inductive InterruptionLevel where
  | active
  | timeSensitive
  deriving DecidableEq

def interruptionLevelFor (eventName : String) : InterruptionLevel :=
  if timeSensitiveEvents.contains eventName then .timeSensitive else .active

/-- Copy of a push. -/
structure PushMessage where
  title : List Char
  body : List Char
  deriving DecidableEq

/-- A text of at most so many code points; a longer one is cut and marked. -/
def truncate (s : List Char) (max : ℕ) : List Char :=
  if s.length ≤ max then s else s.take (max - 1) ++ ['…']

variable (toLowercase : List Char → List Char)

def regexPermission (s : List Char) : Bool := decide ("permission".toList <:+: toLowercase s)

def regexWaitIdle (s : List Char) : Bool :=
  decide ("wait".toList <:+: toLowercase s) || decide ("idle".toList <:+: toLowercase s)

/-- A text field of a payload. -/
def getStr (payload : Option Json) (key : String) : Option (List Char) :=
  (((payload.bind Json.asObject).bind fun fields => fields.get key).bind Json.asStr).map
    String.toList

/-- The copy for a hook event. -/
def buildPushMessage (eventName : String) (payload : Option Json) : PushMessage :=
  match eventName with
  | "Notification" =>
    let trimmed := trim ((getStr payload "message").getD [])
    if !trimmed.isEmpty then
      ⟨if regexPermission toLowercase trimmed then "Permission needed".toList
        else if regexWaitIdle toLowercase trimmed then "Waiting for input".toList
        else "Claude needs attention".toList, truncate trimmed 178⟩
    else ⟨"Claude needs attention".toList, "Tap to open the session".toList⟩
  | "PermissionRequest" =>
    ⟨"Permission needed".toList,
      match getStr payload "tool_name" with
      | some t => "Approve ".toList ++ truncate t 160 ++ " to continue".toList
      | none => "Tool permission approval required".toList⟩
  | "Elicitation" =>
    let question := ((getStr payload "message").orElse fun _ => getStr payload "question").getD []
    let trimmed := trim question
    ⟨"Response needed".toList,
      if !trimmed.isEmpty then truncate trimmed 178
      else "Claude is waiting for your answer".toList⟩
  | _ => ⟨"Claude needs attention".toList, "Tap to open the session".toList⟩

/-- What the notifier sees of a record. -/
structure RecordInfo where
  sid : String
  /-- The record is a hook event. -/
  isEvent : Bool
  name : Option String
  payload : Option Json

/-- A push as it is handed to the relay clients. -/
structure Push where
  frontendId : String
  sealed : String
  message : PushMessage
  level : InterruptionLevel
  sid : String
  event : String
  daemonId : String

/-- The pushes for a record, one for each token held. -/
def onRecord (tokens : Dict String TokenEntry) (r : RecordInfo) : List Push :=
  if r.isEvent = false then []
  else
    match r.name with
    | none => []
    | some name =>
      if !notifyEvents.contains name then []
      else if tokens.entries.isEmpty then []
      else
        tokens.entries.map fun e =>
          ⟨e.1, e.2.sealed, buildPushMessage toLowercase name r.payload, interruptionLevelFor name,
            r.sid, name, e.2.daemonId⟩

end Messages

section Tokens

/-- Platforms that the table knows. -/
def knownPlatform (platform : String) : Bool := platform == "ios" || platform == "android"

/-- A row that can be loaded. -/
def validRow (frontendId : String) (row : TokenEntry) : Bool :=
  frontendId != "" && row.daemonId != "" && row.sealed != "" && knownPlatform row.platform

/-- The tokens in memory and in the table, by frontend. -/
structure Tokens where
  memory : Dict String TokenEntry
  table : Dict String TokenEntry

/-- The rows that are purged when the table is loaded. -/
def corruptFrontendIds (table : Dict String TokenEntry) : List String :=
  ((table.entries.filter fun e => !validRow e.1 e.2).map Sigma.fst).filter (· != "")

/-- Load the table, and purge rows that cannot be loaded up to the first deletion that fails.
Nothing is loaded when the query or a deletion fails. -/
def loadPushTokens (table : Dict String TokenEntry) (queries : Bool) (deletions : ℕ) :
    Dict String TokenEntry × Option (Dict String TokenEntry) :=
  if queries then
    let corrupt := corruptFrontendIds table
    ((corrupt.take deletions).foldl (fun rows frontendId => rows.erase frontendId) table,
      if corrupt.length ≤ deletions then some (retain validRow table) else none)
  else (table, none)

/-- What changes the tokens. The flags tell whether the statement on the table succeeds. -/
inductive Event where
  | register (frontendId : String) (entry : TokenEntry) (saves : Bool)
  | unregister (frontendId : String) (deletes : Bool)
  /-- The relay reports that a token cannot be unsealed or is dead. -/
  | useless (frontendId : String) (deletes : Bool)
  /-- A pairing is deleted from the store. -/
  | pairingDeleted (daemonId : String)
  /-- The daemon starts again. -/
  | restart (queries : Bool) (deletions : ℕ)

/-- Register a token in memory, and in the table if its platform is known. -/
def Tokens.registerSealedToken (s : Tokens) (frontendId : String) (entry : TokenEntry)
    (saves : Bool) : Tokens where
  memory := s.memory.insert frontendId entry
  table := if knownPlatform entry.platform && saves then s.table.insert frontendId entry else s.table

def Tokens.unregisterToken (s : Tokens) (frontendId : String) (deletes : Bool) : Tokens where
  memory := s.memory.erase frontendId
  table := if deletes then s.table.erase frontendId else s.table

/-- Drop a token that is of no use any more, if it is held. -/
def Tokens.handleUseless (s : Tokens) (frontendId : String) (deletes : Bool) : Tokens :=
  if frontendId ∈ s.memory then s.unregisterToken frontendId deletes else s

def Tokens.step (s : Tokens) : Event → Tokens
  | .register frontendId entry saves => s.registerSealedToken frontendId entry saves
  | .unregister frontendId deletes => s.unregisterToken frontendId deletes
  | .useless frontendId deletes => s.handleUseless frontendId deletes
  | .pairingDeleted daemonId =>
    { s with table := retain (fun _ row => row.daemonId ≠ daemonId) s.table }
  | .restart queries deletions =>
    let loaded := loadPushTokens s.table queries deletions
    ⟨loaded.2.getD ∅, loaded.1⟩

end Tokens

section Copies

theorem length_truncate_le {s : List Char} {max : ℕ} (h : 0 < max) :
    (truncate s max).length ≤ max := by
  rw [truncate]
  split
  · assumption
  · rw [List.length_append, List.length_take, List.length_singleton]
    omega

theorem truncate_ne_nil {s : List Char} {max : ℕ} (h : s ≠ []) : truncate s max ≠ [] := by
  rw [truncate]
  split
  · exact h
  · exact List.append_ne_nil_of_right_ne_nil _ (List.cons_ne_nil _ _)

/-- A cut text is the front of the text with a mark behind it. -/
theorem truncate_prefix (s : List Char) (max : ℕ) :
    truncate s max = s ∨ ∃ front, front <+: s ∧ truncate s max = front ++ ['…'] := by
  rw [truncate]
  split
  · exact .inl rfl
  · exact .inr ⟨_, List.take_prefix _ _, rfl⟩

/-- Every copy has a title and a body, and the body is short. -/
theorem buildPushMessage_bounds (toLowercase : List Char → List Char) (eventName : String)
    (payload : Option Json) :
    (buildPushMessage toLowercase eventName payload).title ≠ [] ∧
      (buildPushMessage toLowercase eventName payload).body ≠ [] ∧
      (buildPushMessage toLowercase eventName payload).body.length ≤ 180 := by
  have hcut : ∀ s : List Char, s ≠ [] →
      truncate s 178 ≠ [] ∧ (truncate s 178).length ≤ 180 := fun s hs =>
    ⟨truncate_ne_nil hs, (length_truncate_le (by omega)).trans (by omega)⟩
  unfold buildPushMessage
  split
  · dsimp only
    split
    · next htrim =>
      have hne : trim ((getStr payload "message").getD []) ≠ [] := by simpa using htrim
      refine ⟨?_, hcut _ hne⟩
      split
      · simp
      · split <;> simp
    · exact ⟨by simp, by simp, by simp⟩
  · dsimp only
    refine ⟨by simp, ?_⟩
    split
    · next t _ =>
      have hlen : (truncate t 160).length ≤ 160 := length_truncate_le (by omega)
      have hwords : "Approve ".toList.length = 8 ∧ " to continue".toList.length = 12 := by simp
      refine ⟨by simp, ?_⟩
      rw [List.length_append, List.length_append, hwords.1, hwords.2]
      omega
    · exact ⟨by simp, by simp⟩
  · dsimp only
    refine ⟨by simp, ?_⟩
    split
    · next htrim => exact hcut _ (by simpa using htrim)
    · exact ⟨by simp, by simp⟩
  · exact ⟨by simp, by simp, by simp⟩

/-- Records that are pushed. -/
def RecordInfo.Eligible (r : RecordInfo) (name : String) : Prop :=
  r.isEvent = true ∧ r.name = some name ∧ name ∈ notifyEvents

theorem onRecord_of_eligible (toLowercase : List Char → List Char)
    (tokens : Dict String TokenEntry) {r : RecordInfo} {name : String} (h : r.Eligible name) :
    onRecord toLowercase tokens r =
      tokens.entries.map fun e =>
        ⟨e.1, e.2.sealed, buildPushMessage toLowercase name r.payload, interruptionLevelFor name,
          r.sid, name, e.2.daemonId⟩ := by
  obtain ⟨hevent, hname, hnotify⟩ := h
  have hgate : notifyEvents.contains name = true := List.contains_iff_mem.mpr hnotify
  rw [onRecord, if_neg (by simp [hevent]), hname]
  dsimp only
  rw [hgate, Bool.not_true, if_neg Bool.false_ne_true]
  split
  · next hempty => rw [List.isEmpty_iff.mp hempty, List.map_nil]
  · rfl

theorem onRecord_of_not_eligible (toLowercase : List Char → List Char)
    (tokens : Dict String TokenEntry) {r : RecordInfo} (h : ∀ name, ¬r.Eligible name) :
    onRecord toLowercase tokens r = [] := by
  rw [onRecord]
  split
  · rfl
  · next hevent =>
    split
    · rfl
    · next name hname =>
      have hgate : ¬name ∈ notifyEvents := fun hmem => h name ⟨by simpa using hevent, hname, hmem⟩
      rw [if_pos (by simpa using hgate)]

/-- Entries with one key. -/
theorem filter_key (entries : List (Sigma fun _ : String => TokenEntry)) (frontendId : String) :
    entries.filter (fun e => e.1 = frontendId) =
      (entries.lookupAll frontendId).map fun entry => ⟨frontendId, entry⟩ := by
  induction entries with
  | nil => rfl
  | cons e entries ih =>
    obtain ⟨id, entry⟩ := e
    by_cases hid : id = frontendId
    · subst hid
      rw [List.filter_cons_of_pos (by simp), List.lookupAll_cons_eq, List.map_cons, ih]
    · rw [List.filter_cons_of_neg (by simpa using hid), ih,
        List.lookupAll_cons_ne _ _ fun h => hid h.symm]

theorem filter_entries_key (tokens : Dict String TokenEntry) (frontendId : String) :
    tokens.entries.filter (fun e => e.1 = frontendId) =
      (tokens.lookup frontendId).toList.map fun entry => ⟨frontendId, entry⟩ := by
  rw [filter_key, List.lookupAll_eq_dlookup frontendId tokens.nodupKeys]
  rfl

/-- A record that is pushed goes once to every token held and to no other frontend, with a copy
of bounded length that breaks through a focus mode; another record is not pushed. -/
theorem onRecord_spec (toLowercase : List Char → List Char) (tokens : Dict String TokenEntry)
    (r : RecordInfo) :
    (∀ name, r.Eligible name → ∀ frontendId,
        (onRecord toLowercase tokens r).filter (fun p => p.frontendId = frontendId) =
          (tokens.lookup frontendId).toList.map fun entry =>
            ⟨frontendId, entry.sealed, buildPushMessage toLowercase name r.payload,
              .timeSensitive, r.sid, name, entry.daemonId⟩) ∧
      ((∀ name, ¬r.Eligible name) → onRecord toLowercase tokens r = []) ∧
      ∀ p ∈ onRecord toLowercase tokens r,
        p.message.title ≠ [] ∧ p.message.body ≠ [] ∧ p.message.body.length ≤ 180 := by
  refine ⟨fun name h frontendId => ?_, onRecord_of_not_eligible toLowercase tokens, fun p hp => ?_⟩
  · have hlevel : interruptionLevelFor name = .timeSensitive :=
      if_pos (List.contains_iff_mem.mpr h.2.2)
    rw [onRecord_of_eligible toLowercase tokens h, List.filter_map, hlevel]
    have hkey : tokens.entries.filter _ = _ := filter_entries_key tokens frontendId
    refine (congrArg (List.map _) hkey).trans ?_
    rw [List.map_map]
    rfl
  · by_cases h : ∃ name, r.Eligible name
    · obtain ⟨name, h⟩ := h
      rw [onRecord_of_eligible toLowercase tokens h] at hp
      obtain ⟨e, -, rfl⟩ := List.mem_map.mp hp
      exact buildPushMessage_bounds toLowercase name r.payload
    · rw [onRecord_of_not_eligible toLowercase tokens (not_exists.mp h)] at hp
      exact absurd hp List.not_mem_nil

end Copies

section Recovery

/-- Rows that would be loaded. -/
def Tokens.loadable (s : Tokens) (frontendId : String) : Option TokenEntry :=
  (s.table.lookup frontendId).filter (validRow frontendId)

theorem mem_corruptFrontendIds {table : Dict String TokenEntry} {frontendId : String} :
    frontendId ∈ corruptFrontendIds table ↔
      frontendId ≠ "" ∧ ∃ row, table.lookup frontendId = some row ∧
        validRow frontendId row = false := by
  rw [corruptFrontendIds, List.mem_filter, List.mem_map, bne_iff_ne, and_comm]
  refine and_congr_right fun _ => ?_
  constructor
  · rintro ⟨e, he, rfl⟩
    rw [List.mem_filter, Bool.not_eq_true'] at he
    exact ⟨e.2, AList.mem_lookup_iff.mpr he.1, he.2⟩
  · rintro ⟨row, hrow, hvalid⟩
    refine ⟨⟨frontendId, row⟩, List.mem_filter.mpr ⟨AList.mem_lookup_iff.mp hrow, ?_⟩, rfl⟩
    rw [hvalid]
    rfl

theorem lookup_foldl_erase (frontendIds : List String) (table : Dict String TokenEntry)
    (frontendId : String) :
    (frontendIds.foldl (fun rows id => rows.erase id) table).lookup frontendId =
      if frontendId ∈ frontendIds then none else table.lookup frontendId := by
  induction frontendIds generalizing table with
  | nil => rw [List.foldl_nil, if_neg List.not_mem_nil]
  | cons id frontendIds ih =>
    rw [List.foldl_cons, ih, lookup_erase_eq]
    by_cases hmem : frontendId ∈ frontendIds
    · rw [if_pos hmem, if_pos (List.mem_cons_of_mem id hmem)]
    · by_cases hid : frontendId = id
      · rw [if_neg hmem, if_pos hid, if_pos (hid ▸ List.mem_cons_self)]
      · rw [if_neg hmem, if_neg hid,
        if_neg fun h => (List.mem_cons.mp h).elim hid hmem]

/-- A purge leaves what can be loaded. -/
theorem loadable_purge (table : Dict String TokenEntry) (deletions : ℕ) (frontendId : String) :
    ((((corruptFrontendIds table).take deletions).foldl (fun rows id => rows.erase id)
      table).lookup frontendId).filter (validRow frontendId) =
        (table.lookup frontendId).filter (validRow frontendId) := by
  rw [lookup_foldl_erase]
  split
  · next hmem =>
    obtain ⟨-, row, hrow, hvalid⟩ := mem_corruptFrontendIds.mp (List.mem_of_mem_take hmem)
    rw [hrow, Option.filter_some, hvalid]
    rfl
  · rfl

/-- The daemon starts again, and every statement succeeds. -/
def Tokens.restarted (s : Tokens) : Tokens :=
  s.step (.restart true (corruptFrontendIds s.table).length)

theorem lookup_restarted (s : Tokens) (frontendId : String) :
    s.restarted.memory.lookup frontendId = s.loadable frontendId := by
  rw [Tokens.restarted, Tokens.step, loadPushTokens]
  dsimp only
  rw [if_pos rfl, if_pos (Nat.le_refl _), Option.getD_some, lookup_retain, Tokens.loadable]

/-- A restart would bring back what is held. -/
def Tokens.Recovers (s : Tokens) : Prop :=
  ∀ frontendId, s.restarted.memory.lookup frontendId = s.memory.lookup frontendId

/-- The change also reaches the table, or does not matter. -/
def Tokens.Mirrors (s : Tokens) : Event → Prop
  | .register frontendId entry saves =>
    saves = true ∧ validRow frontendId entry = true ∨ s.memory.lookup frontendId = some entry
  | .unregister frontendId deletes => frontendId ∈ s.memory → deletes = true
  | .useless frontendId deletes => frontendId ∈ s.memory → deletes = true
  | .pairingDeleted daemonId =>
    ∀ frontendId entry, s.memory.lookup frontendId = some entry → entry.daemonId ≠ daemonId
  | .restart queries deletions =>
    queries = true ∧ (corruptFrontendIds s.table).length ≤ deletions ∨
      ∀ frontendId, s.memory.lookup frontendId = none

theorem recovers_iff {s : Tokens} :
    s.Recovers ↔ ∀ frontendId, s.loadable frontendId = s.memory.lookup frontendId := by
  rw [Tokens.Recovers]
  exact forall_congr' fun frontendId => by rw [lookup_restarted]

/-- A valid row has a platform that the table knows. -/
theorem knownPlatform_of_validRow {frontendId : String} {row : TokenEntry}
    (h : validRow frontendId row = true) : knownPlatform row.platform = true := by
  rw [validRow, Bool.and_eq_true] at h
  exact h.2

theorem validRow_of_loadable {s : Tokens} {frontendId : String} {entry : TokenEntry}
    (h : s.loadable frontendId = some entry) : validRow frontendId entry = true :=
  (Option.filter_eq_some_iff.mp h).2

theorem loadable_registerSealedToken (s : Tokens) (frontendId : String) (entry : TokenEntry)
    (saves : Bool) (a : String) :
    (s.registerSealedToken frontendId entry saves).loadable a =
      if a = frontendId ∧ knownPlatform entry.platform = true ∧ saves = true then
        (some entry).filter (validRow frontendId)
      else s.loadable a := by
  rw [Tokens.loadable, Tokens.registerSealedToken]
  dsimp only
  by_cases hsaved : knownPlatform entry.platform = true ∧ saves = true
  · rw [if_pos (by rw [hsaved.1, hsaved.2]; rfl), lookup_insert_eq]
    by_cases ha : a = frontendId
    · rw [if_pos ha, if_pos ⟨ha, hsaved⟩, ha]
    · rw [if_neg ha, if_neg fun h => ha h.1, Tokens.loadable]
  · rw [if_neg (by rwa [Bool.and_eq_true]), if_neg fun h => hsaved h.2, Tokens.loadable]

theorem loadable_unregisterToken (s : Tokens) (frontendId : String) (deletes : Bool)
    (a : String) :
    (s.unregisterToken frontendId deletes).loadable a =
      if a = frontendId ∧ deletes = true then none else s.loadable a := by
  rw [Tokens.loadable, Tokens.unregisterToken]
  dsimp only
  cases deletes with
  | false => rw [if_neg Bool.false_ne_true, if_neg fun h => Bool.false_ne_true h.2, Tokens.loadable]
  | true =>
    rw [if_pos rfl, lookup_erase_eq]
    by_cases ha : a = frontendId
    · rw [if_pos ha, if_pos ⟨ha, rfl⟩, Option.filter_none]
    · rw [if_neg ha, if_neg fun h => ha h.1, Tokens.loadable]

/-- A registration is recovered when the table takes it, or has had it before. -/
theorem recovers_register_iff {s : Tokens} (hs : s.Recovers) (frontendId : String)
    (entry : TokenEntry) (saves : Bool) :
    (s.registerSealedToken frontendId entry saves).Recovers ↔
      (saves = true ∧ validRow frontendId entry = true ∨
        s.memory.lookup frontendId = some entry) := by
  have hload := recovers_iff.mp hs
  have hmem : ∀ a, (s.registerSealedToken frontendId entry saves).memory.lookup a =
      if a = frontendId then some entry else s.memory.lookup a := fun a => lookup_insert_eq ..
  have hself := loadable_registerSealedToken s frontendId entry saves frontendId
  rw [recovers_iff]
  constructor
  · intro h
    have hthis := h frontendId
    rw [hmem, if_pos rfl] at hthis
    have hvalid := validRow_of_loadable hthis
    by_cases hsaves : saves = true
    · exact .inl ⟨hsaves, hvalid⟩
    · rw [hself, if_neg fun h => hsaves h.2.2, hload] at hthis
      exact .inr hthis
  · intro h a
    rw [hmem]
    by_cases ha : a = frontendId
    · rw [if_pos ha, ha, hself]
      have hvalid : validRow frontendId entry = true := by
        rcases h with h | h
        · exact h.2
        · exact validRow_of_loadable ((hload frontendId).trans h)
      split
      · exact Option.filter_eq_some_iff.mpr ⟨rfl, hvalid⟩
      · next hnot =>
        rcases h with h | h
        · exact absurd ⟨rfl, knownPlatform_of_validRow hvalid, h.1⟩ hnot
        · exact (hload frontendId).trans h
    · rw [if_neg ha, loadable_registerSealedToken, if_neg fun h => ha h.1]
      exact hload a

/-- A token that is dropped stays away when its row is deleted, or was not there. -/
theorem recovers_unregister_iff {s : Tokens} (hs : s.Recovers) (frontendId : String)
    (deletes : Bool) :
    (s.unregisterToken frontendId deletes).Recovers ↔
      (frontendId ∈ s.memory → deletes = true) := by
  have hload := recovers_iff.mp hs
  have hmem : ∀ a, (s.unregisterToken frontendId deletes).memory.lookup a =
      if a = frontendId then none else s.memory.lookup a := fun a => lookup_erase_eq ..
  rw [recovers_iff]
  constructor
  · intro h hheld
    by_contra hkept
    have hthis := h frontendId
    rw [hmem, if_pos rfl, loadable_unregisterToken, if_neg fun h => hkept h.2, hload] at hthis
    exact AList.lookup_eq_none.mp hthis hheld
  · intro h a
    rw [hmem, loadable_unregisterToken]
    by_cases ha : a = frontendId
    · rw [if_pos ha]
      by_cases hheld : frontendId ∈ s.memory
      · rw [if_pos ⟨ha, h hheld⟩]
      · have hnone : s.loadable a = none := by
          rw [ha, hload, AList.lookup_eq_none]
          exact hheld
        rw [hnone, ite_self]
    · rw [if_neg ha, if_neg fun h => ha h.1]
      exact hload a

/-- Deleting a pairing takes its tokens out of the table only. -/
theorem recovers_pairingDeleted_iff {s : Tokens} (hs : s.Recovers) (daemonId : String) :
    (s.step (.pairingDeleted daemonId)).Recovers ↔
      ∀ frontendId entry, s.memory.lookup frontendId = some entry → entry.daemonId ≠ daemonId := by
  have hload := recovers_iff.mp hs
  have hafter : ∀ a, (s.step (.pairingDeleted daemonId)).loadable a =
      (s.loadable a).filter fun row => row.daemonId ≠ daemonId := by
    intro a
    rw [Tokens.step, Tokens.loadable, lookup_retain, Tokens.loadable, Option.filter_filter,
      Option.filter_filter]
    exact congrArg (fun p => Option.filter p _) (funext fun row => Bool.and_comm _ _)
  rw [recovers_iff]
  refine forall_congr' fun a => ?_
  rw [hafter, hload, Tokens.step]
  cases s.memory.lookup a with
  | none => simp
  | some entry => simp

/-- A restart keeps what is recovered unless it loads nothing of something. -/
theorem recovers_restart_iff {s : Tokens} (hs : s.Recovers) (queries : Bool) (deletions : ℕ) :
    (s.step (.restart queries deletions)).Recovers ↔
      (queries = true ∧ (corruptFrontendIds s.table).length ≤ deletions ∨
        ∀ frontendId, s.memory.lookup frontendId = none) := by
  have hload := recovers_iff.mp hs
  have htable : ∀ a, (s.step (.restart queries deletions)).loadable a = s.loadable a := by
    intro a
    rw [Tokens.step, Tokens.loadable, loadPushTokens, Tokens.loadable]
    split
    · exact loadable_purge s.table deletions a
    · rfl
  have hmem : ∀ a, (s.step (.restart queries deletions)).memory.lookup a =
      if queries = true ∧ (corruptFrontendIds s.table).length ≤ deletions then s.loadable a
      else none := by
    intro a
    rw [Tokens.step, loadPushTokens]
    dsimp only
    by_cases hq : queries = true
    · rw [if_pos hq]
      by_cases hd : (corruptFrontendIds s.table).length ≤ deletions
      · rw [if_pos hd, if_pos ⟨hq, hd⟩, Option.getD_some, lookup_retain, Tokens.loadable]
      · rw [if_neg hd, if_neg fun h => hd h.2, Option.getD_none, AList.lookup_empty]
    · rw [if_neg hq, if_neg fun h => hq h.1, Option.getD_none, AList.lookup_empty]
  rw [recovers_iff]
  by_cases hok : queries = true ∧ (corruptFrontendIds s.table).length ≤ deletions
  · refine iff_of_true (fun a => ?_) (.inl hok)
    rw [htable, hmem, if_pos hok]
  · rw [or_iff_right hok]
    refine forall_congr' fun a => ?_
    rw [htable, hmem, if_neg hok, hload]

/-- One change keeps the tokens recoverable exactly when it is mirrored. -/
theorem recovers_step_iff {s : Tokens} (hs : s.Recovers) (e : Event) :
    (s.step e).Recovers ↔ s.Mirrors e := by
  cases e with
  | register frontendId entry saves => exact recovers_register_iff hs frontendId entry saves
  | unregister frontendId deletes => exact recovers_unregister_iff hs frontendId deletes
  | useless frontendId deletes =>
    rw [Tokens.step, Tokens.handleUseless, Tokens.Mirrors]
    split
    · exact recovers_unregister_iff hs frontendId deletes
    · next hnot => exact iff_of_true hs fun h => absurd h hnot
  | pairingDeleted daemonId => exact recovers_pairingDeleted_iff hs daemonId
  | restart queries deletions => exact recovers_restart_iff hs queries deletions

theorem recovers_started (table : Dict String TokenEntry) :
    (⟨∅, table⟩ : Tokens).restarted.Recovers := by
  rw [recovers_iff]
  intro frontendId
  rw [lookup_restarted]
  exact loadable_purge table _ frontendId

/-- From any table on, every state of a run comes back after a restart exactly when each
change along it is mirrored. -/
theorem recovers_run_iff (table : Dict String TokenEntry) (events : List Event) :
    (∀ before, before <+: events →
        (runFrom Tokens.step (⟨∅, table⟩ : Tokens).restarted before).Recovers) ↔
      Meets Tokens.step Tokens.Mirrors (⟨∅, table⟩ : Tokens).restarted events := by
  have hbase : ∀ (s : Tokens) (e : Event), True → True := fun _ _ h => h
  have hstep : ∀ (s : Tokens) (e : Event), True → s.Recovers →
      ((s.step e).Recovers ↔ s.Mirrors e) := fun s e _ hs => recovers_step_iff hs e
  exact forall_prefix_iff_meets hbase hstep trivial (recovers_started table) events

end Recovery

/-! ### The notifier inside the daemon -/

section Daemon

/-- The tokens of the daemon, in memory and in the table. -/
def managerTokens (m : Manager) : Tokens := ⟨m.tokens, m.pushTokens⟩

theorem managerTokens_register (m : Manager) (frontendId daemonId sealed platform : String)
    (saves : Bool) :
    managerTokens (m.registerSealedToken frontendId daemonId sealed platform
        (knownPlatform platform && saves)) =
      (managerTokens m).step (.register frontendId ⟨sealed, platform, daemonId⟩ saves) := rfl

theorem managerTokens_drop (m : Manager) (frontendId : String) (deletes : Bool) :
    managerTokens (m.dropToken frontendId deletes) =
      (managerTokens m).step (.useless frontendId deletes) := by
  by_cases hheld : frontendId ∈ m.tokens
  · rw [Manager.dropToken, if_pos hheld, Tokens.step, Tokens.handleUseless, managerTokens,
      managerTokens, if_pos hheld]
    rfl
  · rw [Manager.dropToken, if_neg hheld, Tokens.step, Tokens.handleUseless, managerTokens,
      if_neg hheld]

theorem mem_managerTokens_delete (m : Manager) (daemonId frontendId : String) :
    (managerTokens (m.deletePairing daemonId)).table.lookup frontendId =
      ((managerTokens m).step (.pairingDeleted daemonId)).table.lookup frontendId := by
  have hdoomed : frontendId ∈ (m.pushTokens.entries.filter
        fun e => e.2.daemonId = daemonId).map Sigma.fst ↔
      ∃ row, m.pushTokens.lookup frontendId = some row ∧ row.daemonId = daemonId := by
    rw [List.mem_map]
    constructor
    · rintro ⟨e, he, rfl⟩
      have hkept := List.mem_filter.mp he
      exact ⟨e.2, AList.mem_lookup_iff.mpr hkept.1, by simpa using hkept.2⟩
    · rintro ⟨row, hrow, hdaemon⟩
      have hmem : ⟨frontendId, row⟩ ∈ m.pushTokens.entries := AList.mem_lookup_iff.mp hrow
      exact ⟨_, List.mem_filter.mpr ⟨hmem, by simpa using hdaemon⟩, rfl⟩
  rw [Tokens.step, managerTokens, managerTokens, lookup_retain, Manager.deletePairing]
  dsimp only
  rw [← List.foldl_map (f := Sigma.fst) (g := fun rows id => AList.erase id rows),
    lookup_foldl_erase]
  cases hrow : m.pushTokens.lookup frontendId with
  | none => rw [ite_self, Option.filter_none]
  | some row =>
    rw [hrow] at hdoomed
    by_cases hdaemon : row.daemonId = daemonId
    · rw [if_pos (hdoomed.mpr ⟨row, rfl, hdaemon⟩), Option.filter_some]
      simp [hdaemon]
    · have hkeep : ¬∃ r, some row = some r ∧ r.daemonId = daemonId := by
        rintro ⟨r, hr, hd⟩
        exact hdaemon (Option.some.inj hr ▸ hd)
      rw [if_neg (mt hdoomed.mp hkeep), Option.filter_some]
      simp [hdaemon]

/-- The pushes are the ones that the daemon spreads over its clients. -/
theorem onRecord_requests (toLowercase : List Char → List Char) (m : Manager) (r : RecordInfo) :
    (onRecord toLowercase m.tokens r).map (fun p =>
        (⟨p.frontendId, p.sealed, p.daemonId⟩ : PushRequest)) =
      m.onRecord r.isEvent r.name := by
  by_cases h : ∃ name, r.Eligible name
  · obtain ⟨name, h⟩ := h
    have hgate : (r.isEvent && r.name.any (notifyEvents.contains ·)) = true := by
      rw [h.1, h.2.1]
      exact List.contains_iff_mem.mpr h.2.2
    rw [onRecord_of_eligible toLowercase _ h, List.map_map, Manager.onRecord, if_pos hgate]
    rfl
  · rw [onRecord_of_not_eligible toLowercase _ (not_exists.mp h), Manager.onRecord, if_neg]
    · rfl
    · intro hgate
      rw [Bool.and_eq_true, Option.any_eq_true] at hgate
      obtain ⟨hevent, name, hname, hnotify⟩ := hgate
      exact h ⟨name, hevent, hname, List.contains_iff_mem.mp hnotify⟩

end Daemon

end Teleprompter.PushNotifier
