import Teleprompter.SessionRecords

/-!
# The session store of the app

The store keeps, per session, the highest record number it took, the rows of
the chat and the text of the terminal. A record is taken only if its number
exceeds the highest one so far. A tool call shows as one row: its second
event replaces the row of its first. Decoding of payloads is the platform's.
-/

namespace Teleprompter.AppSessionStore

open FiniteDictionary SessionRecords

/-- What the app reads from the payload of an event record. -/
structure HookEvent where
  hookEventName : String
  toolName : Option String
  toolUseId : Option String
  lastAssistantMessage : Option String
  errorText : Option String
  prompt : Option String
  toolInput : Option String
  toolResult : Option String
  toolSummary : Option String
  toolResultSummary : Option String
  durationMs : Option ℚ
  message : Option String
  permissionTool : Option String
  deriving DecidableEq

/-- One row of the chat. -/
structure ChatItem extends HookEvent where
  seq : ℕ
  sid : String
  ts : ℚ
  deriving DecidableEq

/-- The row with the number of the row it replaces. -/
def ChatItem.adopting (item : ChatItem) (newSeq : ℕ) : ChatItem := { item with seq := newSeq }

/-- Decoders of the platform. -/
structure PayloadDecoders where
  /-- Bytes of a base64 text. -/
  base64 : String → Option Octets
  /-- Text of a byte string; malformed parts are replaced. -/
  utf8 : Octets → String
  /-- Fields of a hook event in JSON. -/
  hookEvent : Octets → Option HookEvent

/-- State of the store that records change. -/
structure SessionStore where
  /-- Rows of the chat, oldest first. -/
  chatItems : Dict String (List ChatItem)
  terminalOutput : Dict String String
  chatRevision : Dict String ℕ
  /-- Rows of tool calls that have not finished, by tool use. -/
  pendingPreById : Dict String (Dict String ℕ)
  /-- Rows of tool calls without an id that have not finished, by tool name. -/
  pendingPreNoIdByName : Dict String (Dict String (List ℕ))
  /-- Highest record number taken. -/
  cursors : Dict String ℕ

/-- A store that took no record. -/
def SessionStore.empty : SessionStore := ⟨∅, ∅, ∅, ∅, ∅, ∅⟩

/-- The highest record number taken, or zero. -/
def SessionStore.cursor (store : SessionStore) (sid : String) : ℕ :=
  (store.cursors.lookup sid).getD 0

variable (decoders : PayloadDecoders)

/-- Bytes of a terminal record. -/
def ioData (rec : SessionRec) : Option Octets := decoders.base64 rec.d

/-- Text of a terminal record. -/
def ioText (rec : SessionRec) : Option String := (ioData decoders rec).map decoders.utf8

/-- The chat row of an event record. -/
def chatItem (rec : SessionRec) : Option ChatItem :=
  ((decoders.base64 rec.d).bind decoders.hookEvent).map fun event =>
    { event with seq := rec.seq, sid := rec.sid, ts := rec.ts }

/-- Consume the pending row that the end of a tool call replaces: the one of
its id, or without an id the oldest one of its name. -/
def SessionStore.takePendingPre (store : SessionStore) (sid : String) (post : ChatItem) :
    SessionStore × Option ℕ :=
  match post.toolUseId with
  | some id =>
    match store.pendingPreById.lookup sid with
    | none => (store, none)
    | some pending =>
      ({ store with pendingPreById := store.pendingPreById.insert sid (pending.erase id) },
        pending.lookup id)
  | none =>
    match post.toolName, store.pendingPreNoIdByName.lookup sid with
    | some name, some pending =>
      match pending.lookup name with
      | some (idx :: queue) =>
        ({ store with
          pendingPreNoIdByName :=
            store.pendingPreNoIdByName.insert sid (pending.insert name queue) }, some idx)
      | _ => (store, none)
    | _, _ => (store, none)

/-- Remember the row of a tool call that has just started. -/
def SessionStore.addPendingPre (store : SessionStore) (sid : String) (item : ChatItem)
    (idx : ℕ) : SessionStore :=
  match item.toolUseId, item.toolName with
  | some id, _ =>
    let pending := (store.pendingPreById.lookup sid).getD ∅
    { store with pendingPreById := store.pendingPreById.insert sid (pending.insert id idx) }
  | none, some name =>
    let pending := (store.pendingPreNoIdByName.lookup sid).getD ∅
    let queue := (pending.lookup name).getD []
    { store with
      pendingPreNoIdByName :=
        store.pendingPreNoIdByName.insert sid (pending.insert name (queue ++ [idx])) }
  | none, none => store

/-- Replace the row at an index, keeping its number. -/
def replaceRow (items : List ChatItem) (idx : ℕ) (item : ChatItem) : List ChatItem :=
  items.modify idx fun old => item.adopting old.seq

/-- Show an event in the chat. -/
def SessionStore.applyEvent (store : SessionStore) (sid : String) (item : ChatItem) :
    SessionStore :=
  let items := (store.chatItems.lookup sid).getD []
  let shown : SessionStore × List ChatItem :=
    if item.hookEventName = "PreToolUse" then
      (store.addPendingPre sid item items.length, items ++ [item])
    else if item.hookEventName = "PostToolUse" then
      match store.takePendingPre sid item with
      | (taken, some idx) => (taken, replaceRow items idx item)
      | (taken, none) => (taken, items ++ [item])
    else (store, items ++ [item])
  { shown.1 with
    chatItems := shown.1.chatItems.insert sid shown.2
    chatRevision := shown.1.chatRevision.insert sid
      ((shown.1.chatRevision.lookup sid).getD 0 + 1) }

/-- Show output in the terminal. -/
def SessionStore.applyIo (store : SessionStore) (sid text : String) : SessionStore :=
  { store with
    terminalOutput := store.terminalOutput.insert sid
      ((store.terminalOutput.lookup sid).getD "" ++ text) }

/-- Take one record, unless its number was reached before. -/
def SessionStore.appendRec (store : SessionStore) (rec : SessionRec) : SessionStore :=
  if rec.seq ≤ store.cursor rec.sid then store
  else
    let advanced := { store with cursors := store.cursors.insert rec.sid rec.seq }
    if rec.k = "event" then
      match chatItem decoders rec with
      | none => advanced
      | some item => advanced.applyEvent rec.sid item
    else if rec.k = "io" then
      match ioText decoders rec with
      | none => advanced
      | some text => advanced.applyIo rec.sid text
    else advanced

/-- Take the records of a batch in order. -/
def SessionStore.appendBatch (store : SessionStore) (recs : List SessionRec) : SessionStore :=
  recs.foldl (SessionStore.appendRec decoders) store

/-- Remembering a tool call moves no cursor. -/
theorem SessionStore.addPendingPre_cursors (store : SessionStore) (sid : String)
    (item : ChatItem) (idx : ℕ) : (store.addPendingPre sid item idx).cursors = store.cursors := by
  unfold SessionStore.addPendingPre
  split <;> rfl

/-- Finding the row of a tool call moves no cursor. -/
theorem SessionStore.takePendingPre_cursors (store : SessionStore) (sid : String)
    (post : ChatItem) : (store.takePendingPre sid post).1.cursors = store.cursors := by
  unfold SessionStore.takePendingPre
  split
  · split <;> rfl
  · split
    · split <;> rfl
    · rfl

/-- Showing an event moves no cursor. -/
theorem SessionStore.applyEvent_cursors (store : SessionStore) (sid : String) (item : ChatItem) :
    (store.applyEvent sid item).cursors = store.cursors := by
  unfold SessionStore.applyEvent
  dsimp only
  by_cases hpre : item.hookEventName = "PreToolUse"
  · rw [if_pos hpre]
    exact store.addPendingPre_cursors sid item _
  · rw [if_neg hpre]
    by_cases hpost : item.hookEventName = "PostToolUse"
    · have htaken := store.takePendingPre_cursors sid item
      rw [if_pos hpost]
      cases hcase : store.takePendingPre sid item with
      | mk taken idx =>
        rw [hcase] at htaken
        cases idx with
        | none => exact htaken
        | some idx => exact htaken
    · rw [if_neg hpost]

/-- The cursor after a record is the higher of the two numbers. -/
theorem SessionStore.cursor_appendRec (store : SessionStore) (rec : SessionRec) (sid : String) :
    (store.appendRec decoders rec).cursor sid =
      if sid = rec.sid then max (store.cursor sid) rec.seq else store.cursor sid := by
  by_cases hseq : rec.seq ≤ store.cursor rec.sid
  · rw [SessionStore.appendRec, if_pos hseq]
    split
    · next h =>
      rw [h]
      exact (Nat.max_eq_left hseq).symm
    · rfl
  · have hcursors : (store.appendRec decoders rec).cursors =
        store.cursors.insert rec.sid rec.seq := by
      rw [SessionStore.appendRec, if_neg hseq]
      dsimp only
      by_cases hevent : rec.k = "event"
      · rw [if_pos hevent]
        cases chatItem decoders rec with
        | none => rfl
        | some item => exact SessionStore.applyEvent_cursors _ rec.sid item
      · rw [if_neg hevent]
        by_cases hio : rec.k = "io"
        · rw [if_pos hio]
          cases ioText decoders rec with
          | none => rfl
          | some text => rfl
        · rw [if_neg hio]
    rw [SessionStore.cursor, hcursors, lookup_insert_eq]
    split
    · next h =>
      rw [h, Option.getD_some]
      omega
    · rfl

/-- Records never lower a cursor. -/
theorem SessionStore.le_cursor_appendRec (store : SessionStore) (rec : SessionRec)
    (sid : String) : store.cursor sid ≤ (store.appendRec decoders rec).cursor sid := by
  rw [store.cursor_appendRec decoders rec sid]
  split <;> omega

end Teleprompter.AppSessionStore
