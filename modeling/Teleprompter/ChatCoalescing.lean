import Teleprompter.AppSessionStore
import Teleprompter.ListPositions
import Teleprompter.StepRuns

/-!
# The cards of tool calls

A tool call shows as one card. Its first event appends a row and notes where;
its second event replaces the row and drops the note. Calls with an id are noted
by it, and only the latest call of an id is. Calls without one wait in a queue
by tool name. A record is taken once, by its number; removing a session forgets
its numbers along with its rows.
-/

namespace Teleprompter.ChatCoalescing

open FiniteDictionary ListPositions SessionRecords AppSessionStore StepRuns

section Model

/-- Forget a session. -/
def removeSession (store : SessionStore) (sid : String) : SessionStore :=
  ⟨store.chatItems.erase sid, store.terminalOutput.erase sid, store.chatRevision.erase sid,
    store.pendingPreById.erase sid, store.pendingPreNoIdByName.erase sid, store.cursors.erase sid⟩

/-- What the app does to the store. -/
inductive ChatEvent where
  | record (rec : SessionRec)
  | batch (sid : String) (recs : List SessionRec)
  | remove (sids : List String)

/-- The store, and the records that were delivered since their session was removed. -/
structure ChatLog where
  /-- The store. -/
  store : SessionStore
  /-- The records, whether or not they were taken. -/
  delivered : List SessionRec

/-- One event. -/
def chatStep (decoders : PayloadDecoders) (log : ChatLog) : ChatEvent → ChatLog
  | .record rec => ⟨log.store.appendRec decoders rec, log.delivered ++ [rec]⟩
  | .batch _ recs => ⟨log.store.appendBatch decoders recs, log.delivered ++ recs⟩
  | .remove sids =>
    ⟨sids.foldl removeSession log.store, log.delivered.filter fun rec => rec.sid ∉ sids⟩

/-- The app has just been launched, and then took the events. -/
def chatAfter (decoders : PayloadDecoders) (events : List ChatEvent) : ChatLog :=
  runFrom (chatStep decoders) ⟨SessionStore.empty, []⟩ events

end Model

section Statements

/-- Rows of a session, and what is noted of them. -/
structure Chat where
  items : List ChatItem
  /-- Rows of tool calls that have not finished, by tool use. -/
  byId : Dict String ℕ
  /-- Rows of tool calls without an id that have not finished, by tool name. -/
  byName : Dict String (List ℕ)

/-- What a store holds of a session. -/
def chatOf (store : SessionStore) (sid : String) : Chat :=
  ⟨(store.chatItems.lookup sid).getD [], (store.pendingPreById.lookup sid).getD ∅,
    (store.pendingPreNoIdByName.lookup sid).getD ∅⟩

/-- An unfinished tool call with an id. -/
def IsCall (id : String) (row : ChatItem) : Prop :=
  row.hookEventName = "PreToolUse" ∧ row.toolUseId = some id

/-- A tool call with an id, or the end of one. -/
def OfCall (id : String) (row : ChatItem) : Prop :=
  (row.hookEventName = "PreToolUse" ∨ row.hookEventName = "PostToolUse") ∧ row.toolUseId = some id

/-- An unfinished tool call without an id. -/
def IsNamedCall (name : String) (row : ChatItem) : Prop :=
  row.hookEventName = "PreToolUse" ∧ row.toolUseId = none ∧ row.toolName = some name

/-- What is noted points at rows of unfinished tool calls, at each once. -/
structure PendingSound (chat : Chat) : Prop where
  byId : ∀ id idx, chat.byId.lookup id = some idx →
    ∃ row, chat.items[idx]? = some row ∧ IsCall id row
  byName : ∀ name queue, chat.byName.lookup name = some queue → ∀ idx ∈ queue,
    ∃ row, chat.items[idx]? = some row ∧ IsNamedCall name row
  ids_apart : ∀ id id' idx, chat.byId.lookup id = some idx → chat.byId.lookup id' = some idx →
    id = id'
  once : ∀ name queue, chat.byName.lookup name = some queue → queue.Nodup
  names_apart : ∀ name name' queue queue' idx, chat.byName.lookup name = some queue →
    chat.byName.lookup name' = some queue' → idx ∈ queue → idx ∈ queue' → name = name'
  apart : ∀ id name queue idx, chat.byId.lookup id = some idx →
    chat.byName.lookup name = some queue → idx ∉ queue

/-- The row that the end of a tool call belongs to: with an id that of the latest tool
call of the id, unless that is finished; without one the oldest unfinished of the name. -/
def FoldsInto (items : List ChatItem) (post : ChatItem) (idx : ℕ) : Prop :=
  match post.toolUseId, post.toolName with
  | some id, _ => LastAt (OfCall id) (IsCall id) items idx
  | none, some name => (∃ row, items[idx]? = some row ∧ IsNamedCall name row) ∧
      ∀ j row, j < idx → items[j]? = some row → ¬IsNamedCall name row
  | none, none => False

/-- The end of a tool call replaces the row it belongs to, or is a row of its own. -/
def Folds (items : List ChatItem) (post : ChatItem) (items' : List ChatItem) : Prop :=
  (∃ idx, FoldsInto items post idx ∧ items' = replaceRow items idx post) ∨
    (∀ idx, ¬FoldsInto items post idx) ∧ items' = items ++ [post]

/-- What holds of the cards at any time. -/
structure Coalesced (decoders : PayloadDecoders) (log : ChatLog) : Prop where
  pending : ∀ sid, PendingSound (chatOf log.store sid)
  ascending : ∀ sid, ((chatOf log.store sid).items.map ChatItem.seq).Pairwise (· < ·)
  /-- The next record, if it is the end of a tool call, folds into its row. -/
  folds : ∀ rec item, log.store.cursor rec.sid < rec.seq → rec.k = "event" →
    chatItem decoders rec = some item → item.hookEventName = "PostToolUse" →
    Folds (chatOf log.store rec.sid).items item
      (chatOf (log.store.appendRec decoders rec) rec.sid).items
  /-- Delivering records again changes nothing. -/
  again : ∀ recs : List SessionRec, (∀ rec ∈ recs, rec ∈ log.delivered) →
    log.store.appendBatch decoders recs = log.store

end Statements

section Chats

variable {chat : Chat} {item : ChatItem}

/-- Note a tool call that has just started. -/
def Chat.remember (chat : Chat) (item : ChatItem) (idx : ℕ) : Chat :=
  match item.toolUseId, item.toolName with
  | some id, _ => { chat with byId := chat.byId.insert id idx }
  | none, some name =>
    { chat with byName := chat.byName.insert name ((chat.byName.lookup name).getD [] ++ [idx]) }
  | none, none => chat

/-- Drop the note of the row that the end of a tool call replaces. -/
def Chat.take (chat : Chat) (post : ChatItem) : Chat × Option ℕ :=
  match post.toolUseId, post.toolName with
  | some id, _ => ({ chat with byId := chat.byId.erase id }, chat.byId.lookup id)
  | none, some name =>
    match (chat.byName.lookup name).getD [] with
    | idx :: queue => ({ chat with byName := chat.byName.insert name queue }, some idx)
    | [] => (chat, none)
  | none, none => (chat, none)

/-- Show an event. -/
def Chat.show (chat : Chat) (item : ChatItem) : Chat :=
  if item.hookEventName = "PreToolUse" then
    { chat.remember item chat.items.length with items := chat.items ++ [item] }
  else if item.hookEventName = "PostToolUse" then
    match chat.take item with
    | (taken, some idx) => { taken with items := replaceRow chat.items idx item }
    | (taken, none) => { taken with items := chat.items ++ [item] }
  else { chat with items := chat.items ++ [item] }

/-- A change to one session. -/
theorem chatOf_of {store store' : SessionStore} {sid : String} {chat : Chat}
    (hself : chatOf store' sid = chat)
    (hothers : ∀ other, other ≠ sid → chatOf store' other = chatOf store other) (other : String) :
    chatOf store' other = if other = sid then chat else chatOf store other := by
  split
  · rename_i h
    rw [h, hself]
  · rename_i h
    exact hothers other h

/-- New notes by tool use. -/
theorem chatOf_setById (store : SessionStore) (sid other : String) (byId : Dict String ℕ) :
    chatOf { store with pendingPreById := store.pendingPreById.insert sid byId } other =
      if other = sid then { chatOf store sid with byId } else chatOf store other := by
  refine chatOf_of ?_ (fun other h => ?_) other
  · rw [chatOf, AList.lookup_insert]
    rfl
  · rw [chatOf, AList.lookup_insert_ne h]
    rfl

/-- New notes by tool name. -/
theorem chatOf_setByName (store : SessionStore) (sid other : String)
    (byName : Dict String (List ℕ)) :
    chatOf { store with
        pendingPreNoIdByName := store.pendingPreNoIdByName.insert sid byName } other =
      if other = sid then { chatOf store sid with byName } else chatOf store other := by
  refine chatOf_of ?_ (fun other h => ?_) other
  · rw [chatOf, AList.lookup_insert]
    rfl
  · rw [chatOf, AList.lookup_insert_ne h]
    rfl

/-- New rows. -/
theorem chatOf_setItems (store : SessionStore) (sid other : String) (items : List ChatItem)
    (revisions : Dict String ℕ) :
    chatOf { store with
        chatItems := store.chatItems.insert sid items
        chatRevision := revisions } other =
      if other = sid then { chatOf store sid with items } else chatOf store other := by
  refine chatOf_of ?_ (fun other h => ?_) other
  · rw [chatOf, AList.lookup_insert]
    rfl
  · rw [chatOf, AList.lookup_insert_ne h]
    rfl

/-- Nothing new. -/
theorem chatOf_same (store : SessionStore) (sid other : String) {chat : Chat}
    (h : chatOf store sid = chat) :
    chatOf store other = if other = sid then chat else chatOf store other :=
  chatOf_of h (fun _ _ => rfl) other

theorem chatOf_addPendingPre (store : SessionStore) (sid other : String) (item : ChatItem)
    (idx : ℕ) : chatOf (store.addPendingPre sid item idx) other =
      if other = sid then (chatOf store sid).remember item idx else chatOf store other := by
  unfold SessionStore.addPendingPre Chat.remember
  cases item.toolUseId with
  | some id => exact chatOf_setById store sid other _
  | none =>
    cases item.toolName with
    | some name => exact chatOf_setByName store sid other _
    | none => exact chatOf_same store sid other rfl

theorem chatOf_takePendingPre (store : SessionStore) (sid other : String) (post : ChatItem) :
    chatOf (store.takePendingPre sid post).1 other =
        (if other = sid then ((chatOf store sid).take post).1 else chatOf store other) ∧
      (store.takePendingPre sid post).2 = ((chatOf store sid).take post).2 := by
  unfold SessionStore.takePendingPre Chat.take
  cases post.toolUseId with
  | some id =>
    cases hpending : store.pendingPreById.lookup sid with
    | none =>
      have hnil : (chatOf store sid).byId = ∅ := by
        rw [chatOf, hpending]
        rfl
      dsimp only
      rw [hnil]
      refine ⟨chatOf_same store sid other ?_, rfl⟩
      rw [chatOf, hpending]
      rfl
    | some pending =>
      have hbyId : (chatOf store sid).byId = pending := by
        rw [chatOf, hpending]
        rfl
      dsimp only
      rw [hbyId]
      exact ⟨chatOf_setById store sid other _, rfl⟩
  | none =>
    cases post.toolName with
    | none => exact ⟨chatOf_same store sid other rfl, rfl⟩
    | some name =>
      cases hpending : store.pendingPreNoIdByName.lookup sid with
      | none =>
        have hqueue : ((chatOf store sid).byName.lookup name).getD [] = [] := by
          rw [chatOf, hpending]
          rfl
        dsimp only
        rw [hqueue]
        exact ⟨chatOf_same store sid other rfl, rfl⟩
      | some pending =>
        have hname : (chatOf store sid).byName = pending := by
          rw [chatOf, hpending]
          rfl
        dsimp only
        rw [hname]
        cases pending.lookup name with
        | none => exact ⟨chatOf_same store sid other rfl, rfl⟩
        | some queue =>
          cases queue with
          | nil => exact ⟨chatOf_same store sid other rfl, rfl⟩
          | cons idx queue => exact ⟨chatOf_setByName store sid other _, rfl⟩

/-- The store shows an event in the session of the event. -/
theorem chatOf_applyEvent (store : SessionStore) (sid other : String) (item : ChatItem) :
    chatOf (store.applyEvent sid item) other =
      if other = sid then (chatOf store sid).show item else chatOf store other := by
  have hset : ∀ (shown : SessionStore) (items : List ChatItem) (revisions : Dict String ℕ)
      (chat : Chat), (∀ other, chatOf shown other = if other = sid then chat else chatOf store other) →
      chatOf { shown with
        chatItems := shown.chatItems.insert sid items
        chatRevision := revisions } other =
        if other = sid then { chat with items } else chatOf store other := by
    intro shown items revisions chat hshown
    rw [chatOf_setItems, hshown sid, if_pos rfl, hshown other]
    split
    · rfl
    · rfl
  unfold SessionStore.applyEvent Chat.show
  dsimp only
  split
  · exact hset _ _ _ _ fun other => chatOf_addPendingPre store sid other item _
  · split
    · have htaken := fun other => chatOf_takePendingPre store sid other item
      cases hstore : store.takePendingPre sid item with
      | mk shown found =>
        cases hchat : (chatOf store sid).take item with
        | mk chat found' =>
          rw [hstore, hchat] at htaken
          obtain rfl : found = found' := (htaken sid).2
          cases found with
          | none => exact hset _ _ _ _ fun other => (htaken other).1
          | some idx => exact hset _ _ _ _ fun other => (htaken other).1
    · exact hset _ _ _ _ fun other => chatOf_same store sid other rfl

/-- The event that a record shows, if it shows one. -/
def shownItem (decoders : PayloadDecoders) (rec : SessionRec) : Option ChatItem :=
  if rec.k = "event" then chatItem decoders rec else none

/-- A record that is taken shows its event. -/
theorem chatOf_appendRec (decoders : PayloadDecoders) (store : SessionStore) (rec : SessionRec)
    (sid : String) : chatOf (store.appendRec decoders rec) sid =
      if sid = rec.sid ∧ store.cursor rec.sid < rec.seq then
        ((shownItem decoders rec).map (chatOf store sid).show).getD (chatOf store sid)
      else chatOf store sid := by
  rw [SessionStore.appendRec, shownItem]
  split
  · rename_i hold
    rw [if_neg fun h => Nat.not_lt.mpr hold h.2]
  · rename_i hnew
    have htaken : (sid = rec.sid ∧ store.cursor rec.sid < rec.seq) ↔ sid = rec.sid :=
      and_iff_left (Nat.lt_of_not_le hnew)
    simp only [htaken]
    split
    · cases chatItem decoders rec with
      | none => exact (ite_self _).symm
      | some item =>
        dsimp only [Option.map_some, Option.getD_some]
        rw [chatOf_applyEvent]
        split
        · rename_i h
          rw [h]
          rfl
        · rfl
    · split
      · cases ioText decoders rec with
        | none => exact (ite_self _).symm
        | some text => exact (ite_self _).symm
      · exact (ite_self _).symm

theorem chatOf_removeSession (store : SessionStore) (sid other : String) :
    chatOf (removeSession store sid) other =
      if other = sid then ⟨[], ∅, ∅⟩ else chatOf store other := by
  unfold chatOf removeSession
  dsimp only
  rw [lookup_erase_eq, lookup_erase_eq, lookup_erase_eq]
  split
  · rfl
  · rfl

theorem cursor_removeSession (store : SessionStore) (sid other : String) :
    (removeSession store sid).cursor other = if other = sid then 0 else store.cursor other := by
  unfold SessionStore.cursor removeSession
  dsimp only
  rw [lookup_erase_eq]
  split
  · rfl
  · rfl

end Chats

section Notes

variable {chat : Chat} {item : ChatItem}

/-- The notes are where the unfinished calls are. -/
structure Noted (chat : Chat) : Prop where
  latest : ∀ id idx, chat.byId.lookup id = some idx ↔ LastAt (OfCall id) (IsCall id) chat.items idx
  queued : ∀ name, Positions (IsNamedCall name) chat.items ((chat.byName.lookup name).getD [])

theorem ofCall_of_isCall (id : String) (row : ChatItem) (h : IsCall id row) : OfCall id row :=
  ⟨.inl h.1, h.2⟩

theorem replaceRow_eq_set {items : List ChatItem} {idx : ℕ} {old : ChatItem}
    (hold : items[idx]? = some old) (item : ChatItem) :
    replaceRow items idx item = items.set idx (item.adopting old.seq) := by
  rw [replaceRow, List.modify_eq_set_getElem?, hold]
  rfl

theorem not_ofCall_of_ne {id id' : String} {row : ChatItem} (h : row.toolUseId = some id)
    (hne : id' ≠ id) : ¬OfCall id' row :=
  fun hcall => hne (Option.some.inj (hcall.2.symm.trans h))

/-- A row of another kind leaves the notes right. -/
theorem Noted.append_other (h : Noted chat) (hcall : ∀ id, ¬OfCall id item)
    (hnamed : ∀ name, ¬IsNamedCall name item) : Noted { chat with items := chat.items ++ [item] } :=
  ⟨fun id idx => (h.latest id idx).trans (lastAt_concat_of_not (hcall id) (ofCall_of_isCall id)).symm,
    fun name => (h.queued name).concat_of_not (hnamed name)⟩

/-- A call that starts is noted. -/
theorem Noted.started (h : Noted chat) (hpre : item.hookEventName = "PreToolUse") :
    Noted { chat.remember item chat.items.length with items := chat.items ++ [item] } := by
  unfold Chat.remember
  cases hid : item.toolUseId with
  | some id =>
    refine ⟨fun id' idx => ?_, fun name => (h.queued name).concat_of_not ?_⟩
    · dsimp only
      rw [lookup_insert_eq]
      by_cases hsame : id' = id
      · rw [if_pos hsame, hsame, lastAt_concat_of_pos ⟨hpre, hid⟩ (ofCall_of_isCall id),
          Option.some.injEq]
        exact eq_comm
      · rw [if_neg hsame, lastAt_concat_of_not (not_ofCall_of_ne hid hsame) (ofCall_of_isCall id')]
        exact h.latest id' idx
    · rintro ⟨-, hnone, -⟩
      exact Option.some_ne_none id (hid.symm.trans hnone)
  | none =>
    have hother : ∀ id, ¬OfCall id item := fun id hcall =>
      (Option.some_ne_none id).symm (hid.symm.trans hcall.2)
    cases hname : item.toolName with
    | some name =>
      refine ⟨fun id idx => (h.latest id idx).trans
        (lastAt_concat_of_not (hother id) (ofCall_of_isCall id)).symm, fun name' => ?_⟩
      dsimp only
      rw [lookup_insert_eq]
      by_cases hsame : name' = name
      · rw [if_pos hsame, hsame]
        exact (h.queued name).concat ⟨hpre, hid, hname⟩
      · rw [if_neg hsame]
        refine (h.queued name').concat_of_not ?_
        rintro ⟨-, -, heq⟩
        exact hsame (Option.some.inj (heq.symm.trans hname))
    | none =>
      exact h.append_other hother fun name hnamed =>
        (Option.some_ne_none name).symm (hname.symm.trans hnamed.2.2)

/-- The end of a call with an id finds the latest call of the id, if that is unfinished. -/
theorem Noted.finished (h : Noted chat) (hpost : item.hookEventName = "PostToolUse") {id : String}
    (hid : item.toolUseId = some id) :
    Noted (chat.show item) ∧ Folds chat.items item (chat.show item).items := by
  have hnotPre : item.hookEventName ≠ "PreToolUse" := by
    rw [hpost]
    decide
  have htake : chat.take item =
      ({ chat with byId := chat.byId.erase id }, chat.byId.lookup id) := by
    rw [Chat.take, hid]
  have hof : ∀ seq, OfCall id (item.adopting seq) ∧ ¬IsCall id (item.adopting seq) := fun seq =>
    ⟨⟨.inr hpost, hid⟩, fun hcall => hnotPre hcall.1⟩
  have hnamed : ∀ seq name, ¬IsNamedCall name (item.adopting seq) := fun seq name hcall =>
    hnotPre hcall.1
  rw [Chat.show, if_neg hnotPre, if_pos hpost, htake]
  cases hlookup : chat.byId.lookup id with
  | none =>
    have hnone : ∀ idx, ¬LastAt (OfCall id) (IsCall id) chat.items idx := fun idx hlast =>
      Option.some_ne_none idx (((h.latest id idx).mpr hlast).symm.trans hlookup)
    refine ⟨⟨fun id' idx => ?_, fun name => (h.queued name).concat_of_not (hnamed item.seq name)⟩,
      .inr ⟨fun idx hfolds => ?_, rfl⟩⟩
    · dsimp only
      rw [lookup_erase_eq]
      by_cases hsame : id' = id
      · rw [if_pos hsame, hsame]
        exact iff_of_false (Option.some_ne_none idx).symm
          (not_lastAt_concat (hof item.seq).1 (hof item.seq).2)
      · rw [if_neg hsame, lastAt_concat_of_not (not_ofCall_of_ne hid hsame) (ofCall_of_isCall id')]
        exact h.latest id' idx
    · rw [FoldsInto, hid] at hfolds
      exact hnone idx hfolds
  | some idx =>
    have hlast := (h.latest id idx).mp hlookup
    obtain ⟨old, hold, hcall⟩ := hlast.1
    dsimp only
    refine ⟨⟨fun id' idx' => ?_, fun name => ?_⟩, .inl ⟨idx, ?_, rfl⟩⟩
    · dsimp only
      rw [replaceRow_eq_set hold, lookup_erase_eq]
      by_cases hsame : id' = id
      · rw [if_pos hsame, hsame]
        exact iff_of_false (Option.some_ne_none idx').symm
          (not_lastAt_set hlast (ofCall_of_isCall id) (hof old.seq).1 (hof old.seq).2 idx')
      · have hnew : ¬OfCall id' (item.adopting old.seq) := not_ofCall_of_ne hid hsame
        rw [if_neg hsame, lastAt_set_of_not hold (not_ofCall_of_ne hcall.2 hsame) hnew
          (ofCall_of_isCall id')]
        exact h.latest id' idx'
    · dsimp only
      rw [replaceRow_eq_set hold]
      refine (h.queued name).set_of_not hold (fun hnone => ?_) (hnamed old.seq name)
      exact Option.some_ne_none id (hcall.2.symm.trans hnone.2.1)
    · rw [FoldsInto, hid]
      exact hlast

/-- The end of a call without an id finds the oldest unfinished one of its name. -/
theorem Noted.finished_named (h : Noted chat) (hpost : item.hookEventName = "PostToolUse")
    (hid : item.toolUseId = none) :
    Noted (chat.show item) ∧ Folds chat.items item (chat.show item).items := by
  have hnotPre : item.hookEventName ≠ "PreToolUse" := by
    rw [hpost]
    decide
  have hcall : ∀ id seq, ¬OfCall id (item.adopting seq) := fun id seq hcall =>
    (Option.some_ne_none id).symm (hid.symm.trans hcall.2)
  have hnamed : ∀ seq name, ¬IsNamedCall name (item.adopting seq) := fun seq name hcall =>
    hnotPre hcall.1
  have happend : Noted { chat with items := chat.items ++ [item] } :=
    h.append_other (fun id => hcall id item.seq) (hnamed item.seq)
  rw [Chat.show, if_neg hnotPre, if_pos hpost, Chat.take, hid]
  cases hname : item.toolName with
  | none =>
    refine ⟨happend, .inr ⟨fun idx hfolds => ?_, rfl⟩⟩
    rw [FoldsInto, hid, hname] at hfolds
    exact hfolds
  | some name =>
    have hqueued := h.queued name
    dsimp only
    cases hqueue : (chat.byName.lookup name).getD [] with
    | nil =>
      rw [hqueue] at hqueued
      refine ⟨happend, .inr ⟨fun idx hfolds => ?_, rfl⟩⟩
      rw [FoldsInto, hid, hname] at hfolds
      exact List.not_mem_nil ((hqueued.mem_iff idx).mpr hfolds.1)
    | cons idx queue =>
      rw [hqueue] at hqueued
      obtain ⟨old, hold, hopen⟩ := (hqueued.mem_iff idx).mp List.mem_cons_self
      dsimp only
      refine ⟨⟨fun id idx' => ?_, fun name' => ?_⟩, .inl ⟨idx, ?_, rfl⟩⟩
      · dsimp only
        rw [replaceRow_eq_set hold, lastAt_set_of_not hold (fun hof => ?_) (hcall id old.seq)
          (ofCall_of_isCall id)]
        · exact h.latest id idx'
        · exact Option.some_ne_none id (hof.2.symm.trans hopen.2.1)
      · dsimp only
        rw [replaceRow_eq_set hold, lookup_insert_eq]
        by_cases hsame : name' = name
        · rw [if_pos hsame, hsame]
          exact hqueued.set_head (hnamed old.seq name)
        · rw [if_neg hsame]
          refine (h.queued name').set_of_not hold (fun hopen' => ?_) (hnamed old.seq name')
          exact hsame (Option.some.inj (hopen'.2.2.symm.trans hopen.2.2))
      · rw [FoldsInto, hid, hname]
        refine ⟨⟨old, hold, hopen⟩, fun j row hj hrow hopen' => ?_⟩
        rcases List.mem_cons.mp ((hqueued.mem_iff j).mpr ⟨row, hrow, hopen'⟩) with rfl | hlater
        · exact lt_irrefl _ hj
        · exact lt_asymm hj ((List.pairwise_cons.mp hqueued.sorted).1 j hlater)

/-- Showing an event keeps the notes right, and the end of a call folds. -/
theorem Noted.show (h : Noted chat) (item : ChatItem) : Noted (chat.show item) ∧
    (item.hookEventName = "PostToolUse" → Folds chat.items item (chat.show item).items) := by
  by_cases hpre : item.hookEventName = "PreToolUse"
  · refine ⟨?_, fun hpost => ?_⟩
    · rw [Chat.show, if_pos hpre]
      exact h.started hpre
    · rw [hpre] at hpost
      exact absurd hpost (by decide)
  · by_cases hpost : item.hookEventName = "PostToolUse"
    · cases hid : item.toolUseId with
      | some id =>
        obtain ⟨hnoted, hfolds⟩ := h.finished hpost hid
        exact ⟨hnoted, fun _ => hfolds⟩
      | none =>
        obtain ⟨hnoted, hfolds⟩ := h.finished_named hpost hid
        exact ⟨hnoted, fun _ => hfolds⟩
    · refine ⟨?_, fun h => absurd h hpost⟩
      rw [Chat.show, if_neg hpre, if_neg hpost]
      exact h.append_other (fun id hcall => hcall.1.elim hpre hpost) (fun name hcall => hpre hcall.1)

/-- Notes that are right are sound. -/
theorem Noted.pendingSound (h : Noted chat) : PendingSound chat := by
  have hpositions : ∀ name queue, chat.byName.lookup name = some queue →
      Positions (IsNamedCall name) chat.items queue := by
    intro name queue hqueue
    have hqueued := h.queued name
    rw [hqueue] at hqueued
    exact hqueued
  refine ⟨fun id idx hidx => ((h.latest id idx).mp hidx).1,
    fun name queue hqueue idx hidx => ((hpositions name queue hqueue).mem_iff idx).mp hidx, ?_,
    fun name queue hqueue => (hpositions name queue hqueue).sorted.imp ne_of_lt, ?_, ?_⟩
  · intro id id' idx hidx hidx'
    obtain ⟨row, hrow, hcall⟩ := ((h.latest id idx).mp hidx).1
    obtain ⟨row', hrow', hcall'⟩ := ((h.latest id' idx).mp hidx').1
    obtain rfl := Option.some.inj (hrow.symm.trans hrow')
    exact Option.some.inj (hcall.2.symm.trans hcall'.2)
  · intro name name' queue queue' idx hqueue hqueue' hidx hidx'
    obtain ⟨row, hrow, hcall⟩ := ((hpositions name queue hqueue).mem_iff idx).mp hidx
    obtain ⟨row', hrow', hcall'⟩ := ((hpositions name' queue' hqueue').mem_iff idx).mp hidx'
    obtain rfl := Option.some.inj (hrow.symm.trans hrow')
    exact Option.some.inj (hcall.2.2.symm.trans hcall'.2.2)
  · intro id name queue idx hidx hqueue hmem
    obtain ⟨row, hrow, hcall⟩ := ((h.latest id idx).mp hidx).1
    obtain ⟨row', hrow', hcall'⟩ := ((hpositions name queue hqueue).mem_iff idx).mp hmem
    obtain rfl := Option.some.inj (hrow.symm.trans hrow')
    exact Option.some_ne_none id (hcall.2.symm.trans hcall'.2.1)

end Notes

section Runs

variable {decoders : PayloadDecoders} {store : SessionStore} {log : ChatLog}

/-- A row that is replaced keeps its number. -/
theorem seqs_replaceRow (items : List ChatItem) (idx : ℕ) (item : ChatItem) :
    (replaceRow items idx item).map ChatItem.seq = items.map ChatItem.seq := by
  refine List.ext_getElem? fun i => ?_
  rw [List.getElem?_map, List.getElem?_map, replaceRow, List.getElem?_modify]
  cases items[i]? with
  | none => rfl
  | some old =>
    dsimp only [Option.map_eq_map, Option.map_some]
    split
    · rfl
    · rfl

/-- An event adds its own number, or none. -/
theorem seqs_show (chat : Chat) (item : ChatItem) :
    (chat.show item).items.map ChatItem.seq = chat.items.map ChatItem.seq ∨
      (chat.show item).items.map ChatItem.seq = chat.items.map ChatItem.seq ++ [item.seq] := by
  have happend : (chat.items ++ [item]).map ChatItem.seq = chat.items.map ChatItem.seq ++ [item.seq] :=
    List.map_append
  unfold Chat.show
  split
  · exact .inr happend
  · split
    · cases chat.take item with
      | mk taken found =>
        cases found with
        | some idx => exact .inl (seqs_replaceRow chat.items idx item)
        | none => exact .inr happend
    · exact .inr happend

/-- What every store keeps of each session. -/
structure SessionKept (store : SessionStore) (sid : String) : Prop where
  noted : Noted (chatOf store sid)
  ascending : ((chatOf store sid).items.map ChatItem.seq).Pairwise (· < ·)
  below : ∀ seq ∈ (chatOf store sid).items.map ChatItem.seq, seq ≤ store.cursor sid

theorem seq_of_shownItem {rec : SessionRec} {item : ChatItem}
    (h : shownItem decoders rec = some item) : item.seq = rec.seq := by
  unfold shownItem at h
  split at h
  · obtain ⟨event, -, rfl⟩ := Option.map_eq_some_iff.mp h
    rfl
  · contradiction

/-- Taking a record keeps every session. -/
theorem SessionKept.appendRec (h : ∀ sid, SessionKept store sid) (rec : SessionRec) (sid : String) :
    SessionKept (store.appendRec decoders rec) sid := by
  have hmono := store.le_cursor_appendRec decoders rec sid
  have hchat := chatOf_appendRec decoders store rec sid
  have hsame : chatOf (store.appendRec decoders rec) sid = chatOf store sid →
      SessionKept (store.appendRec decoders rec) sid := by
    intro heq
    refine ⟨heq ▸ (h sid).noted, heq ▸ (h sid).ascending, fun seq hseq => ?_⟩
    rw [heq] at hseq
    exact ((h sid).below seq hseq).trans hmono
  by_cases htaken : sid = rec.sid ∧ store.cursor rec.sid < rec.seq
  · rw [if_pos htaken] at hchat
    cases hitem : shownItem decoders rec with
    | none =>
      rw [hitem] at hchat
      exact hsame hchat
    | some item =>
      rw [hitem, Option.map_some, Option.getD_some] at hchat
      have hseq := seq_of_shownItem hitem
      have hcursor := store.cursor_appendRec decoders rec sid
      rw [if_pos htaken.1, htaken.1, Nat.max_eq_right htaken.2.le, ← hseq, ← htaken.1] at hcursor
      have hnew : store.cursor sid < item.seq := by
        rw [hseq, htaken.1]
        exact htaken.2
      refine ⟨hchat ▸ ((h sid).noted.show item).1, ?_, ?_⟩
      · rw [hchat]
        rcases seqs_show (chatOf store sid) item with heq | heq
        · rw [heq]
          exact (h sid).ascending
        · rw [heq, List.pairwise_append]
          refine ⟨(h sid).ascending, List.pairwise_singleton _ _, fun seq hold seq' hlast => ?_⟩
          rw [List.mem_singleton.mp hlast]
          exact ((h sid).below seq hold).trans_lt hnew
      · intro seq hmem
        rw [hchat] at hmem
        rw [hcursor]
        rcases seqs_show (chatOf store sid) item with heq | heq
        · rw [heq] at hmem
          exact ((h sid).below seq hmem).trans hnew.le
        · rw [heq, List.mem_append, List.mem_singleton] at hmem
          rcases hmem with hold | rfl
          · exact ((h sid).below seq hold).trans hnew.le
          · exact le_rfl
  · rw [if_neg htaken] at hchat
    exact hsame hchat

/-- A session without rows. -/
theorem sessionKept_of_empty {sid : String} (hchat : chatOf store sid = ⟨[], ∅, ∅⟩) :
    SessionKept store sid := by
  refine ⟨?_, ?_, ?_⟩
  · rw [hchat]
    refine ⟨fun id idx => iff_of_false (Option.some_ne_none idx).symm ?_, fun name => positions_nil _⟩
    rintro ⟨⟨row, hrow, -⟩, -⟩
    exact Option.some_ne_none row (hrow.symm.trans List.getElem?_nil)
  · rw [hchat]
    exact List.Pairwise.nil
  · rw [hchat]
    exact fun seq hseq => absurd hseq List.not_mem_nil

theorem SessionKept.removeSession (h : ∀ sid, SessionKept store sid) (sid other : String) :
    SessionKept (removeSession store sid) other := by
  have hchat := chatOf_removeSession store sid other
  by_cases hsid : other = sid
  · rw [if_pos hsid] at hchat
    exact sessionKept_of_empty hchat
  · rw [if_neg hsid] at hchat
    have hcursor := cursor_removeSession store sid other
    rw [if_neg hsid] at hcursor
    refine ⟨hchat ▸ (h other).noted, hchat ▸ (h other).ascending, fun seq hseq => ?_⟩
    rw [hchat] at hseq
    rw [hcursor]
    exact (h other).below seq hseq

/-- What every run keeps. -/
structure LogKept (log : ChatLog) : Prop where
  sessions : ∀ sid, SessionKept log.store sid
  /-- Delivered records are below the cursor. -/
  reached : ∀ rec ∈ log.delivered, rec.seq ≤ log.store.cursor rec.sid

theorem LogKept.record (h : LogKept log) (rec : SessionRec) :
    LogKept (chatStep decoders log (.record rec)) := by
  refine ⟨SessionKept.appendRec h.sessions rec, fun other hother => ?_⟩
  rcases List.mem_append.mp hother with hold | hnew
  · exact (h.reached other hold).trans (log.store.le_cursor_appendRec decoders rec other.sid)
  · obtain rfl := List.mem_singleton.mp hnew
    change other.seq ≤ (log.store.appendRec decoders other).cursor other.sid
    rw [log.store.cursor_appendRec decoders other other.sid, if_pos rfl]
    exact Nat.le_max_right _ _

theorem LogKept.batch (h : LogKept log) (sid : String) (recs : List SessionRec) :
    LogKept (chatStep decoders log (.batch sid recs)) := by
  induction recs generalizing log with
  | nil =>
    have hsame : chatStep decoders log (.batch sid []) = log := by
      rw [chatStep, List.append_nil]
      rfl
    rw [hsame]
    exact h
  | cons rec recs ih =>
    have hcons : chatStep decoders log (.batch sid (rec :: recs)) =
        chatStep decoders (chatStep decoders log (.record rec)) (.batch sid recs) := by
      rw [chatStep, chatStep, chatStep, List.append_assoc]
      rfl
    rw [hcons]
    exact ih (h.record rec)

theorem cursor_foldl_removeSession (sids : List String) (store : SessionStore) {other : String}
    (h : other ∉ sids) : (sids.foldl removeSession store).cursor other = store.cursor other := by
  induction sids generalizing store with
  | nil => rfl
  | cons sid sids ih =>
    rw [List.mem_cons, not_or] at h
    rw [List.foldl_cons, ih _ h.2, cursor_removeSession, if_neg h.1]

theorem LogKept.remove (h : LogKept log) (sids : List String) :
    LogKept (chatStep decoders log (.remove sids)) := by
  refine ⟨?_, fun rec hrec => ?_⟩
  · have hsessions := h.sessions
    revert hsessions
    change (∀ sid, SessionKept log.store sid) →
      ∀ sid, SessionKept (sids.foldl removeSession log.store) sid
    generalize log.store = store
    induction sids generalizing store with
    | nil => exact fun hsessions => hsessions
    | cons sid sids ih => exact fun hsessions => ih _ (SessionKept.removeSession hsessions sid)
  · obtain ⟨hmem, hkept⟩ := List.mem_filter.mp hrec
    change rec.seq ≤ (sids.foldl removeSession log.store).cursor rec.sid
    rw [cursor_foldl_removeSession sids log.store (of_decide_eq_true hkept)]
    exact h.reached rec hmem

theorem logKept_chatAfter (decoders : PayloadDecoders) (events : List ChatEvent) :
    LogKept (chatAfter decoders events) := by
  refine runFrom_induction (fun log event h => ?_) ⟨fun sid => sessionKept_of_empty rfl,
    fun rec hrec => absurd hrec List.not_mem_nil⟩ events
  cases event with
  | record rec => exact h.record rec
  | batch sid recs => exact h.batch sid recs
  | remove sids => exact h.remove sids

/-- At any time the notes are sound, the numbers ascend, the end of a tool call folds into
its row, and delivering records again changes nothing. -/
theorem chat_coalesces (decoders : PayloadDecoders) (events : List ChatEvent) :
    Coalesced decoders (chatAfter decoders events) := by
  have h := logKept_chatAfter decoders events
  refine ⟨fun sid => (h.sessions sid).noted.pendingSound, fun sid => (h.sessions sid).ascending,
    fun rec item hseq hevent hitem hpost => ?_, fun recs hrecs => ?_⟩
  · have hshown : shownItem decoders rec = some item := by
      rw [shownItem, if_pos hevent, hitem]
    rw [chatOf_appendRec, if_pos ⟨rfl, hseq⟩, hshown, Option.map_some, Option.getD_some]
    exact ((h.sessions rec.sid).noted.show item).2 hpost
  · induction recs with
    | nil => rfl
    | cons rec recs ih =>
      have hold : (chatAfter decoders events).store.appendRec decoders rec =
          (chatAfter decoders events).store := by
        rw [SessionStore.appendRec, if_pos (h.reached rec (hrecs rec List.mem_cons_self))]
      rw [SessionStore.appendBatch, List.foldl_cons, hold]
      exact ih fun other hother => hrecs other (List.mem_cons_of_mem rec hother)

/-- An event of tool use `x`. -/
def toolEvent (hookEventName : String) : HookEvent :=
  ⟨hookEventName, some "Read", some "x", none, none, none, none, none, none, none, none, none, none⟩

/-- Decoders that know the texts `Pre` and `Post`. -/
def toolDecoders : PayloadDecoders where
  base64 d := if d = "UHJl" then some [80, 114, 101]
    else if d = "UG9zdA==" then some [80, 111, 115, 116] else none
  utf8 _ := ""
  hookEvent bytes := if bytes = [80, 114, 101] then some (toolEvent "PreToolUse")
    else if bytes = [80, 111, 115, 116] then some (toolEvent "PostToolUse") else none

/-- The start of tool use `x`. -/
def preRec (seq : ℕ) : SessionRec := ⟨"s", seq, "event", none, none, "UHJl", 0⟩

/-- The end of tool use `x`. -/
def postRec (seq : ℕ) : SessionRec := ⟨"s", seq, "event", none, none, "UG9zdA==", 0⟩

/-- Tool use `x` starts twice and ends once. -/
def startedTwice : SessionStore :=
  (chatAfter toolDecoders [.record (preRec 1), .batch "s" [preRec 2, postRec 3]]).store

/-- A session that was removed after its first record. -/
def removedOnce : SessionStore :=
  (chatAfter toolDecoders [.record (preRec 1), .remove ["s"]]).store

/-- The latest unfinished start is the first row, yet the next end gets a row of its own; and
a removed session takes a record again. -/
theorem chat_not_coalesced :
    LastAt (IsCall "x") (IsCall "x") (chatOf startedTwice "s").items 0 ∧
    (chatOf (startedTwice.appendRec toolDecoders (postRec 4)) "s").items =
      (chatOf startedTwice "s").items ++ [⟨toolEvent "PostToolUse", 4, "s", 0⟩] ∧
    removedOnce.appendBatch toolDecoders [preRec 1] ≠ removedOnce := by
  have hitems : (chatOf startedTwice "s").items =
      [⟨toolEvent "PreToolUse", 1, "s", 0⟩, ⟨toolEvent "PostToolUse", 2, "s", 0⟩] := rfl
  refine ⟨⟨⟨⟨toolEvent "PreToolUse", 1, "s", 0⟩, rfl, rfl, rfl⟩, fun j row hj hrow hcall => ?_⟩,
    rfl, fun h => ?_⟩
  · have hlt := (List.getElem?_eq_some_iff.mp hrow).1
    rw [hitems] at hlt hrow
    obtain rfl : j = 1 := by
      rw [List.length_cons, List.length_singleton] at hlt
      omega
    rw [← Option.some.inj hrow] at hcall
    exact absurd hcall.1 (by decide)
  · have hcursor : removedOnce.cursor "s" = 1 := by
      rw [← h]
      rfl
    exact absurd hcursor (by decide)

end Runs

end Teleprompter.ChatCoalescing
