import Teleprompter.HookSettings

/-!
# The receiver of hook payloads

A connection brings one JSON text in any number of reads. After every read the
bytes so far are parsed, and the first value that they form is forwarded if it
is a hook event. No part of an object's text forms another value, so how the
text is split does not matter.
-/

namespace Teleprompter.HookReceiver

open HookSettings JsonTexts JsonValues

/-- Bytes that a connection may bring. -/
def maxHookBufBytes : ℕ := 1024 * 1024

/-- Bytes that one read brings at most. -/
def chunkBytes : ℕ := 8192

/-- A value with a known event name, a session id and a directory. -/
def parseHookEvent (raw : Json) : Option Json := do
  let obj ← raw.asObject
  let name ← (← obj.get "hook_event_name").asStr
  if hookEvents.contains name = true then
    let _ ← (← obj.get "session_id").asStr
    let _ ← (← obj.get "cwd").asStr
    some raw
  else none

/-- Outcome of one read. -/
inductive Read where
  | data (bytes : List UInt8)
  | failed

variable (reader : SliceReader)

/-- The values that a connection forwards, with the bytes that it has. A
connection that waits for more has forwarded nothing. -/
def handleConnFrom (buf : List UInt8) : List Read → List Json
  | [] => []
  | .failed :: _ => []
  | .data bytes :: reads =>
    if bytes = [] then []
    else
      let buf := buf ++ bytes
      if maxHookBufBytes < buf.length then []
      else match reader.fromSlice buf with
        | some value => if (parseHookEvent value).isSome = true then [value] else []
        | none => handleConnFrom buf reads

/-- The values that a connection forwards. -/
def handleConn (reads : List Read) : List Json := handleConnFrom reader [] reads

variable {reader}

/-- A hook event is an object. -/
theorem isObject_of_hookEvent {value : Json} (h : (parseHookEvent value).isSome = true) :
    ∃ fields, value = .object fields := by
  cases value with
  | object fields => exact ⟨fields, rfl⟩
  | null | bool | number | string | array => cases h

/-- At most one value is forwarded. -/
theorem length_handleConnFrom_le (buf : List UInt8) (reads : List Read) :
    (handleConnFrom reader buf reads).length ≤ 1 := by
  induction reads generalizing buf with
  | nil => exact Nat.zero_le 1
  | cons read reads ih =>
    cases read with
    | failed => exact Nat.zero_le 1
    | data bytes =>
      rw [handleConnFrom]
      dsimp only
      split_ifs
      · exact Nat.zero_le 1
      · exact Nat.zero_le 1
      · split
        · split
          · exact le_refl 1
          · exact Nat.zero_le 1
        · exact ih _

/-- The reads that are left bring the rest of an event's text: the event is forwarded. -/
theorem handleConnFrom_eq {buf text : List UInt8} {value : Json} {chunks : List (List UInt8)}
    (hlen : text.length ≤ maxHookBufBytes) (hparse : reader.fromSlice text = some value)
    (hevent : (parseHookEvent value).isSome = true) (htext : buf ++ chunks.flatten = text)
    (hchunks : ∀ chunk ∈ chunks, chunk ≠ []) (hwaits : reader.fromSlice buf = none)
    (more : List Read) : handleConnFrom reader buf (chunks.map Read.data ++ more) = [value] := by
  induction chunks generalizing buf with
  | nil =>
    rw [List.flatten_nil, List.append_nil] at htext
    rw [htext, hparse] at hwaits
    cases hwaits
  | cons chunk chunks ih =>
    have hne := hchunks chunk List.mem_cons_self
    have hsplit : (buf ++ chunk) ++ chunks.flatten = text := by
      rw [← htext, List.flatten_cons, List.append_assoc]
    have hfits : ¬ maxHookBufBytes < (buf ++ chunk).length := by
      have htotal := congrArg List.length hsplit
      rw [List.length_append] at htotal
      omega
    rw [List.map_cons, List.cons_append, handleConnFrom]
    dsimp only
    rw [if_neg hne, if_neg hfits]
    cases hread : reader.fromSlice (buf ++ chunk) with
    | none =>
      exact ih hsplit (fun chunk hchunk => hchunks chunk (List.mem_cons_of_mem _ hchunk)) hread
    | some w =>
      obtain ⟨fields, rfl⟩ := isObject_of_hookEvent hevent
      rw [← hsplit] at hparse
      have hwhole : w = .object fields := reader.fromSlice_prefix hparse hread
      subst hwhole
      dsimp only
      rw [if_pos hevent]

/-- The text of a hook event is forwarded once, however it is split into reads,
and no connection forwards more than one value. -/
theorem handleConn_forwards (reader : SliceReader) :
    (∀ (text : List UInt8) (value : Json) (chunks : List (List UInt8)) (more : List Read),
      text.length ≤ maxHookBufBytes → reader.fromSlice text = some value →
      (parseHookEvent value).isSome = true → chunks.flatten = text →
      (∀ chunk ∈ chunks, chunk ≠ [] ∧ chunk.length ≤ chunkBytes) →
        handleConn reader (chunks.map Read.data ++ more) = [value]) ∧
    ∀ reads, (handleConn reader reads).length ≤ 1 := by
  refine ⟨fun text value chunks more hlen hparse hevent htext hchunks => ?_,
    fun reads => length_handleConnFrom_le [] reads⟩
  exact handleConnFrom_eq hlen hparse hevent (by rw [List.nil_append, htext])
    (fun chunk hchunk => (hchunks chunk hchunk).1) reader.fromSlice_nil more

/-- Strings without escapes. -/
def plainContents : Contents :=
  ⟨fun _ => none, fun bytes => some (String.ofList (bytes.map fun b => Char.ofNat b.toNat))⟩

/-- The first part of the text of a hook event. -/
def stopFront : List UInt8 :=
  "\x7b\"hook_event_name\":\"Stop\",\"session_id\":\"s\",".toList.map ascii

/-- The rest of it. -/
def stopBack : List UInt8 := " \"cwd\":\"/\"\x7d \n".toList.map ascii

/-- A hook event that comes in two reads is forwarded, and what follows is not looked at. -/
theorem handleConn_forwards_stopEvent :
    ∃ value, (grammarReader plainContents).fromSlice (stopFront ++ stopBack) = some value ∧
      handleConn (grammarReader plainContents)
        [.data stopFront, .data stopBack, .data stopBack] = [value] := by
  have hevent : ((grammarReader plainContents).fromSlice (stopFront ++ stopBack)).any
      (fun value => (parseHookEvent value).isSome) = true := by decide +kernel
  obtain ⟨value, hread, hvalue⟩ := (Option.any_eq_true _ _).mp hevent
  have hchunks : ∀ chunk ∈ [stopFront, stopBack], chunk ≠ [] ∧ chunk.length ≤ chunkBytes := by
    decide +kernel
  exact ⟨value, hread, (handleConn_forwards (grammarReader plainContents)).1
    (stopFront ++ stopBack) value [stopFront, stopBack] [.data stopBack] (by decide +kernel) hread
    hvalue (by decide +kernel) hchunks⟩

end Teleprompter.HookReceiver
