import Mathlib.Data.List.SplitBy
import Teleprompter.AnsiStripping
import Teleprompter.IsoTimestamps
import Teleprompter.JsonValues
import Teleprompter.LossyUtf8
import Teleprompter.PairingLink
import Teleprompter.SessionExport

/-!
# The text of an export

An export is a text with a header, a section for each event and fenced blocks
of terminal output. Records of output that stand together form a run; in a run
the records are merged into one block until a pause is long enough. What the
loops of the formatter collect is what splitting the records into runs and the
runs at the pauses gives.
-/

namespace Teleprompter.ExportTexts

open AnsiStripping IsoTimestamps JsonValues LossyUtf8 SessionExport SessionRecords SessionStore

section Model

/-- Reading and writing of JSON texts by an external library. -/
structure JsonTexts where
  parse : List Char → Option Json
  /-- The text with line breaks and indentation. -/
  pretty : Json → List Char
  /-- The text without white space. -/
  compact : Json → List Char

variable (json : JsonTexts)

/-- Pieces with a separator between them. -/
def join (separator : String) (pieces : List (List Char)) : List Char :=
  separator.toList.intercalate pieces

/-- Names of events that are shown with all their fields. -/
def jsonBlockDisplayName : String → Option String
  | "PermissionRequest" => some "Permission Request"
  | "Elicitation" => some "Elicitation"
  | "ElicitationResult" => some "Elicitation Result"
  | "SubagentStart" => some "Subagent Start"
  | "SubagentStop" => some "Subagent Stop"
  | "SessionStart" => some "Session Start"
  | "SessionEnd" => some "Session End"
  | _ => none

/-- A heading over a fenced value. -/
def jsonBlock (heading : String) (data : Json) : List Char :=
  ("### " ++ heading ++ "\n\n```json\n").toList ++ json.pretty data ++ "\n```".toList

/-- A heading over a text. -/
def textBlock (heading : String) (text : List Char) : List Char :=
  ("### " ++ heading ++ "\n\n").toList ++ text

/-- A value that counts as true in a condition of the original script. -/
def isJsTruthy : Json → Bool
  | .null => false
  | .bool b => b
  | .number n => (Json.number n).asF64.all fun f => !(f.exponent.val = 0 ∧ f.fraction.val = 0)
  | .string s => !s.isEmpty
  | .array _ => true
  | .object _ => true

/-- A value inside a text. -/
def jsonDisplay : Json → List Char
  | .string s => s.toList
  | other => json.compact other

/-- A field of a value. What is no object has none. -/
def fieldOf (data : Json) (key : String) : Option Json :=
  data.asObject.bind fun fields => fields.get key

/-- The name of the tool of an event. -/
def toolName (data : Json) : String := ((fieldOf data "tool_name").bind Json.asStr).getD "unknown"

/-- The section of an event with a value. -/
def formatEvent (name : Option String) (data : Json) : List Char :=
  match name with
  | some "Stop" =>
    let said := fieldOf data "last_assistant_message"
    match (said.bind Json.asStr).filter fun msg => !msg.isEmpty with
    | some msg => textBlock "Assistant Response" msg.toList
    | none =>
      match said.filter isJsTruthy with
      | some v => textBlock "Assistant Response" (jsonDisplay json v)
      | none => jsonBlock json "Assistant Response" data
  | some "UserPromptSubmit" =>
    match (fieldOf data "prompt").filter isJsTruthy with
    | some v =>
      textBlock "User" ("> ".toList ++ (jsonDisplay json v).flatMap fun c =>
        if c = '\n' then "\n> ".toList else [c])
    | none => jsonBlock json "User" data
  | some "PreToolUse" =>
    jsonBlock json ("Tool Use: " ++ toolName data) ((fieldOf data "tool_input").getD .null)
  | some "PostToolUse" =>
    jsonBlock json ("Tool Result: " ++ toolName data)
      ((((fieldOf data "tool_result").filter isJsTruthy).orElse
        fun _ => fieldOf data "tool_input").getD .null)
  | other =>
    jsonBlock json (((other.bind jsonBlockDisplayName).orElse fun _ => other).getD "Event") data

/-- The section of an event. A payload that is no JSON text, or null, is shown as it is. -/
def formatEventRecord (r : StoredRecord) : List Char :=
  let raw := fromUtf8Lossy r.payload
  match json.parse raw with
  | none => textBlock (r.name.getD "Event") raw
  | some .null => textBlock (r.name.getD "Event") raw
  | some data => formatEvent json r.name data

/-- The section of a record about the session. -/
def formatMetaRecord (r : StoredRecord) : List Char :=
  let label := "Meta: " ++ r.name.getD "unknown"
  let raw := fromUtf8Lossy r.payload
  match json.parse raw with
  | some data => jsonBlock json label data
  | none => textBlock label raw

/-- Longest pause inside a block. -/
def ioMergeGapMs : ℤ := 2000

/-- A difference of 64-bit integers. In a release build it wraps around. -/
def wrappingI64 (n : ℤ) : ℤ :=
  (n + 9223372036854775808) % 18446744073709551616 - 9223372036854775808

/-- A fenced block of terminal output. -/
def terminalBlock (text : List Char) : List Char :=
  "```terminal\n".toList ++ text ++ "\n```".toList

/-- The variables of the loop over a run. -/
structure IoLoop where
  blocks : List (List Char)
  currentBlock : List Char
  lastTs : ℤ

/-- One round of the loop. -/
def ioRound (loop : IoLoop) (r : StoredRecord) : IoLoop :=
  let text := stripAnsi (fromUtf8Lossy r.payload)
  if (PairingLink.trim text).isEmpty then loop
  else if 0 < loop.lastTs ∧ ioMergeGapMs < wrappingI64 (r.ts - loop.lastTs) ∧
      loop.currentBlock ≠ [] then
    ⟨loop.blocks ++ [terminalBlock loop.currentBlock], text, r.ts⟩
  else ⟨loop.blocks, loop.currentBlock ++ text, r.ts⟩

/-- The blocks of a run, with empty lines between them. -/
def formatIoRecords (records : List StoredRecord) : List Char :=
  if records.isEmpty then []
  else
    let loop := records.foldl ioRound ⟨[], [], 0⟩
    join "\n\n" (if loop.currentBlock ≠ [] then
      loop.blocks ++ [terminalBlock loop.currentBlock] else loop.blocks)

/-- What the header of an export shows. -/
structure ExportSessionMeta where
  sid : String
  cwd : String
  state : String
  createdAtMs : Int64

def isIo (r : StoredRecord) : Bool := r.kind = "io"

/-- The lines of the records. -/
def recordLines : List StoredRecord → List (List Char)
  | [] => []
  | r :: rest =>
    match r.kind with
    | "io" =>
      let formatted := formatIoRecords (r :: rest.takeWhile isIo)
      (if formatted.isEmpty then [] else [formatted, []]) ++ recordLines (rest.dropWhile isIo)
    | "event" => formatEventRecord json r :: [] :: recordLines rest
    | "meta" => formatMetaRecord json r :: [] :: recordLines rest
    | _ => recordLines rest
termination_by records => records.length
decreasing_by
  · exact Nat.lt_succ_of_le (List.dropWhile_sublist _).length_le
  · exact Nat.lt_succ_self _
  · exact Nat.lt_succ_self _
  · exact Nat.lt_succ_self _

/-- The lines of the header. -/
def headerLines (session : ExportSessionMeta) (created : String) : List (List Char) :=
  [("# Session: " ++ session.sid).toList, ("- CWD: " ++ session.cwd).toList,
    ("- State: " ++ session.state).toList, ("- Created: " ++ created).toList, []]

/-- The lines behind an incomplete export. -/
def noteLines (truncated : Bool) : List (List Char) :=
  if truncated then
    ["> **Note:** Export truncated at the configured record limit.".toList, []]
  else []

/-- The text of an export, unless the conversion of the date leaves the range of a type. -/
def formatMarkdown (session : ExportSessionMeta) (records : List StoredRecord) (truncated : Bool) :
    Option (List Char) := do
  let created ← formatIso8601 session.createdAtMs
  return join "\n" (headerLines session created ++ recordLines json records ++ noteLines truncated)

/-- The value of the state column. -/
def stateText : RunState → String
  | .running => "running"
  | .stopped => "stopped"
  | .error => "error"

/-- The text that a request for an export in this format is answered with. -/
def exportText (config : StoreConfig) (store : Store) (readsRow : Bool) (disk : DiskOutcome)
    (msg : ExportMsg) : Option (List Char) :=
  match handleRelaySessionExport config store readsRow disk msg with
  | .exported .markdown session records truncated =>
    formatMarkdown json ⟨msg.session, session.cwd, stateText session.state,
      Int64.ofNat session.createdAt⟩ records truncated
  | _ => none

end Model

section Blocks

/-- The text of a record of output. -/
def shownText (r : StoredRecord) : List Char := stripAnsi (fromUtf8Lossy r.payload)

/-- There is more than white space to show. -/
def isShown (r : StoredRecord) : Bool := !(PairingLink.trim (shownText r)).isEmpty

/-- A pause that ends a block. -/
def LongPause (r r' : StoredRecord) : Prop := 0 < r.ts ∧ ioMergeGapMs < wrappingI64 (r'.ts - r.ts)

instance (r r' : StoredRecord) : Decidable (LongPause r r') := inferInstanceAs (Decidable (_ ∧ _))

/-- No such pause between two records. -/
def close (r r' : StoredRecord) : Bool := !decide (LongPause r r')

/-- The records of a run that are shown, split at the long pauses. -/
def terminalBlocks (run : List StoredRecord) : List (List StoredRecord) :=
  (run.filter isShown).splitBy close

/-- A block with the texts of its records. -/
def blockText (block : List StoredRecord) : List Char := terminalBlock (block.flatMap shownText)

theorem shownText_ne_nil {r : StoredRecord} (h : isShown r = true) : shownText r ≠ [] := by
  intro hnil
  rw [isShown, hnil] at h
  cases h

/-- The loop in the middle of a block: the finished blocks and the current one, both in
reverse, and the last record. -/
def midBlock (done : List (List StoredRecord)) (current : List StoredRecord) (last : StoredRecord) :
    IoLoop :=
  ⟨done.reverse.map blockText, (last :: current).reverse.flatMap shownText, last.ts⟩

theorem ioRound_of_hidden (loop : IoLoop) {r : StoredRecord} (h : isShown r = false) :
    ioRound loop r = loop := by
  rw [isShown, Bool.not_eq_false'] at h
  rw [ioRound]
  exact if_pos h

theorem ioRound_of_shown {loop : IoLoop} {r : StoredRecord} (h : isShown r = true) :
    ioRound loop r =
      if 0 < loop.lastTs ∧ ioMergeGapMs < wrappingI64 (r.ts - loop.lastTs) ∧
          loop.currentBlock ≠ [] then
        ⟨loop.blocks ++ [terminalBlock loop.currentBlock], shownText r, r.ts⟩
      else ⟨loop.blocks, loop.currentBlock ++ shownText r, r.ts⟩ := by
  rw [isShown, Bool.not_eq_true'] at h
  rw [ioRound]
  exact if_neg (by rw [← shownText, h]; exact Bool.false_ne_true)

/-- Hidden records do not matter. -/
theorem foldl_ioRound_filter (records : List StoredRecord) (loop : IoLoop) :
    records.foldl ioRound loop = (records.filter isShown).foldl ioRound loop := by
  induction records generalizing loop with
  | nil => rfl
  | cons r records ih =>
    rw [List.foldl_cons, List.filter_cons]
    cases h : isShown r with
    | false => rw [if_neg Bool.false_ne_true, ioRound_of_hidden loop h, ih]
    | true => rw [if_pos rfl, List.foldl_cons, ih]

/-- What the loop leaves, with the block that is not finished yet. -/
def IoLoop.allBlocks (loop : IoLoop) : List (List Char) :=
  if loop.currentBlock ≠ [] then loop.blocks ++ [terminalBlock loop.currentBlock] else loop.blocks

theorem midBlock_current_ne_nil {done : List (List StoredRecord)} {current : List StoredRecord}
    {last : StoredRecord} (h : isShown last = true) :
    (midBlock done current last).currentBlock ≠ [] := by
  intro hnil
  rw [midBlock, List.reverse_cons, List.flatMap_append, List.append_eq_nil_iff,
    List.flatMap_singleton] at hnil
  exact shownText_ne_nil h hnil.2

/-- A shown record goes on with the block or begins the next one. -/
theorem ioRound_midBlock {done : List (List StoredRecord)} {current : List StoredRecord}
    {last r : StoredRecord} (hlast : isShown last = true) (h : isShown r = true) :
    ioRound (midBlock done current last) r =
      if close last r = true then midBlock done (last :: current) r
      else midBlock ((last :: current).reverse :: done) [] r := by
  rw [ioRound_of_shown h, close]
  by_cases hpause : LongPause last r
  · rw [decide_eq_true hpause, if_pos ⟨hpause.1, hpause.2, midBlock_current_ne_nil hlast⟩,
      if_neg (by decide)]
    simp [midBlock, blockText]
  · rw [decide_eq_false hpause, if_neg fun hboth => hpause ⟨hboth.1, hboth.2.1⟩, if_pos (by rfl)]
    simp [midBlock]

/-- The loop splits the shown records as it goes. -/
theorem allBlocks_foldl {records : List StoredRecord} (hall : ∀ r ∈ records, isShown r = true)
    {done : List (List StoredRecord)} {current : List StoredRecord} {last : StoredRecord}
    (hlast : isShown last = true) :
    (records.foldl ioRound (midBlock done current last)).allBlocks =
      (List.splitBy.loop close records last current done).map blockText := by
  induction records generalizing done current last with
  | nil =>
    rw [List.foldl_nil, IoLoop.allBlocks, if_pos (midBlock_current_ne_nil hlast),
      List.splitBy.loop, List.reverse_cons, List.map_append]
    rfl
  | cons r records ih =>
    have hr := hall r List.mem_cons_self
    have hrest := fun a ha => hall a (List.mem_cons_of_mem r ha)
    rw [List.foldl_cons, ioRound_midBlock hlast hr, List.splitBy.loop]
    cases close last r with
    | true => exact ih hrest hr
    | false => exact ih hrest hr

/-- The blocks of a run are those that it splits into. -/
theorem formatIoRecords_eq (records : List StoredRecord) :
    formatIoRecords records = join "\n\n" ((terminalBlocks records).map blockText) := by
  have hblocks : (records.foldl ioRound ⟨[], [], 0⟩).allBlocks =
      (terminalBlocks records).map blockText := by
    rw [foldl_ioRound_filter, terminalBlocks]
    have hall : ∀ r ∈ records.filter isShown, isShown r = true :=
      fun r hr => (List.mem_filter.mp hr).2
    generalize records.filter isShown = shown at hall ⊢
    cases shown with
    | nil => rfl
    | cons r shown =>
      have hr := hall r List.mem_cons_self
      have hfirst : ioRound ⟨[], [], 0⟩ r = midBlock [] [] r := by
        rw [ioRound_of_shown hr, if_neg fun h => Int.lt_irrefl 0 h.1]
        simp [midBlock]
      rw [List.foldl_cons, hfirst,
        allBlocks_foldl (fun a ha => hall a (List.mem_cons_of_mem r ha)) hr, List.splitBy]
  rw [formatIoRecords]
  split
  · next hempty =>
    rw [List.isEmpty_iff.mp hempty]
    rfl
  · rw [← hblocks]
    rfl

end Blocks

section Documents

variable (json : JsonTexts)

/-- Records of output that stand together. -/
def sameRun (r r' : StoredRecord) : Bool := isIo r && isIo r'

/-- The section of a run: its blocks, or what its one record gives. -/
def sectionLines (run : List StoredRecord) : List (List Char) :=
  match run with
  | [] => []
  | r :: _ =>
    if isIo r then
      if terminalBlocks run = [] then []
      else [join "\n\n" ((terminalBlocks run).map blockText), []]
    else if r.kind = "event" then [formatEventRecord json r, []]
    else if r.kind = "meta" then [formatMetaRecord json r, []]
    else []

theorem append_append_ne_nil {front : List Char} (h : front ≠ []) (middle back : List Char) :
    front ++ middle ++ back ≠ [] := by
  intro hnil
  rw [List.append_eq_nil_iff, List.append_eq_nil_iff] at hnil
  exact h hnil.1.1

theorem blockText_ne_nil (block : List StoredRecord) : blockText block ≠ [] :=
  append_append_ne_nil (by simp) _ _

theorem join_cons_ne_nil {separator : String} {piece : List Char} (pieces : List (List Char))
    (h : piece ≠ []) : join separator (piece :: pieces) ≠ [] := by
  intro hnil
  rw [join] at hnil
  cases pieces with
  | nil =>
    rw [List.intercalate_singleton] at hnil
    exact h hnil
  | cons next pieces =>
    rw [List.intercalate_cons_cons, List.append_assoc, List.append_eq_nil_iff] at hnil
    exact h hnil.1

theorem formatIoRecords_isEmpty_iff (records : List StoredRecord) :
    (formatIoRecords records).isEmpty = true ↔ terminalBlocks records = [] := by
  rw [formatIoRecords_eq, List.isEmpty_iff]
  cases terminalBlocks records with
  | nil => exact iff_of_true rfl rfl
  | cons block blocks =>
    exact iff_of_false (join_cons_ne_nil _ (blockText_ne_nil block)) (List.cons_ne_nil _ _)

theorem sectionLines_run {r : StoredRecord} (rest : List StoredRecord) (h : isIo r = true) :
    sectionLines json (r :: rest) =
      if (formatIoRecords (r :: rest)).isEmpty then [] else [formatIoRecords (r :: rest), []] := by
  rw [sectionLines, if_pos h]
  by_cases hblocks : terminalBlocks (r :: rest) = []
  · rw [if_pos hblocks, if_pos ((formatIoRecords_isEmpty_iff _).mpr hblocks)]
  · rw [if_neg hblocks, if_neg (mt (formatIoRecords_isEmpty_iff _).mp hblocks),
      formatIoRecords_eq]

/-- A run and what comes behind it. -/
theorem splitBy_run {r : StoredRecord} (rest : List StoredRecord) (h : isIo r = true) :
    (r :: rest).splitBy sameRun =
      (r :: rest.takeWhile isIo) :: (rest.dropWhile isIo).splitBy sameRun := by
  have hio : ∀ a ∈ r :: rest.takeWhile isIo, isIo a = true := by
    intro a ha
    rcases List.mem_cons.mp ha with heq | hmem
    · rw [heq, h]
    · exact List.mem_takeWhile_imp hmem
  have hchain : (r :: rest.takeWhile isIo).IsChain fun a b => sameRun a b = true := by
    rw [List.isChain_iff_getElem]
    intro i hi
    rw [sameRun, hio _ (List.getElem_mem _), hio _ (List.getElem_mem _)]
    rfl
  have hsplit : r :: rest = (r :: rest.takeWhile isIo) ++ rest.dropWhile isIo := by
    rw [List.cons_append, List.takeWhile_append_dropWhile]
  have hbreak : ∀ a ∈ (r :: rest.takeWhile isIo).getLast?, ∀ b ∈ (rest.dropWhile isIo).head?,
      sameRun a b = false := by
    intro a _ b hb
    have hhead := List.head?_dropWhile_not isIo rest
    rw [Option.mem_def.mp hb] at hhead
    have hnot : isIo b = false := hhead
    rw [sameRun, hnot, Bool.and_false]
  rw [hsplit, List.splitBy_append hbreak, List.splitBy_of_isChain (List.cons_ne_nil _ _) hchain]
  rfl

theorem splitBy_single {r : StoredRecord} (rest : List StoredRecord) (h : isIo r = false) :
    (r :: rest).splitBy sameRun = [r] :: rest.splitBy sameRun := by
  have hbreak : ∀ a ∈ [r].getLast?, ∀ b ∈ rest.head?, sameRun a b = false := by
    intro a ha b _
    rw [List.getLast?_singleton, Option.mem_some_iff] at ha
    rw [sameRun, ← ha, h, Bool.false_and]
  have happend := List.splitBy_append hbreak
  rw [List.splitBy_of_isChain (List.cons_ne_nil _ _) (List.isChain_singleton _)] at happend
  exact happend

/-- The loop over the records goes from run to run. -/
theorem recordLines_eq (records : List StoredRecord) :
    recordLines json records = (records.splitBy sameRun).flatMap (sectionLines json) := by
  induction records using recordLines.induct with
  | case1 =>
    rw [recordLines]
    rfl
  | case2 r rest hkind ih =>
    have hio : isIo r = true := decide_eq_true hkind
    rw [splitBy_run rest hio, List.flatMap_cons, sectionLines_run json _ hio, ← ih, recordLines]
    split
    · rfl
    all_goals simp_all
  | case3 r rest hkind ih =>
    have hio : isIo r = false := decide_eq_false (by rw [hkind]; decide)
    rw [splitBy_single rest hio, List.flatMap_cons, ← ih, sectionLines, recordLines]
    simp [hio, hkind]
  | case4 r rest hkind ih =>
    have hio : isIo r = false := decide_eq_false (by rw [hkind]; decide)
    rw [splitBy_single rest hio, List.flatMap_cons, ← ih, sectionLines, recordLines]
    simp [hio, hkind]
  | case5 r rest hio hevent hmeta ih =>
    have hother : isIo r = false := decide_eq_false hio
    rw [splitBy_single rest hother, List.flatMap_cons, ← ih, sectionLines, recordLines]
    simp [hother]
    rw [if_neg hevent, if_neg hmeta]

/-- A run is made of output, or it is one other record. -/
theorem run_cases {records run : List StoredRecord} (h : run ∈ records.splitBy sameRun) :
    (∀ r ∈ run, isIo r = true) ∨ ∃ r, run = [r] ∧ isIo r = false := by
  have hchain := List.isChain_of_mem_splitBy h
  cases run with
  | nil => exact (List.ne_nil_of_mem_splitBy h rfl).elim
  | cons r rest =>
    cases hio : isIo r with
    | false =>
      cases rest with
      | nil => exact .inr ⟨r, rfl, hio⟩
      | cons r' rest =>
        rw [List.isChain_cons_cons, sameRun, hio, Bool.false_and] at hchain
        cases hchain.1
    | true =>
      refine .inl ?_
      clear h
      induction rest generalizing r with
      | nil =>
        intro a ha
        rw [List.mem_singleton.mp ha, hio]
      | cons r' rest ih =>
        rw [List.isChain_cons_cons, sameRun, Bool.and_eq_true] at hchain
        intro a ha
        rcases List.mem_cons.mp ha with heq | hmem
        · rw [heq, hio]
        · exact ih r' hchain.2 hchain.1.2 a hmem

/-- The blocks of the runs of output. -/
def runBlocks (run : List StoredRecord) : List (List StoredRecord) :=
  if run.all isIo then terminalBlocks run else []

/-- All blocks of an export. -/
def exportBlocks (records : List StoredRecord) : List (List StoredRecord) :=
  (records.splitBy sameRun).flatMap runBlocks

theorem flatten_runBlocks {records run : List StoredRecord} (h : run ∈ records.splitBy sameRun) :
    (runBlocks run).flatten = run.filter fun r => isIo r && isShown r := by
  rcases run_cases h with hall | ⟨r, rfl, hr⟩
  · rw [runBlocks, if_pos (List.all_eq_true.mpr hall), terminalBlocks, List.flatten_splitBy]
    refine List.filter_congr fun r hr => ?_
    rw [hall r hr, Bool.true_and]
  · rw [runBlocks, List.all_cons, hr, Bool.false_and, if_neg Bool.false_ne_true, List.filter_cons,
      hr, Bool.false_and, if_neg Bool.false_ne_true]
    rfl

/-- The blocks hold each record of output that has something to show once, in order. -/
theorem flatten_exportBlocks (records : List StoredRecord) :
    (exportBlocks records).flatten = records.filter fun r => isIo r && isShown r := by
  have hruns : ∀ runs : List (List StoredRecord), (∀ run ∈ runs, run ∈ records.splitBy sameRun) →
      (runs.flatMap runBlocks).flatten = runs.flatten.filter fun r => isIo r && isShown r := by
    intro runs hmem
    induction runs with
    | nil => rfl
    | cons run runs ih =>
      rw [List.flatMap_cons, List.flatten_append, List.flatten_cons, List.filter_append,
        flatten_runBlocks (hmem run List.mem_cons_self),
        ih fun other ho => hmem other (List.mem_cons_of_mem run ho)]
  have hall := hruns (records.splitBy sameRun) fun _ h => h
  rw [List.flatten_splitBy] at hall
  exact hall

/-- A block has no long pause inside; between two blocks of a run there is one. -/
theorem terminalBlocks_pauses (run : List StoredRecord) :
    (∀ block ∈ terminalBlocks run, block ≠ [] ∧ block.IsChain fun r r' => ¬ LongPause r r') ∧
      (terminalBlocks run).IsChain fun block next => ∃ hb hn,
        LongPause (block.getLast hb) (next.head hn) := by
  constructor
  · intro block hblock
    refine ⟨List.ne_nil_of_mem_splitBy hblock, ?_⟩
    refine (List.isChain_of_mem_splitBy hblock).imp fun r r' hclose => ?_
    rw [close, Bool.not_eq_true', decide_eq_false_iff_not] at hclose
    exact hclose
  · refine (List.isChain_getLast_head_splitBy close (run.filter isShown)).imp ?_
    rintro block next ⟨hb, hn, hclose⟩
    rw [close, Bool.not_eq_false', decide_eq_true_eq] at hclose
    exact ⟨hb, hn, hclose⟩

/-- The records of an answered export are the first ones that match. -/
theorem records_of_exported {config : StoreConfig} {store : Store} {readsRow : Bool}
    {disk : DiskOutcome} {msg : ExportMsg} {format : ExportFormat} {session : SessionMeta}
    {records : List StoredRecord} {truncated : Bool}
    (h : handleRelaySessionExport config store readsRow disk msg =
      .exported format session records truncated) :
    records = if disk.executes then
      (matchingRecords config store msg).take msg.effectiveLimit.toNat else [] := by
  obtain ⟨hlimit, hreply⟩ := of_exported h
  have hle : msg.effectiveLimit ≤ recordCap := by
    rw [ExportMsg.effectiveLimit]
    omega
  rw [getRecordsFiltered_eq config store msg disk.executes hlimit, exportReply] at hreply
  injection hreply with _ _ hrecords _
  rw [← hrecords]
  cases disk.executes with
  | false =>
    rw [if_neg Bool.false_ne_true, if_neg Bool.false_ne_true, List.take_nil, ite_self]
  | true =>
    rw [if_pos rfl, if_pos rfl, List.take_take]
    generalize matchingRecords config store msg = matching
    split
    · rw [Nat.min_eq_left (by omega)]
    · next hfew =>
      rw [decide_eq_true_eq, List.length_take] at hfew
      rcases Int.lt_or_eq_of_le hle with hlt | heq
      · rw [List.take_of_length_le (by omega), List.take_of_length_le (by omega)]
      · rw [Int.min_eq_right (by omega), heq]

/-- An answered export says that records are missing exactly when the query ran, the
limit is below the cap and more records match than the limit lets through. -/
theorem truncated_of_exported {config : StoreConfig} {store : Store} {readsRow : Bool}
    {disk : DiskOutcome} {msg : ExportMsg} {format : ExportFormat} {session : SessionMeta}
    {records : List StoredRecord} {truncated : Bool}
    (h : handleRelaySessionExport config store readsRow disk msg =
      .exported format session records truncated) :
    truncated = true ↔ disk.executes = true ∧ msg.effectiveLimit < recordCap ∧
      msg.effectiveLimit < (matchingRecords config store msg).length := by
  obtain ⟨hlimit, hreply⟩ := of_exported h
  have hle : msg.effectiveLimit ≤ recordCap := by
    rw [ExportMsg.effectiveLimit]
    omega
  rw [getRecordsFiltered_eq config store msg disk.executes hlimit, exportReply] at hreply
  injection hreply with _ _ _ htruncated
  rw [← htruncated, decide_eq_true_eq]
  cases disk.executes with
  | false =>
    rw [if_neg Bool.false_ne_true, List.length_nil]
    exact ⟨fun hless => absurd hless (by omega), fun hall => absurd hall.1 Bool.false_ne_true⟩
  | true =>
    rw [if_pos rfl, List.length_take]
    constructor
    · exact fun hless => ⟨rfl, by omega, by omega⟩
    · rintro ⟨-, hcap, hmore⟩
      omega

/-- A request for a text is answered with a header, the sections of the first matching
records, run by run, and a note when the limit leaves some out. Each record of output that
has something to show is in one block, in order, and the blocks of a run end at the long
pauses. -/
theorem exportText_spec {config : StoreConfig} {store : Store} {readsRow : Bool}
    {disk : DiskOutcome} {msg : ExportMsg} {session : SessionMeta} {records : List StoredRecord}
    {truncated : Bool}
    (h : handleRelaySessionExport config store readsRow disk msg =
      .exported .markdown session records truncated) :
    records = (if disk.executes then
      (matchingRecords config store msg).take msg.effectiveLimit.toNat else []) ∧
    (truncated = true ↔ disk.executes = true ∧ msg.effectiveLimit < recordCap ∧
      msg.effectiveLimit < (matchingRecords config store msg).length) ∧
    (∃ created, formatIso8601 (Int64.ofNat session.createdAt) = some created ∧
      exportText json config store readsRow disk msg = some (join "\n"
        (headerLines ⟨msg.session, session.cwd, stateText session.state,
            Int64.ofNat session.createdAt⟩ created ++
          (records.splitBy sameRun).flatMap (sectionLines json) ++ noteLines truncated))) ∧
    (exportBlocks records).flatten = (records.filter fun r => isIo r && isShown r) ∧
    ∀ run ∈ records.splitBy sameRun,
      (∀ block ∈ runBlocks run, block ≠ [] ∧ block.IsChain fun r r' => ¬ LongPause r r') ∧
        (runBlocks run).IsChain fun block next => ∃ hb hn,
          LongPause (block.getLast hb) (next.head hn) := by
  refine ⟨records_of_exported h, truncated_of_exported h, ?_, flatten_exportBlocks records,
    fun run _ => ?_⟩
  · obtain ⟨date, time, hcreated, -⟩ := formatIso8601_spec (Int64.ofNat session.createdAt)
    refine ⟨_, hcreated, ?_⟩
    rw [exportText, h]
    dsimp only
    rw [formatMarkdown, hcreated, recordLines_eq]
    rfl
  · rw [runBlocks]
    split
    · exact terminalBlocks_pauses run
    · exact ⟨fun block hblock => absurd hblock List.not_mem_nil, List.isChain_nil⟩

end Documents

section Samples

/-- Two pieces of output with a long pause between them, and an event. -/
def pausedRecords : List StoredRecord :=
  [⟨1, "io", 1000, none, none, [0x61]⟩, ⟨2, "io", 4000, none, none, [0x62]⟩,
    ⟨3, "event", 4000, none, some "Stop", [0x31]⟩]

/-- A request for a text. -/
def textRequest : ExportMsg := ⟨some "s", some "markdown", none, none, none, none⟩

/-- Texts of the one number in the sample. -/
def digitTexts : JsonTexts where
  parse text := if text = ['1'] then some (.number (.posInt 1)) else none
  pretty _ := ['1']
  compact _ := ['1']

example : exportBlocks pausedRecords =
    [[⟨1, "io", 1000, none, none, [0x61]⟩], [⟨2, "io", 4000, none, none, [0x62]⟩]] := by
  decide +kernel

/-- The sample session is exported as a text with two blocks and one event. -/
theorem exportText_pausedRecords :
    ∃ created, formatIso8601 (Int64.ofNat 0) = some created ∧
      exportText digitTexts SessionExport.sampleConfig (oneSession ⟨pausedRecords, rfl⟩) true
          ⟨true, true, true⟩ textRequest =
        some (join "\n" (headerLines ⟨"s", "/work", "stopped", Int64.ofNat 0⟩ created ++
          (pausedRecords.splitBy sameRun).flatMap (sectionLines digitTexts) ++
            noteLines false)) := by
  have hreply : handleRelaySessionExport SessionExport.sampleConfig
      (oneSession ⟨pausedRecords, rfl⟩) true ⟨true, true, true⟩ textRequest =
        .exported .markdown sampleRow pausedRecords false := by decide +kernel
  exact (exportText_spec digitTexts hreply).2.2.1

end Samples

end Teleprompter.ExportTexts
