import Teleprompter.FiniteDictionary
import Teleprompter.JsonLiterals
import Teleprompter.JsonTexts
import Teleprompter.ShellWords

/-!
# Settings that capture hooks

The settings passed to the agent are those of the project with one more hook
under every known event. The hook runs a script that connects to a socket, so
its command holds the path of the socket as a literal of the script, and the
script as one quoted word of a shell.
-/

namespace Teleprompter.HookSettings

open FiniteDictionary JsonLiterals JsonTexts JsonValues ShellWords

section Model

def hookEvents : List String :=
  ["SessionStart", "SessionEnd", "UserPromptSubmit", "Stop", "StopFailure", "PreToolUse",
    "PostToolUse", "PostToolUseFailure", "PermissionRequest", "Notification", "SubagentStart",
    "SubagentStop", "PreCompact", "PostCompact", "Elicitation", "ElicitationResult"]

/-- The script in front of the path. -/
def scriptHead : List Char :=
  "const d=await Bun.stdin.text();const s=await Bun.connect(\x7bunix:".toList

/-- The script behind the path. -/
def scriptTail : List Char :=
  ",socket:\x7bopen(s)\x7bs.write(d);s.end()\x7d,data()\x7b\x7d,error()\x7b\x7d\x7d\x7d);".toList

variable (reader : SliceReader) (json : LiteralWriter)

/-- The script that sends its input to a socket. -/
def captureScript (hookSocketPath : List Char) : List Char :=
  scriptHead ++ json.write hookSocketPath ++ scriptTail

/-- The command up to the quote that opens the script. -/
def commandHead : List Char := "bun -e '".toList

/-- The command that runs the script. -/
def captureHookCommand (hookSocketPath : String) : String :=
  let shellEscaped := (captureScript json hookSocketPath.toList).flatMap singleEscape
  String.ofList (commandHead ++ shellEscaped ++ ['\''])

/-- The entry under every known event. -/
def tpHookEntry (command : String) : Json :=
  .object [("matcher", .string ""), ("hooks", .array [.object [("type", .string "command"),
    ("command", .string command), ("timeout", .number (.posInt 10))]])]

/-- The map of an object. The first field of a name counts. -/
def toMap (object : Object) : Dict String Json :=
  object.foldr (fun field map => map.insert field.1 field.2) ∅

/-- The object of a map. -/
def ofMap (map : Dict String Json) : Object := map.entries.map fun entry => (entry.1, entry.2)

def isArray : Json → Bool
  | .array _ => true
  | _ => false

/-- An array, or an empty one in place of anything else. -/
def coerceArray : Option Json → Json
  | some (.array a) => .array a
  | _ => .array []

/-- The known events as arrays, then the unknown ones that are arrays. -/
def sanitizeHooks (rawHooks : Object) : Dict String Json :=
  let raw := toMap rawHooks
  let known := hookEvents.foldl (fun hooks event =>
    hooks.insert event (coerceArray (raw.lookup event))) ∅
  raw.entries.foldl (fun hooks entry =>
    if hookEvents.contains entry.1 = false ∧ isArray entry.2 = true then
      hooks.insert entry.1 entry.2 else hooks) known

/-- The settings of a file, if it holds an object, with its hooks sanitised. -/
def readExistingSettings (content : Option (List UInt8)) : Option (Dict String Json) := do
  let text ← content
  let parsed ← reader.fromSlice text
  let obj ← parsed.asObject
  let hooks := match obj.get "hooks" with
    | some (.object rawHooks) => sanitizeHooks rawHooks
    | _ => ∅
  some ((toMap obj).insert "hooks" (.object (ofMap hooks)))

/-- The merged settings as an object. The content is that of the settings file, if
there is one. -/
def mergedSettings (hookSocketPath : String) (content : Option (List UInt8)) : Dict String Json :=
  let entry := tpHookEntry (captureHookCommand json hookSocketPath)
  let existing := readExistingSettings reader content
  let existingHooks := match existing.bind fun settings => settings.lookup "hooks" with
    | some (.object fields) => toMap fields
    | _ => ∅
  let hooks := hookEvents.foldl (fun hooks event =>
    let entries := match existingHooks.lookup event with
      | some (.array a) => a
      | _ => []
    hooks.insert event (.array (entries ++ [entry]))) existingHooks
  (existing.getD ∅).insert "hooks" (.object (ofMap hooks))

/-- The merged settings as a text. -/
def buildSettings (toText : Json → String) (hookSocketPath : String)
    (content : Option (List UInt8)) : String :=
  toText (.object (ofMap (mergedSettings reader json hookSocketPath content)))

end Model

section File

variable (reader : SliceReader)

/-- The object of the settings file. -/
def fileSettings (content : Option (List UInt8)) : Object :=
  ((content.bind reader.fromSlice).bind Json.asObject).getD []

/-- The hooks of the settings file. -/
def fileHooks (content : Option (List UInt8)) : Object :=
  (((fileSettings reader content).get "hooks").bind Json.asObject).getD []

/-- The entries of the settings file for an event. -/
def fileEntries (content : Option (List UInt8)) (event : String) : List Json :=
  (((fileHooks reader content).get event).bind Json.asArray).getD []

end File

section Maps

variable {map : Dict String Json} {key : String}

theorem lookup_toMap (object : Object) (key : String) :
    (toMap object).lookup key = object.get key := by
  induction object with
  | nil => rfl
  | cons field fields ih =>
    have hstep : toMap (field :: fields) = (toMap fields).insert field.1 field.2 := rfl
    rw [hstep, lookup_insert_eq, ih]
    by_cases hkey : field.1 = key
    · simp [Object.get, hkey]
    · have hkey' : ¬ key = field.1 := fun h => hkey h.symm
      simp [Object.get, hkey, hkey']

theorem get_ofMap (map : Dict String Json) (key : String) :
    (ofMap map).get key = map.lookup key := by
  obtain ⟨entries, _⟩ := map
  change Object.get (entries.map fun entry => (entry.1, entry.2)) key = entries.dlookup key
  induction entries with
  | nil => rfl
  | cons entry entries ih =>
    have ih := ih (List.nodupKeys_cons.mp ‹_›).2
    obtain ⟨name, value⟩ := entry
    by_cases hkey : name = key
    · subst hkey
      rw [List.dlookup_cons_eq]
      simp [Object.get]
    · rw [List.dlookup_cons_ne _ _ (Ne.symm hkey), ← ih]
      simp [Object.get, hkey]

/-- Keys with values of their own, inserted one after the other. -/
theorem lookup_foldl_insert (value : String → Json) (keys : List String) (map : Dict String Json)
    (key : String) :
    (keys.foldl (fun map key => map.insert key (value key)) map).lookup key =
      if key ∈ keys then some (value key) else map.lookup key := by
  induction keys generalizing map with
  | nil => simp
  | cons k keys ih =>
    rw [List.foldl_cons, ih, lookup_insert_eq]
    by_cases hmem : key ∈ keys
    · simp [hmem]
    · by_cases hkey : key = k
      · simp [hkey]
      · simp [hmem, hkey]

/-- Entries that are kept by a test, inserted one after the other. -/
theorem lookup_foldl_keep (keep : (Σ _ : String, Json) → Prop) [DecidablePred keep]
    {entries : List (Σ _ : String, Json)} (hnodup : entries.NodupKeys) (map : Dict String Json)
    (key : String) :
    (entries.foldl (fun map entry =>
      if keep entry then map.insert entry.1 entry.2 else map) map).lookup key =
      match entries.dlookup key with
      | some value => if keep ⟨key, value⟩ then some value else map.lookup key
      | none => map.lookup key := by
  induction entries generalizing map with
  | nil => rfl
  | cons entry entries ih =>
    obtain ⟨hfresh, hrest⟩ := List.nodupKeys_cons.mp hnodup
    rw [List.foldl_cons, ih hrest]
    obtain ⟨name, value⟩ := entry
    by_cases hkey : name = key
    · subst hkey
      rw [List.dlookup_cons_eq, List.dlookup_eq_none.mpr hfresh]
      dsimp only
      split
      · rw [AList.lookup_insert]
      · rfl
    · rw [List.dlookup_cons_ne _ _ (Ne.symm hkey)]
      have hother : (if keep ⟨name, value⟩ then map.insert name value else map).lookup key =
          map.lookup key := by
        split
        · exact AList.lookup_insert_ne (Ne.symm hkey)
        · rfl
      dsimp only
      rw [hother]

/-- A known event has its array, or an empty one. -/
theorem lookup_sanitizeHooks_known (rawHooks : Object) {event : String} (h : event ∈ hookEvents) :
    (sanitizeHooks rawHooks).lookup event = some (coerceArray (rawHooks.get event)) := by
  have hcontains : hookEvents.contains event = true := List.contains_iff_mem.mpr h
  rw [sanitizeHooks, lookup_foldl_keep
    (fun entry => hookEvents.contains entry.1 = false ∧ isArray entry.2 = true)
    (toMap rawHooks).nodupKeys, lookup_foldl_insert (fun event =>
      coerceArray ((toMap rawHooks).lookup event)), if_pos h, lookup_toMap]
  split
  · rw [if_neg (by simp [h])]
  · rfl

/-- An unknown event is kept when it is an array. -/
theorem lookup_sanitizeHooks_unknown (rawHooks : Object) {key : String} (h : key ∉ hookEvents)
    {values : List Json} (hvalue : rawHooks.get key = some (.array values)) :
    (sanitizeHooks rawHooks).lookup key = some (.array values) := by
  have hcontains : hookEvents.contains key = false := by
    rw [← Bool.not_eq_true, List.contains_iff_mem]
    exact h
  have hlookup : (toMap rawHooks).entries.dlookup key = some (.array values) := by
    rw [← hvalue, ← lookup_toMap]
    rfl
  rw [sanitizeHooks, lookup_foldl_keep
    (fun entry => hookEvents.contains entry.1 = false ∧ isArray entry.2 = true)
    (toMap rawHooks).nodupKeys, hlookup]
  dsimp only
  rw [if_pos ⟨hcontains, rfl⟩]

end Maps

section Commands

/-- In front of the script stand two words and a quote. -/
theorem splitWords_commandHead (rest : List Char) :
    splitWords .plain none (commandHead ++ rest) = (splitWords .single (some []) rest).map
      fun words => "bun".toList :: "-e".toList :: words := by
  have hhead : commandHead = ['b', 'u', 'n', ' ', '-', 'e', ' ', '\''] := by decide
  have hblank (word : Option (List Char)) (rest : List Char) :
      splitWords .plain word (' ' :: rest) =
        (splitWords .plain none rest).map fun words => word.toList ++ words := by
    rw [splitWords.eq_def]
    rfl
  have hquote (rest : List Char) : splitWords .plain none ('\'' :: rest) =
      splitWords .single (some []) rest := by
    rw [splitWords.eq_def]
    rfl
  rw [hhead]
  simp only [List.cons_append, List.nil_append]
  rw [splitWords_plain (by decide) (by decide) (by decide),
    splitWords_plain (by decide) (by decide) (by decide),
    splitWords_plain (by decide) (by decide) (by decide), hblank,
    splitWords_plain (by decide) (by decide) (by decide),
    splitWords_plain (by decide) (by decide) (by decide), hblank, hquote, Option.map_map]
  rfl

/-- The command is three words, the last of them the script. -/
theorem shellWords_captureHookCommand (json : LiteralWriter) (hookSocketPath : String) :
    shellWords (captureHookCommand json hookSocketPath).toList =
      some ["bun".toList, "-e".toList, captureScript json hookSocketPath.toList] := by
  have hcommand : (captureHookCommand json hookSocketPath).toList =
      commandHead ++ ((captureScript json hookSocketPath.toList).flatMap singleEscape ++ ['\'']) := by
    rw [captureHookCommand, String.toList_ofList, List.append_assoc]
  rw [shellWords, hcommand, splitWords_commandHead, splitWords_quoted]
  rfl

end Commands

section Merge

variable (reader : SliceReader) (json : LiteralWriter) (hookSocketPath : String) (content : Option (List UInt8))

/-- The hooks that the merge starts from. -/
def existingHooks : Dict String Json :=
  match (readExistingSettings reader content).bind fun settings => settings.lookup "hooks" with
  | some (.object fields) => toMap fields
  | _ => ∅

/-- The entries of an event before the merge. -/
def existingEntries (event : String) : List Json :=
  match (existingHooks reader content).lookup event with
  | some (.array a) => a
  | _ => []

/-- The hooks behind the merge. -/
def mergedHooks : Dict String Json :=
  hookEvents.foldl (fun hooks event => hooks.insert event (.array (existingEntries reader content event ++
    [tpHookEntry (captureHookCommand json hookSocketPath)]))) (existingHooks reader content)

theorem mergedSettings_eq : mergedSettings reader json hookSocketPath content =
    ((readExistingSettings reader content).getD ∅).insert "hooks"
      (.object (ofMap (mergedHooks reader json hookSocketPath content))) := rfl

/-- What the file holds, read by the code. -/
theorem readExistingSettings_eq : readExistingSettings reader content =
    ((content.bind reader.fromSlice).bind Json.asObject).map fun obj =>
      (toMap obj).insert "hooks" (.object (ofMap (match obj.get "hooks" with
        | some (.object rawHooks) => sanitizeHooks rawHooks
        | _ => ∅))) := by
  unfold readExistingSettings
  cases content with
  | none => rfl
  | some text =>
    cases hparsed : reader.fromSlice text with
    | none => simp [hparsed]
    | some parsed =>
      cases hobj : parsed.asObject with
      | none => simp [hparsed, hobj]
      | some obj => simp [hparsed, hobj]

/-- The hooks that the merge starts from are those of the file, sanitised. -/
theorem lookup_existingHooks (key : String) : (existingHooks reader content).lookup key =
    (((fileSettings reader content).get "hooks").bind Json.asObject).bind fun rawHooks =>
      (sanitizeHooks rawHooks).lookup key := by
  rw [existingHooks, readExistingSettings_eq, fileSettings]
  cases (content.bind reader.fromSlice).bind Json.asObject with
  | none => rfl
  | some obj =>
    simp only [Option.map_some, Option.bind_some, AList.lookup_insert, Option.getD_some]
    rw [lookup_toMap, get_ofMap]
    cases hhooks : obj.get "hooks" with
    | none => rfl
    | some value => cases value <;> rfl

/-- The entries before the merge are those of the file. -/
theorem existingEntries_eq {event : String} (h : event ∈ hookEvents) :
    existingEntries reader content event = fileEntries reader content event := by
  rw [existingEntries, lookup_existingHooks, fileEntries, fileHooks]
  cases (((fileSettings reader content).get "hooks").bind Json.asObject) with
  | none => rfl
  | some rawHooks =>
    rw [Option.bind_some, Option.getD_some, lookup_sanitizeHooks_known rawHooks h]
    cases rawHooks.get event with
    | none => rfl
    | some value => cases value <;> rfl

/-- A known event has its entries of the file and one more. -/
theorem lookup_mergedHooks_known {event : String} (h : event ∈ hookEvents) :
    (mergedHooks reader json hookSocketPath content).lookup event =
      some (.array (fileEntries reader content event ++
        [tpHookEntry (captureHookCommand json hookSocketPath)])) := by
  rw [mergedHooks, lookup_foldl_insert (fun event => .array (existingEntries reader content event ++
    [tpHookEntry (captureHookCommand json hookSocketPath)])), if_pos h, existingEntries_eq reader content h]

/-- An unknown event with an array of the file keeps it. -/
theorem lookup_mergedHooks_unknown {key : String} (h : key ∉ hookEvents) {values : List Json}
    (hvalue : (fileHooks reader content).get key = some (.array values)) :
    (mergedHooks reader json hookSocketPath content).lookup key = some (.array values) := by
  rw [mergedHooks, lookup_foldl_insert (fun event => .array (existingEntries reader content event ++
    [tpHookEntry (captureHookCommand json hookSocketPath)])), if_neg h, lookup_existingHooks]
  rw [fileHooks] at hvalue
  cases hraw : ((fileSettings reader content).get "hooks").bind Json.asObject with
  | none => rw [hraw] at hvalue; cases hvalue
  | some rawHooks =>
    rw [hraw] at hvalue
    exact lookup_sanitizeHooks_unknown rawHooks h hvalue

/-- Other fields are those of the file. -/
theorem lookup_mergedSettings {key : String} (h : key ≠ "hooks") :
    (mergedSettings reader json hookSocketPath content).lookup key = (fileSettings reader content).get key := by
  rw [mergedSettings_eq, AList.lookup_insert_ne h, readExistingSettings_eq, fileSettings]
  cases (content.bind reader.fromSlice).bind Json.asObject with
  | none => rfl
  | some obj =>
    rw [Option.map_some, Option.getD_some, AList.lookup_insert_ne h, lookup_toMap,
      Option.getD_some]

end Merge

end Teleprompter.HookSettings
