import Teleprompter.SessionRecords
import Teleprompter.WireGuards

/-!
# Messages between runner, command line and daemon

The messages of the local socket, how they are written and how the guard
reads them. Writing is derived from the type: each message is an object with
its type under `t`, and an optional field that is not there is left out.
Reading walks the fields one by one. Every message that passed the guard once
passes it again unchanged.
-/

namespace Teleprompter.Wire

open JsonValues
open KeyExchange (Label)
open SessionRecords (RecordKind recordKindStr namespaceStr)

section Enumerations

/-- The wire texts of record kinds. -/
def recordKind : TextEnum RecordKind where
  text := recordKindStr
  fromStr
    | "io" => some .io
    | "event" => some .event
    | "meta" => some .metaRecord
    | _ => none
  fromStr_text member := by cases member <;> rfl

/-- The wire texts of namespaces. -/
def recordNamespace : TextEnum SessionRecords.Namespace where
  text := namespaceStr
  fromStr
    | "claude" => some .claude
    | "tp" => some .tp
    | "runner" => some .runner
    | "daemon" => some .daemon
    | _ => none
  fromStr_text member := by cases member <;> rfl

/-- Why a pairing could not begin. -/
inductive IpcPairBeginErrReason where
  | alreadyPending
  | daemonIdTaken
  | relayUnreachable
  | internal
  deriving DecidableEq

/-- The wire texts of these reasons. -/
def pairBeginErrReason : TextEnum IpcPairBeginErrReason where
  text
    | .alreadyPending => "already-pending"
    | .daemonIdTaken => "daemon-id-taken"
    | .relayUnreachable => "relay-unreachable"
    | .internal => "internal"
  fromStr
    | "already-pending" => some .alreadyPending
    | "daemon-id-taken" => some .daemonIdTaken
    | "relay-unreachable" => some .relayUnreachable
    | "internal" => some .internal
    | _ => none
  fromStr_text member := by cases member <;> rfl

/-- Why a pairing failed. -/
inductive IpcPairErrorReason where
  | relayUnreachable
  | relayClosed
  | kxDecryptFailed
  | internal
  deriving DecidableEq

/-- The wire texts of these reasons. -/
def pairErrorReason : TextEnum IpcPairErrorReason where
  text
    | .relayUnreachable => "relay-unreachable"
    | .relayClosed => "relay-closed"
    | .kxDecryptFailed => "kx-decrypt-failed"
    | .internal => "internal"
  fromStr
    | "relay-unreachable" => some .relayUnreachable
    | "relay-closed" => some .relayClosed
    | "kx-decrypt-failed" => some .kxDecryptFailed
    | "internal" => some .internal
    | _ => none
  fromStr_text member := by cases member <;> rfl

/-- Why a pairing or a session was not found or not changed. The removal and
the renaming of a pairing and the deletion of a session have the same two. -/
inductive NotFoundReason where
  | notFound
  | internal
  deriving DecidableEq

/-- The wire texts of these reasons. -/
def notFoundReason : TextEnum NotFoundReason where
  text
    | .notFound => "not-found"
    | .internal => "internal"
  fromStr
    | "not-found" => some .notFound
    | "internal" => some .internal
    | _ => none
  fromStr_text member := by cases member <;> rfl

/-- Reasons of a failed removal of a pairing. -/
abbrev IpcPairRemoveErrReason := NotFoundReason

/-- Reasons of a failed renaming of a pairing. -/
abbrev IpcPairRenameErrReason := NotFoundReason

/-- Reasons of a failed deletion of a session. -/
abbrev IpcSessionDeleteErrReason := NotFoundReason

/-- Reasons of a failed pruning. -/
inductive IpcSessionPruneErrReason where
  | internal
  deriving DecidableEq

/-- The wire texts of these reasons. -/
def sessionPruneErrReason : TextEnum IpcSessionPruneErrReason where
  text
    | .internal => "internal"
  fromStr
    | "internal" => some .internal
    | _ => none
  fromStr_text member := by cases member; rfl

/-- Why a runner ended. -/
inductive ByeReason where
  | signal
  | exit
  deriving DecidableEq

/-- The wire texts of these reasons. -/
def byeReason : TextEnum ByeReason where
  text
    | .signal => "signal"
    | .exit => "exit"
  fromStr
    | "signal" => some .signal
    | "exit" => some .exit
    | _ => none
  fromStr_text member := by cases member <;> rfl

end Enumerations

section Messages

/-- Which sessions a pruning takes. -/
inductive AgeFilter where
  | all
  | olderThan (ms : UInt64)
  deriving DecidableEq

/-- The health of the relay connection of one pairing. -/
structure DoctorRelayStatus where
  /-- The pairing's daemon. -/
  daemonId : String
  /-- The relay's address. -/
  relayUrl : String
  /-- Whether the connection is up. -/
  connected : Bool
  /-- Frontends seen. -/
  peerCount : UInt64
  /-- Whether reconnects are slowed down; older daemons leave it out. -/
  throttled : Option Bool
  deriving DecidableEq

/-- The messages of the local socket. A record has the type `rec`. -/
inductive IpcMessage where
  | hello (sid cwd : String) (worktreePath claudeVersion : Option String) (pid : UInt64)
  | record (sid : String) (kind : RecordKind) (ts : F64) (ns : Option SessionRecords.Namespace)
      (name : Option String) (payload : String)
  | bye (sid : String) (exitCode : F64) (pid : Option UInt64) (reason : Option ByeReason)
  | ack (sid : String) (seq : UInt64)
  | input (sid data : String)
  | resize (sid : String) (cols rows : UInt64)
  | pairBegin (relayUrl : String) (daemonId : Option String) (label : Option Label)
  | pairBeginOk (pairingId qrString daemonId : String)
  | pairBeginErr (reason : IpcPairBeginErrReason) (message : Option String)
  | pairCancel (pairingId : String)
  | pairCompleted (pairingId daemonId : String) (label : Label)
  | pairCancelled (pairingId : String)
  | pairError (pairingId : String) (reason : IpcPairErrorReason) (message : Option String)
  | pairRemove (daemonId : String)
  | pairRemoveOk (daemonId : String) (notifiedPeers : UInt64)
  | pairRemoveErr (daemonId : String) (reason : IpcPairRemoveErrReason)
      (message : Option String)
  | pairRename (daemonId : String) (label : Label)
  | pairRenameOk (daemonId : String) (label : Label) (notifiedPeers : UInt64)
  | pairRenameErr (daemonId : String) (reason : IpcPairRenameErrReason)
      (message : Option String)
  | sessionDelete (sid : String)
  | sessionDeleteOk (sid : String) (wasRunning : Bool)
  | sessionDeleteErr (sid : String) (reason : IpcSessionDeleteErrReason)
      (message : Option String)
  | sessionPrune (age : AgeFilter) (includeRunning dryRun : Bool)
  | sessionPruneOk (sids : List String) (runningKilled : UInt64) (dryRun : Bool)
  | sessionPruneErr (reason : IpcSessionPruneErrReason) (message : Option String)
      (partialSids : List String) (partialRunningKilled : UInt64)
  | doctorProbe
  | doctorProbeOk (relays : List DoctorRelayStatus)
  deriving DecidableEq

end Messages

section Writing

/-- An object with its type under `t`. -/
def tagged (t : String) (fields : List (String × Option Json)) : Json :=
  .object (present (("t", some (.string t)) :: fields))

/-- A string field. -/
@[simp] def textField (name value : String) : String × Option Json := (name, some (.string value))

/-- A string field that may be left out. -/
@[simp] def optTextField (name : String) (value : Option String) : String × Option Json :=
  (name, value.map .string)

/-- An age filter on the wire. -/
def AgeFilter.toJson : AgeFilter → Json
  | .all => .object (present [textField "kind" "all"])
  | .olderThan ms => .object (present [textField "kind" "olderThan", ("ms", some (.ofU64 ms))])

/-- A relay status on the wire. -/
def DoctorRelayStatus.toJson (status : DoctorRelayStatus) : Json :=
  .object (present [textField "daemonId" status.daemonId, textField "relayUrl" status.relayUrl,
    ("connected", some (.bool status.connected)),
    ("peerCount", some (.ofU64 status.peerCount)), ("throttled", status.throttled.map .bool)])

/-- A message on the wire. -/
def IpcMessage.toJson : IpcMessage → Json
  | .hello sid cwd worktreePath claudeVersion pid => tagged "hello"
    [textField "sid" sid, textField "cwd" cwd, optTextField "worktreePath" worktreePath,
      optTextField "claudeVersion" claudeVersion, ("pid", some (.ofU64 pid))]
  | .record sid kind ts ns name payload => tagged "rec"
    [textField "sid" sid, ("kind", some (recordKind.toJson kind)), ("ts", some (.ofF64 ts)),
      ("ns", ns.map recordNamespace.toJson), optTextField "name" name,
      textField "payload" payload]
  | .bye sid exitCode pid reason => tagged "bye"
    [textField "sid" sid, ("exitCode", some (.ofF64 exitCode)), ("pid", pid.map .ofU64),
      ("reason", reason.map byeReason.toJson)]
  | .ack sid seq => tagged "ack" [textField "sid" sid, ("seq", some (.ofU64 seq))]
  | .input sid data => tagged "input" [textField "sid" sid, textField "data" data]
  | .resize sid cols rows => tagged "resize"
    [textField "sid" sid, ("cols", some (.ofU64 cols)), ("rows", some (.ofU64 rows))]
  | .pairBegin relayUrl daemonId label => tagged "pair.begin"
    [textField "relayUrl" relayUrl, optTextField "daemonId" daemonId,
      ("label", label.map labelToJson)]
  | .pairBeginOk pairingId qrString daemonId => tagged "pair.begin.ok"
    [textField "pairingId" pairingId, textField "qrString" qrString,
      textField "daemonId" daemonId]
  | .pairBeginErr reason message => tagged "pair.begin.err"
    [("reason", some (pairBeginErrReason.toJson reason)), optTextField "message" message]
  | .pairCancel pairingId => tagged "pair.cancel" [textField "pairingId" pairingId]
  | .pairCompleted pairingId daemonId label => tagged "pair.completed"
    [textField "pairingId" pairingId, textField "daemonId" daemonId,
      ("label", some (labelToJson label))]
  | .pairCancelled pairingId => tagged "pair.cancelled" [textField "pairingId" pairingId]
  | .pairError pairingId reason message => tagged "pair.error"
    [textField "pairingId" pairingId, ("reason", some (pairErrorReason.toJson reason)),
      optTextField "message" message]
  | .pairRemove daemonId => tagged "pair.remove" [textField "daemonId" daemonId]
  | .pairRemoveOk daemonId notifiedPeers => tagged "pair.remove.ok"
    [textField "daemonId" daemonId, ("notifiedPeers", some (.ofU64 notifiedPeers))]
  | .pairRemoveErr daemonId reason message => tagged "pair.remove.err"
    [textField "daemonId" daemonId, ("reason", some (notFoundReason.toJson reason)),
      optTextField "message" message]
  | .pairRename daemonId label => tagged "pair.rename"
    [textField "daemonId" daemonId, ("label", some (labelToJson label))]
  | .pairRenameOk daemonId label notifiedPeers => tagged "pair.rename.ok"
    [textField "daemonId" daemonId, ("label", some (labelToJson label)),
      ("notifiedPeers", some (.ofU64 notifiedPeers))]
  | .pairRenameErr daemonId reason message => tagged "pair.rename.err"
    [textField "daemonId" daemonId, ("reason", some (notFoundReason.toJson reason)),
      optTextField "message" message]
  | .sessionDelete sid => tagged "session.delete" [textField "sid" sid]
  | .sessionDeleteOk sid wasRunning => tagged "session.delete.ok"
    [textField "sid" sid, ("wasRunning", some (.bool wasRunning))]
  | .sessionDeleteErr sid reason message => tagged "session.delete.err"
    [textField "sid" sid, ("reason", some (notFoundReason.toJson reason)),
      optTextField "message" message]
  | .sessionPrune age includeRunning dryRun => tagged "session.prune"
    [("age", some age.toJson), ("includeRunning", some (.bool includeRunning)),
      ("dryRun", some (.bool dryRun))]
  | .sessionPruneOk sids runningKilled dryRun => tagged "session.prune.ok"
    [("sids", some (.array (sids.map .string))), ("runningKilled", some (.ofU64 runningKilled)),
      ("dryRun", some (.bool dryRun))]
  | .sessionPruneErr reason message partialSids partialRunningKilled =>
    tagged "session.prune.err"
      [("reason", some (sessionPruneErrReason.toJson reason)), optTextField "message" message,
        ("partialSids", some (.array (partialSids.map .string))),
        ("partialRunningKilled", some (.ofU64 partialRunningKilled))]
  | .doctorProbe => tagged "doctor.probe" []
  | .doctorProbeOk relays => tagged "doctor.probe.ok"
    [("relays", some (.array (relays.map DoctorRelayStatus.toJson)))]

end Writing

section Reading

/-- An age filter, when the field has its shape. -/
def parseAgeFilter (v : Option Json) : Option AgeFilter := do
  let obj ← (← v).asObject
  match ← (obj.get "kind").bind Json.asStr with
  | "all" => return .all
  | "olderThan" =>
    let ms ← isNonNegativeInt (← obj.get "ms")
    return .olderThan ms
  | _ => none

/-- One relay status of a probe answer. -/
def parseDoctorRelayStatus (r : Json) : Option DoctorRelayStatus := do
  let ro ← r.asObject
  let daemonId ← reqString ro "daemonId"
  let relayUrl ← reqString ro "relayUrl"
  let connected ← reqBool ro "connected"
  let peerCount ← isNonNegativeInt (← ro.get "peerCount")
  let throttled ← optBool ro "throttled"
  return ⟨daemonId, relayUrl, connected, peerCount, throttled⟩

/-- A message of a known type from its fields. -/
def parseIpcFields (obj : Object) (t : String) : Option IpcMessage := do
  match t with
  | "hello" =>
    let sid ← reqString obj "sid"
    let cwd ← reqString obj "cwd"
    let pid ← isPositiveInt (← obj.get "pid")
    let worktreePath ← optString obj "worktreePath"
    let claudeVersion ← optString obj "claudeVersion"
    return .hello sid cwd worktreePath claudeVersion pid
  | "rec" =>
    let sid ← reqString obj "sid"
    let kind ← recordKind.parse (← obj.get "kind")
    let ts ← isNumber (← obj.get "ts")
    let payload ← reqString obj "payload"
    let ns ← optField recordNamespace.parse (obj.get "ns")
    let name ← optString obj "name"
    return .record sid kind ts ns name payload
  | "bye" =>
    let sid ← reqString obj "sid"
    let exitCode ← isNumber (← obj.get "exitCode")
    let pid ← optField isPositiveInt (obj.get "pid")
    let reason ← optField byeReason.parse (obj.get "reason")
    return .bye sid exitCode pid reason
  | "ack" =>
    let sid ← reqString obj "sid"
    let seq ← isNonNegativeInt (← obj.get "seq")
    return .ack sid seq
  | "input" =>
    let sid ← reqString obj "sid"
    let data ← reqString obj "data"
    return .input sid data
  | "resize" =>
    let sid ← reqString obj "sid"
    let cols ← isTerminalDimension (← obj.get "cols")
    let rows ← isTerminalDimension (← obj.get "rows")
    return .resize sid cols rows
  | "pair.begin" =>
    let relayUrl ← reqString obj "relayUrl"
    let daemonId ← optString obj "daemonId"
    let label ← optField (fun v => parseLabelField (some v)) (obj.get "label")
    return .pairBegin relayUrl daemonId label
  | "pair.begin.ok" =>
    let pairingId ← reqString obj "pairingId"
    let qrString ← reqString obj "qrString"
    let daemonId ← reqString obj "daemonId"
    return .pairBeginOk pairingId qrString daemonId
  | "pair.begin.err" =>
    let reason ← pairBeginErrReason.parse (← obj.get "reason")
    let message ← optString obj "message"
    return .pairBeginErr reason message
  | "pair.cancel" =>
    let pairingId ← reqString obj "pairingId"
    return .pairCancel pairingId
  | "pair.completed" =>
    let pairingId ← reqString obj "pairingId"
    let daemonId ← reqString obj "daemonId"
    let label ← parseLabelField (obj.get "label")
    return .pairCompleted pairingId daemonId label
  | "pair.cancelled" =>
    let pairingId ← reqString obj "pairingId"
    return .pairCancelled pairingId
  | "pair.error" =>
    let pairingId ← reqString obj "pairingId"
    let reason ← pairErrorReason.parse (← obj.get "reason")
    let message ← optString obj "message"
    return .pairError pairingId reason message
  | "pair.remove" =>
    let daemonId ← reqString obj "daemonId"
    return .pairRemove daemonId
  | "pair.remove.ok" =>
    let daemonId ← reqString obj "daemonId"
    let notifiedPeers ← isNonNegativeInt (← obj.get "notifiedPeers")
    return .pairRemoveOk daemonId notifiedPeers
  | "pair.remove.err" =>
    let daemonId ← reqString obj "daemonId"
    let reason ← notFoundReason.parse (← obj.get "reason")
    let message ← optString obj "message"
    return .pairRemoveErr daemonId reason message
  | "pair.rename" =>
    let daemonId ← reqString obj "daemonId"
    let label ← parseLabelField (obj.get "label")
    return .pairRename daemonId label
  | "pair.rename.ok" =>
    let daemonId ← reqString obj "daemonId"
    let label ← parseLabelField (obj.get "label")
    let notifiedPeers ← isNonNegativeInt (← obj.get "notifiedPeers")
    return .pairRenameOk daemonId label notifiedPeers
  | "pair.rename.err" =>
    let daemonId ← reqString obj "daemonId"
    let reason ← notFoundReason.parse (← obj.get "reason")
    let message ← optString obj "message"
    return .pairRenameErr daemonId reason message
  | "session.delete" =>
    let sid ← reqString obj "sid"
    return .sessionDelete sid
  | "session.delete.ok" =>
    let sid ← reqString obj "sid"
    let wasRunning ← reqBool obj "wasRunning"
    return .sessionDeleteOk sid wasRunning
  | "session.delete.err" =>
    let sid ← reqString obj "sid"
    let reason ← notFoundReason.parse (← obj.get "reason")
    let message ← optString obj "message"
    return .sessionDeleteErr sid reason message
  | "session.prune" =>
    let age ← parseAgeFilter (obj.get "age")
    let includeRunning ← reqBool obj "includeRunning"
    let dryRun ← reqBool obj "dryRun"
    return .sessionPrune age includeRunning dryRun
  | "session.prune.ok" =>
    let sids ← asStringArray (← obj.get "sids")
    let runningKilled ← isNonNegativeInt (← obj.get "runningKilled")
    let dryRun ← reqBool obj "dryRun"
    return .sessionPruneOk sids runningKilled dryRun
  | "session.prune.err" =>
    let reason ← sessionPruneErrReason.parse (← obj.get "reason")
    let message ← optString obj "message"
    let partialSids ← asStringArray (← obj.get "partialSids")
    let partialRunningKilled ← isNonNegativeInt (← obj.get "partialRunningKilled")
    return .sessionPruneErr reason message partialSids partialRunningKilled
  | "doctor.probe" => return .doctorProbe
  | "doctor.probe.ok" =>
    let relays ← (← (← obj.get "relays").asArray).mapM parseDoctorRelayStatus
    return .doctorProbeOk relays
  | _ => none

/-- The guard of the local socket. -/
def parseIpcMessage (raw : Json) : Option IpcMessage := do
  let obj ← raw.asObject
  let t ← (obj.get "t").bind Json.asStr
  parseIpcFields obj t

end Reading

section Closure

/-- What the guard promises of a message it returns. -/
def IpcMessage.Valid : IpcMessage → Prop
  | .hello _ _ _ _ pid => 0 < pid
  | .record _ _ ts _ _ _ => ts.isFinite
  | .bye _ exitCode pid _ => exitCode.isFinite ∧ ∀ n, pid = some n → 0 < n
  | .resize _ cols rows => (0 < cols ∧ cols ≤ maxTerminalDimension) ∧
      0 < rows ∧ rows ≤ maxTerminalDimension
  | .pairBegin _ _ label => ∀ l, label = some l → LabelTrimmed l
  | .pairCompleted _ _ label => LabelTrimmed label
  | .pairRename _ label => LabelTrimmed label
  | .pairRenameOk _ label _ => LabelTrimmed label
  | _ => True

theorem parseAgeFilter_toJson (age : AgeFilter) : parseAgeFilter (some age.toJson) = some age := by
  cases age with
  | all => rfl
  | olderThan ms => rfl

theorem parseDoctorRelayStatus_toJson (status : DoctorRelayStatus) :
    parseDoctorRelayStatus status.toJson = some status := by
  simp [parseDoctorRelayStatus, DoctorRelayStatus.toJson]

/-- The type of a written object is read first. -/
theorem parseIpcMessage_tagged (t : String) (fields : List (String × Option Json)) :
    parseIpcMessage (tagged t fields) =
      parseIpcFields (present (("t", some (.string t)) :: fields)) t := by
  simp [parseIpcMessage, tagged]

/-- Every message that satisfies the guards is read back. -/
theorem parseIpcMessage_toJson {m : IpcMessage} (h : m.Valid) :
    parseIpcMessage m.toJson = some m := by
  cases m with
  | hello sid cwd worktreePath claudeVersion pid =>
    have hpid := isPositiveInt_ofU64 (n := pid) h
    simp [IpcMessage.toJson, parseIpcMessage_tagged, parseIpcFields, hpid]
  | record sid kind ts ns name payload =>
    have hts := isNumber_ofF64 (x := ts) h
    simp [IpcMessage.toJson, parseIpcMessage_tagged, parseIpcFields, hts]
  | bye sid exitCode pid reason =>
    have hcode := isNumber_ofF64 (x := exitCode) h.1
    have hpid : optField isPositiveInt (pid.map .ofU64) = some pid :=
      optField_map fun n hn => isPositiveInt_ofU64 (h.2 n hn)
    simp [IpcMessage.toJson, parseIpcMessage_tagged, parseIpcFields, hcode, hpid]
  | resize sid cols rows =>
    have hcols := isTerminalDimension_ofU64 h.1.1 h.1.2
    have hrows := isTerminalDimension_ofU64 h.2.1 h.2.2
    simp [IpcMessage.toJson, parseIpcMessage_tagged, parseIpcFields, hcols, hrows]
  | pairBegin relayUrl daemonId label =>
    have hlabel : optField (fun v => parseLabelField (some v)) (label.map labelToJson) =
        some label := optField_map fun l hl => parseLabelField_labelToJson (h l hl)
    simp [IpcMessage.toJson, parseIpcMessage_tagged, parseIpcFields, hlabel]
  | pairCompleted pairingId daemonId label =>
    have hlabel := parseLabelField_labelToJson (show LabelTrimmed label from h)
    simp [IpcMessage.toJson, parseIpcMessage_tagged, parseIpcFields, hlabel]
  | pairRename daemonId label =>
    have hlabel := parseLabelField_labelToJson (show LabelTrimmed label from h)
    simp [IpcMessage.toJson, parseIpcMessage_tagged, parseIpcFields, hlabel]
  | pairRenameOk daemonId label notifiedPeers =>
    have hlabel := parseLabelField_labelToJson (show LabelTrimmed label from h)
    simp [IpcMessage.toJson, parseIpcMessage_tagged, parseIpcFields, hlabel]
  | sessionPrune age includeRunning dryRun =>
    simp [IpcMessage.toJson, parseIpcMessage_tagged, parseIpcFields, parseAgeFilter_toJson]
  | doctorProbeOk relays =>
    have hrelays : (relays.map DoctorRelayStatus.toJson).mapM parseDoctorRelayStatus =
        some (relays.map id) := mapM_map_eq_some fun status _ => parseDoctorRelayStatus_toJson status
    simp [IpcMessage.toJson, parseIpcMessage_tagged, parseIpcFields, hrelays]
  | ack | input | pairBeginOk | pairBeginErr | pairCancel | pairCancelled | pairError | pairRemove
  | pairRemoveOk | pairRemoveErr | pairRenameErr | sessionDelete | sessionDeleteOk
  | sessionDeleteErr | sessionPruneOk | sessionPruneErr | doctorProbe =>
    simp [IpcMessage.toJson, parseIpcMessage_tagged, parseIpcFields]

/-- What the guard returns satisfies the guards. -/
theorem parseIpcFields_valid (obj : Object) (t : String) :
    Returns IpcMessage.Valid (parseIpcFields obj t) := by
  unfold parseIpcFields
  split
  case h_1 =>
    refine .bind fun sid _ => .bind fun cwd _ => .bind fun v _ => .bind fun pid hpid => ?_
    exact .bind fun _ _ => .bind fun _ _ => .pure (isPositiveInt_pos hpid)
  case h_2 =>
    refine .bind fun sid _ => .bind fun _ _ => .bind fun kind _ => .bind fun _ _ => ?_
    refine .bind fun ts hts => .bind fun payload _ => .bind fun ns _ => ?_
    exact .bind fun name _ => .pure (isNumber_finite hts)
  case h_3 =>
    refine .bind fun sid _ => .bind fun _ _ => .bind fun exitCode hcode => ?_
    refine .bind fun pid hpid => .bind fun reason _ => .pure ⟨isNumber_finite hcode, ?_⟩
    rintro n rfl
    obtain ⟨v, hv⟩ := optField_some hpid
    exact isPositiveInt_pos hv
  case h_6 =>
    refine .bind fun sid _ => .bind fun _ _ => .bind fun cols hcols => ?_
    exact .bind fun _ _ => .bind fun rows hrows =>
      .pure ⟨isTerminalDimension_range hcols, isTerminalDimension_range hrows⟩
  case h_7 =>
    refine .bind fun relayUrl _ => .bind fun daemonId _ => .bind fun label hlabel => .pure ?_
    rintro l rfl
    obtain ⟨v, hv⟩ := optField_some hlabel
    exact labelTrimmed_of_parseLabelField hv
  case h_11 =>
    exact .bind fun pairingId _ => .bind fun daemonId _ => .bind fun label hlabel =>
      .pure (labelTrimmed_of_parseLabelField hlabel)
  case h_17 =>
    exact .bind fun daemonId _ => .bind fun label hlabel =>
      .pure (labelTrimmed_of_parseLabelField hlabel)
  case h_18 =>
    exact .bind fun daemonId _ => .bind fun label hlabel => .bind fun _ _ => .bind fun _ _ =>
      .pure (labelTrimmed_of_parseLabelField hlabel)
  all_goals
    repeat refine Returns.bind fun _ _ => ?_
    first
      | exact Returns.pure trivial
      | exact Returns.none

/-- So does what the whole guard returns. -/
theorem parseIpcMessage_valid {raw : Json} {m : IpcMessage} (h : parseIpcMessage raw = some m) :
    m.Valid := by
  have hreturns : Returns IpcMessage.Valid (parseIpcMessage raw) :=
    .bind fun obj _ => .bind fun t _ => parseIpcFields_valid obj t
  exact hreturns m h

end Closure

end Teleprompter.Wire
