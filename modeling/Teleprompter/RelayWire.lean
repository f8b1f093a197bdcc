import Teleprompter.IpcMessages
import Teleprompter.RelayServer

/-!
# Messages of the relay and of the control channel

The messages between the relay and its clients and the encrypted control
messages, how they are written and how the guards read them. Together with
the messages of the local socket: what one guard accepted, the next one
accepts unchanged, and every message whose fields satisfy the guards survives
being written and read.
-/

namespace Teleprompter.Wire

open JsonValues
open RelayServer (Role Platform InterruptionLevel PushData)
open KeyExchange (Label)

section Enumerations

/-- The wire texts of roles. -/
def roleText : TextEnum Role where
  text
    | .daemon => "daemon"
    | .frontend => "frontend"
  fromStr
    | "daemon" => some .daemon
    | "frontend" => some .frontend
    | _ => none
  fromStr_text member := by cases member <;> rfl

/-- The wire texts of platforms. -/
def platformText : TextEnum Platform where
  text
    | .ios => "ios"
    | .android => "android"
  fromStr
    | "ios" => some .ios
    | "android" => some .android
    | _ => none
  fromStr_text member := by cases member <;> rfl

/-- The wire texts of interruption levels. -/
def interruptionLevelText : TextEnum InterruptionLevel where
  text
    | .active => "active"
    | .timeSensitive => "time-sensitive"
  fromStr
    | "active" => some .active
    | "time-sensitive" => some .timeSensitive
    | _ => none
  fromStr_text member := by cases member <;> rfl

/-- Why a pairing was removed. -/
inductive UnpairReason where
  | userInitiated
  | deviceRemoved
  | rotated
  deriving DecidableEq

/-- The wire texts of these reasons. -/
def unpairReasonText : TextEnum UnpairReason where
  text
    | .userInitiated => "user-initiated"
    | .deviceRemoved => "device-removed"
    | .rotated => "rotated"
  fromStr
    | "user-initiated" => some .userInitiated
    | "device-removed" => some .deviceRemoved
    | "rotated" => some .rotated
    | _ => none
  fromStr_text member := by cases member <;> rfl

end Enumerations

section PushFields

/-- The longest token of an Android device. -/
def maxPushTokenAndroid : ℕ := 1024

/-- The characters of a token of an iOS device. -/
def iosApnsTokenHexLen : ℕ := 64

/-- A token of an iOS device: 64 lower-case hexadecimal digits. -/
def isIosApnsToken (s : String) : Bool :=
  s.utf8ByteSize = iosApnsTokenHexLen ∧
    s.toUTF8.toList.all fun b => (48 ≤ b ∧ b ≤ 57) ∨ (97 ≤ b ∧ b ≤ 102)

/-- Whether a token fits its platform. -/
def tokenOk (platform : Platform) (token : String) : Bool :=
  match platform with
  | .ios => isIosApnsToken token
  | .android => token.utf8ByteSize ≤ maxPushTokenAndroid

/-- The navigation payload on the wire. -/
def pushDataToJson (data : PushData) : Json :=
  .object (present [textField "sid" data.sid, textField "daemonId" data.daemonId,
    textField "event" data.event])

/-- The navigation payload of an object. -/
def parsePushData (v : Json) : Option PushData := do
  let map ← v.asObject
  let sid ← reqString map "sid"
  let daemonId ← reqString map "daemonId"
  let event ← reqString map "event"
  return ⟨sid, daemonId, event⟩

theorem parsePushData_toJson (data : PushData) :
    parsePushData (pushDataToJson data) = some data := by
  simp [parsePushData, pushDataToJson]

@[simp] theorem optField_pushData (data : Option PushData) :
    optField parsePushData (data.map pushDataToJson) = some data :=
  optField_map fun x _ => parsePushData_toJson x

theorem optField_number {value : Option F64} (h : ∀ x, value = some x → x.isFinite) :
    optField isNumber (value.map .ofF64) = some value :=
  optField_map fun x hx => isNumber_ofF64 (h x hx)

theorem optField_number_finite {v : Option Json} {value : Option F64}
    (h : optField isNumber v = some value) : ∀ x, value = some x → x.isFinite := by
  rintro x rfl
  obtain ⟨json, hjson⟩ := optField_some h
  exact isNumber_finite hjson

end PushFields

section Client

/-- Messages from a client to the relay, with the numbers of the wire. -/
inductive RelayClientMessage where
  | auth (role : Role) (daemonId token : String) (v : F64) (frontendId : Option String)
  | authResume (token : String) (v : F64)
  | register (daemonId proof token : String) (v : F64)
  | keyExchange (ct : String) (role : Role)
  | publish (sid ct : String) (seq : UInt64)
  | subscribe (sid : String) (after : Option UInt64)
  | unsubscribe (sid : String)
  | ping (ts : Option F64)
  | push (frontendId sealed title body : String) (interruptionLevel : Option InterruptionLevel)
      (data : Option PushData)
  | pushRegister (frontendId token : String) (platform : Platform)
  deriving DecidableEq

/-- A client message on the wire. -/
def RelayClientMessage.toJson : RelayClientMessage → Json
  | .auth role daemonId token v frontendId => tagged "relay.auth"
    [("role", some (roleText.toJson role)), textField "daemonId" daemonId,
      textField "token" token, ("v", some (.ofF64 v)), optTextField "frontendId" frontendId]
  | .authResume token v => tagged "relay.auth.resume"
    [textField "token" token, ("v", some (.ofF64 v))]
  | .register daemonId proof token v => tagged "relay.register"
    [textField "daemonId" daemonId, textField "proof" proof, textField "token" token,
      ("v", some (.ofF64 v))]
  | .keyExchange ct role => tagged "relay.kx"
    [textField "ct" ct, ("role", some (roleText.toJson role))]
  | .publish sid ct seq => tagged "relay.pub"
    [textField "sid" sid, textField "ct" ct, ("seq", some (.ofU64 seq))]
  | .subscribe sid after => tagged "relay.sub"
    [textField "sid" sid, ("after", after.map .ofU64)]
  | .unsubscribe sid => tagged "relay.unsub" [textField "sid" sid]
  | .ping ts => tagged "relay.ping" [("ts", ts.map .ofF64)]
  | .push frontendId sealed title body interruptionLevel data => tagged "relay.push"
    [textField "frontendId" frontendId, textField "sealed" sealed, textField "title" title,
      textField "body" body,
      ("interruptionLevel", interruptionLevel.map interruptionLevelText.toJson),
      ("data", data.map pushDataToJson)]
  | .pushRegister frontendId token platform => tagged "relay.push.register"
    [textField "frontendId" frontendId, textField "token" token,
      ("platform", some (platformText.toJson platform))]

/-- A client message of a known type from its fields. -/
def parseRelayClientFields (obj : Object) (t : String) : Option RelayClientMessage := do
  match t with
  | "relay.auth" =>
    let role ← roleText.parse (← obj.get "role")
    let daemonId ← reqString obj "daemonId"
    let token ← reqString obj "token"
    let v ← isNumber (← obj.get "v")
    let frontendId ← optString obj "frontendId"
    return .auth role daemonId token v frontendId
  | "relay.auth.resume" =>
    let token ← reqString obj "token"
    let v ← isNumber (← obj.get "v")
    return .authResume token v
  | "relay.register" =>
    let daemonId ← reqString obj "daemonId"
    let proof ← reqString obj "proof"
    let token ← reqString obj "token"
    let v ← isNumber (← obj.get "v")
    return .register daemonId proof token v
  | "relay.kx" =>
    let ct ← reqString obj "ct"
    let role ← roleText.parse (← obj.get "role")
    return .keyExchange ct role
  | "relay.pub" =>
    let sid ← reqString obj "sid"
    let ct ← reqString obj "ct"
    let seq ← isNonNegativeInt (← obj.get "seq")
    return .publish sid ct seq
  | "relay.sub" =>
    let sid ← reqString obj "sid"
    let after ← optField isNonNegativeInt (obj.get "after")
    return .subscribe sid after
  | "relay.unsub" =>
    let sid ← reqString obj "sid"
    return .unsubscribe sid
  | "relay.ping" =>
    let ts ← optNumber obj "ts"
    return .ping ts
  | "relay.push" =>
    let frontendId ← reqString obj "frontendId"
    let sealed ← reqString obj "sealed"
    let title ← reqString obj "title"
    let body ← reqString obj "body"
    let interruptionLevel ← optField interruptionLevelText.parse (obj.get "interruptionLevel")
    let data ← optField parsePushData (obj.get "data")
    return .push frontendId sealed title body interruptionLevel data
  | "relay.push.register" =>
    let frontendId ← reqString obj "frontendId"
    let platform ← platformText.parse (← obj.get "platform")
    let token ← reqString obj "token"
    if tokenOk platform token then return .pushRegister frontendId token platform else none
  | _ => none

/-- The guard of the relay's incoming messages. -/
def parseRelayClientMessage (raw : Json) : Option RelayClientMessage := do
  let obj ← raw.asObject
  let t ← (obj.get "t").bind Json.asStr
  parseRelayClientFields obj t

/-- What the guard promises of a client message it returns. -/
def RelayClientMessage.Valid : RelayClientMessage → Prop
  | .auth _ _ _ v _ => v.isFinite
  | .authResume _ v => v.isFinite
  | .register _ _ _ v => v.isFinite
  | .ping ts => ∀ x, ts = some x → x.isFinite
  | .pushRegister _ token platform => tokenOk platform token
  | _ => True

theorem parseRelayClientMessage_tagged (t : String) (fields : List (String × Option Json)) :
    parseRelayClientMessage (tagged t fields) =
      parseRelayClientFields (present (("t", some (.string t)) :: fields)) t := by
  simp [parseRelayClientMessage, tagged]

/-- Every client message that satisfies the guards is read back. -/
theorem parseRelayClientMessage_toJson {m : RelayClientMessage} (h : m.Valid) :
    parseRelayClientMessage m.toJson = some m := by
  cases m with
  | auth role daemonId token v frontendId =>
    have hv := isNumber_ofF64 (x := v) h
    simp [RelayClientMessage.toJson, parseRelayClientMessage_tagged, parseRelayClientFields, hv]
  | authResume token v =>
    have hv := isNumber_ofF64 (x := v) h
    simp [RelayClientMessage.toJson, parseRelayClientMessage_tagged, parseRelayClientFields, hv]
  | register daemonId proof token v =>
    have hv := isNumber_ofF64 (x := v) h
    simp [RelayClientMessage.toJson, parseRelayClientMessage_tagged, parseRelayClientFields, hv]
  | ping ts =>
    have hts := optField_number h
    simp [RelayClientMessage.toJson, parseRelayClientMessage_tagged, parseRelayClientFields, hts]
  | pushRegister frontendId token platform =>
    have htoken : tokenOk platform token = true := h
    simp [RelayClientMessage.toJson, parseRelayClientMessage_tagged, parseRelayClientFields,
      htoken]
  | keyExchange | publish | subscribe | unsubscribe | push =>
    simp [RelayClientMessage.toJson, parseRelayClientMessage_tagged, parseRelayClientFields]

/-- What the guard returns satisfies the guards. -/
theorem parseRelayClientFields_valid (obj : Object) (t : String) :
    Returns RelayClientMessage.Valid (parseRelayClientFields obj t) := by
  unfold parseRelayClientFields
  split
  case h_1 =>
    refine .bind fun _ _ => .bind fun role _ => .bind fun daemonId _ => ?_
    exact .bind fun token _ => .bind fun _ _ => .bind fun v hv =>
      .bind fun frontendId _ => .pure (isNumber_finite hv)
  case h_2 =>
    exact .bind fun token _ => .bind fun _ _ => .bind fun v hv => .pure (isNumber_finite hv)
  case h_3 =>
    exact .bind fun daemonId _ => .bind fun proof _ => .bind fun token _ =>
      .bind fun _ _ => .bind fun v hv => .pure (isNumber_finite hv)
  case h_8 => exact .bind fun ts hts => .pure (optField_number_finite hts)
  case h_10 =>
    refine .bind fun frontendId _ => .bind fun _ _ => .bind fun platform _ => ?_
    refine .bind fun token _ => ?_
    split
    · rename_i htoken
      exact .pure htoken
    · exact .none
  all_goals
    repeat refine Returns.bind fun _ _ => ?_
    first
      | exact Returns.pure trivial
      | exact Returns.none

/-- So does what the whole guard returns. -/
theorem parseRelayClientMessage_valid {raw : Json} {m : RelayClientMessage}
    (h : parseRelayClientMessage raw = some m) : m.Valid := by
  have hreturns : Returns RelayClientMessage.Valid (parseRelayClientMessage raw) :=
    .bind fun obj _ => .bind fun t _ => parseRelayClientFields_valid obj t
  exact hreturns m h

end Client

section Server

/-- Messages from the relay to a client, with the numbers of the wire. -/
inductive RelayServerMessage where
  | authOk (daemonId : String) (resumeToken : Option String) (resumeExpiresAt : Option F64)
      (resumed : Option Bool)
  | authErr (e : String)
  | registerOk (daemonId : String)
  | registerErr (e : String)
  | frame (sid ct : String) (seq : UInt64) (sender : Role) (frontendId : Option String)
  | keyExchangeFrame (ct : String) (sender : Role)
  | presence (daemonId : String) (online : Bool) (sessions : List String) (lastSeen : F64)
  | pong (ts : Option F64)
  | err (e : String) (m frontendId : Option String)
  | notification (title body : String) (data : Option PushData)
  | pushToken (frontendId sealed : String) (platform : Platform)
  deriving DecidableEq

/-- A server message on the wire. -/
def RelayServerMessage.toJson : RelayServerMessage → Json
  | .authOk daemonId resumeToken resumeExpiresAt resumed => tagged "relay.auth.ok"
    [textField "daemonId" daemonId, optTextField "resumeToken" resumeToken,
      ("resumeExpiresAt", resumeExpiresAt.map .ofF64), ("resumed", resumed.map .bool)]
  | .authErr e => tagged "relay.auth.err" [textField "e" e]
  | .registerOk daemonId => tagged "relay.register.ok" [textField "daemonId" daemonId]
  | .registerErr e => tagged "relay.register.err" [textField "e" e]
  | .frame sid ct seq sender frontendId => tagged "relay.frame"
    [textField "sid" sid, textField "ct" ct, ("seq", some (.ofU64 seq)),
      ("from", some (roleText.toJson sender)), optTextField "frontendId" frontendId]
  | .keyExchangeFrame ct sender => tagged "relay.kx.frame"
    [textField "ct" ct, ("from", some (roleText.toJson sender))]
  | .presence daemonId online sessions lastSeen => tagged "relay.presence"
    [textField "daemonId" daemonId, ("online", some (.bool online)),
      ("sessions", some (.array (sessions.map .string))), ("lastSeen", some (.ofF64 lastSeen))]
  | .pong ts => tagged "relay.pong" [("ts", ts.map .ofF64)]
  | .err e m frontendId => tagged "relay.err"
    [textField "e" e, optTextField "m" m, optTextField "frontendId" frontendId]
  | .notification title body data => tagged "relay.notification"
    [textField "title" title, textField "body" body, ("data", data.map pushDataToJson)]
  | .pushToken frontendId sealed platform => tagged "relay.push.token"
    [textField "frontendId" frontendId, textField "sealed" sealed,
      ("platform", some (platformText.toJson platform))]

/-- A resumed connection has a token and its expiry. -/
def resumeComplete (resumeToken : Option String) (resumeExpiresAt : Option F64)
    (resumed : Option Bool) : Bool :=
  ¬(resumed = some true ∧ (resumeToken.isNone ∨ resumeExpiresAt.isNone))

/-- A server message of a known type from its fields. -/
def parseRelayServerFields (obj : Object) (t : String) : Option RelayServerMessage := do
  match t with
  | "relay.auth.ok" =>
    let daemonId ← reqString obj "daemonId"
    let resumeToken ← optString obj "resumeToken"
    let resumeExpiresAt ← optNumber obj "resumeExpiresAt"
    let resumed ← optBool obj "resumed"
    if resumeComplete resumeToken resumeExpiresAt resumed then
      return .authOk daemonId resumeToken resumeExpiresAt resumed
    else none
  | "relay.auth.err" =>
    let e ← reqString obj "e"
    return .authErr e
  | "relay.register.ok" =>
    let daemonId ← reqString obj "daemonId"
    return .registerOk daemonId
  | "relay.register.err" =>
    let e ← reqString obj "e"
    return .registerErr e
  | "relay.frame" =>
    let sid ← reqString obj "sid"
    let ct ← reqString obj "ct"
    let seq ← relayIsNonNegativeInt (← obj.get "seq")
    let sender ← roleText.parse (← obj.get "from")
    let frontendId ← optString obj "frontendId"
    return .frame sid ct seq sender frontendId
  | "relay.kx.frame" =>
    let ct ← reqString obj "ct"
    let sender ← roleText.parse (← obj.get "from")
    return .keyExchangeFrame ct sender
  | "relay.presence" =>
    let daemonId ← reqString obj "daemonId"
    let online ← reqBool obj "online"
    let sessions ← asStringArray (← obj.get "sessions")
    let lastSeen ← isNumber (← obj.get "lastSeen")
    return .presence daemonId online sessions lastSeen
  | "relay.pong" =>
    let ts ← optNumber obj "ts"
    return .pong ts
  | "relay.err" =>
    let e ← reqString obj "e"
    let m ← optString obj "m"
    let frontendId ← optString obj "frontendId"
    return .err e m frontendId
  | "relay.notification" =>
    let title ← reqString obj "title"
    let body ← reqString obj "body"
    let data ← optField parsePushData (obj.get "data")
    return .notification title body data
  | "relay.push.token" =>
    let frontendId ← reqString obj "frontendId"
    let sealed ← reqString obj "sealed"
    let platform ← platformText.parse (← obj.get "platform")
    return .pushToken frontendId sealed platform
  | _ => none

/-- The guard of the relay's outgoing messages, on the side of the client. -/
def parseRelayServerMessage (raw : Json) : Option RelayServerMessage := do
  let obj ← raw.asObject
  let t ← (obj.get "t").bind Json.asStr
  parseRelayServerFields obj t

/-- What the guard promises of a server message it returns. -/
def RelayServerMessage.Valid : RelayServerMessage → Prop
  | .authOk _ resumeToken resumeExpiresAt resumed =>
    (∀ x, resumeExpiresAt = some x → x.isFinite) ∧
      resumeComplete resumeToken resumeExpiresAt resumed
  | .presence _ _ _ lastSeen => lastSeen.isFinite
  | .pong ts => ∀ x, ts = some x → x.isFinite
  | _ => True

theorem parseRelayServerMessage_tagged (t : String) (fields : List (String × Option Json)) :
    parseRelayServerMessage (tagged t fields) =
      parseRelayServerFields (present (("t", some (.string t)) :: fields)) t := by
  simp [parseRelayServerMessage, tagged]

/-- Every server message that satisfies the guards is read back. -/
theorem parseRelayServerMessage_toJson {m : RelayServerMessage} (h : m.Valid) :
    parseRelayServerMessage m.toJson = some m := by
  cases m with
  | authOk daemonId resumeToken resumeExpiresAt resumed =>
    have hexpires := optField_number h.1
    have hcomplete : resumeComplete resumeToken resumeExpiresAt resumed = true := h.2
    simp [RelayServerMessage.toJson, parseRelayServerMessage_tagged, parseRelayServerFields,
      hexpires, hcomplete]
  | presence daemonId online sessions lastSeen =>
    have hseen := isNumber_ofF64 (x := lastSeen) h
    simp [RelayServerMessage.toJson, parseRelayServerMessage_tagged, parseRelayServerFields,
      hseen]
  | pong ts =>
    have hts := optField_number h
    simp [RelayServerMessage.toJson, parseRelayServerMessage_tagged, parseRelayServerFields, hts]
  | authErr | registerOk | registerErr | frame | keyExchangeFrame | err | notification
  | pushToken =>
    simp [RelayServerMessage.toJson, parseRelayServerMessage_tagged, parseRelayServerFields]

/-- What the guard returns satisfies the guards. -/
theorem parseRelayServerFields_valid (obj : Object) (t : String) :
    Returns RelayServerMessage.Valid (parseRelayServerFields obj t) := by
  unfold parseRelayServerFields
  split
  case h_1 =>
    refine .bind fun daemonId _ => .bind fun resumeToken _ => .bind fun expires hexpires => ?_
    refine .bind fun resumed _ => ?_
    split
    · rename_i hcomplete
      exact .pure ⟨optField_number_finite hexpires, hcomplete⟩
    · exact .none
  case h_7 =>
    refine .bind fun daemonId _ => .bind fun online _ => .bind fun _ _ => ?_
    exact .bind fun sessions _ => .bind fun _ _ => .bind fun lastSeen hseen =>
      .pure (isNumber_finite hseen)
  case h_8 => exact .bind fun ts hts => .pure (optField_number_finite hts)
  all_goals
    repeat refine Returns.bind fun _ _ => ?_
    first
      | exact Returns.pure trivial
      | exact Returns.none

/-- So does what the whole guard returns. -/
theorem parseRelayServerMessage_valid {raw : Json} {m : RelayServerMessage}
    (h : parseRelayServerMessage raw = some m) : m.Valid := by
  have hreturns : Returns RelayServerMessage.Valid (parseRelayServerMessage raw) :=
    .bind fun obj _ => .bind fun t _ => parseRelayServerFields_valid obj t
  exact hreturns m h

end Server

section Control

/-- The encrypted messages between the two sides of a pairing. -/
inductive ControlMessage where
  | unpair (daemonId frontendId : String) (reason : UnpairReason) (ts : F64)
  | rename (daemonId frontendId : String) (label : Label) (ts : F64)
  deriving DecidableEq

/-- A control message before it is encrypted. -/
def ControlMessage.toJson : ControlMessage → Json
  | .unpair daemonId frontendId reason ts => tagged "control.unpair"
    [textField "daemonId" daemonId, textField "frontendId" frontendId,
      ("reason", some (unpairReasonText.toJson reason)), ("ts", some (.ofF64 ts))]
  | .rename daemonId frontendId label ts => tagged "control.rename"
    [textField "daemonId" daemonId, textField "frontendId" frontendId,
      ("label", some (labelToJson label)), ("ts", some (.ofF64 ts))]

/-- A control message of a known type from its fields; a label never refuses
one. -/
def parseControlFields (obj : Object) (t : String) : Option ControlMessage := do
  match t with
  | "control.unpair" =>
    let daemonId ← reqString obj "daemonId"
    let frontendId ← reqString obj "frontendId"
    let reason ← unpairReasonText.parse (← obj.get "reason")
    let ts ← isNumber (← obj.get "ts")
    return .unpair daemonId frontendId reason ts
  | "control.rename" =>
    let daemonId ← reqString obj "daemonId"
    let frontendId ← reqString obj "frontendId"
    let ts ← isNumber (← obj.get "ts")
    return .rename daemonId frontendId (decodeWireLabel ((obj.get "label").getD .null)) ts
  | _ => none

/-- The guard of decrypted control messages. -/
def parseControlMessage (raw : Json) : Option ControlMessage := do
  let obj ← raw.asObject
  let t ← (obj.get "t").bind Json.asStr
  parseControlFields obj t

/-- What the guard promises of a control message it returns. -/
def ControlMessage.Valid : ControlMessage → Prop
  | .unpair _ _ _ ts => ts.isFinite
  | .rename _ _ label ts => LabelTrimmed label ∧ ts.isFinite

theorem parseControlMessage_tagged (t : String) (fields : List (String × Option Json)) :
    parseControlMessage (tagged t fields) =
      parseControlFields (present (("t", some (.string t)) :: fields)) t := by
  simp [parseControlMessage, tagged]

/-- Every control message that satisfies the guards is read back. -/
theorem parseControlMessage_toJson {m : ControlMessage} (h : m.Valid) :
    parseControlMessage m.toJson = some m := by
  cases m with
  | unpair daemonId frontendId reason ts =>
    have hts := isNumber_ofF64 (x := ts) h
    simp [ControlMessage.toJson, parseControlMessage_tagged, parseControlFields, hts]
  | rename daemonId frontendId label ts =>
    have hlabel := decodeWireLabel_labelToJson h.1
    have hts := isNumber_ofF64 (x := ts) h.2
    simp [ControlMessage.toJson, parseControlMessage_tagged, parseControlFields, hlabel, hts]

/-- What the guard returns satisfies the guards. -/
theorem parseControlMessage_valid {raw : Json} {m : ControlMessage}
    (h : parseControlMessage raw = some m) : m.Valid := by
  have hreturns : Returns ControlMessage.Valid (parseControlMessage raw) := by
    refine .bind fun obj _ => .bind fun t _ => ?_
    unfold parseControlFields
    split
    · refine .bind fun daemonId _ => .bind fun frontendId _ => .bind fun _ _ => ?_
      exact .bind fun reason _ => .bind fun _ _ => .bind fun ts hts =>
        .pure (isNumber_finite hts)
    · refine .bind fun daemonId _ => .bind fun frontendId _ => .bind fun _ _ => ?_
      exact .bind fun ts hts =>
        .pure ⟨labelTrimmed_decodeWireLabel _, isNumber_finite hts⟩
    · exact .none
  exact hreturns m h

end Control

section Closure

/-- On each of the four channels, what the guard accepted is accepted again
after being written, as the same message, and every message whose fields
satisfy the guards is read back. -/
theorem wire_closure :
    ((∀ raw m, parseIpcMessage raw = some m → parseIpcMessage m.toJson = some m) ∧
      ∀ m : IpcMessage, m.Valid → parseIpcMessage m.toJson = some m) ∧
    ((∀ raw m, parseRelayClientMessage raw = some m →
        parseRelayClientMessage m.toJson = some m) ∧
      ∀ m : RelayClientMessage, m.Valid → parseRelayClientMessage m.toJson = some m) ∧
    ((∀ raw m, parseRelayServerMessage raw = some m →
        parseRelayServerMessage m.toJson = some m) ∧
      ∀ m : RelayServerMessage, m.Valid → parseRelayServerMessage m.toJson = some m) ∧
    ((∀ raw m, parseControlMessage raw = some m → parseControlMessage m.toJson = some m) ∧
      ∀ m : ControlMessage, m.Valid → parseControlMessage m.toJson = some m) := by
  refine ⟨⟨?_, ?_⟩, ⟨?_, ?_⟩, ⟨?_, ?_⟩, ?_, ?_⟩
  · exact fun raw m h => parseIpcMessage_toJson (parseIpcMessage_valid h)
  · exact fun m h => parseIpcMessage_toJson h
  · exact fun raw m h => parseRelayClientMessage_toJson (parseRelayClientMessage_valid h)
  · exact fun m h => parseRelayClientMessage_toJson h
  · exact fun raw m h => parseRelayServerMessage_toJson (parseRelayServerMessage_valid h)
  · exact fun m h => parseRelayServerMessage_toJson h
  · exact fun raw m h => parseControlMessage_toJson (parseControlMessage_valid h)
  · exact fun m h => parseControlMessage_toJson h

/-- A resize whose width is written as a float, with a field that no guard
reads. -/
def floatResize : Json :=
  tagged "resize" [textField "sid" "s", ("cols", some (.ofF64 (.ofNat 80))),
    ("rows", some (.ofU64 24)), ("unknown", some .null)]

/-- It is accepted, and what was read is accepted again. -/
theorem wire_closure_floatResize :
    parseIpcMessage floatResize = some (.resize "s" 80 24) ∧
      parseIpcMessage (IpcMessage.resize "s" 80 24).toJson = some (.resize "s" 80 24) := by
  have haccepted : parseIpcMessage floatResize = some (.resize "s" 80 24) := by decide +kernel
  exact ⟨haccepted, wire_closure.1.1 floatResize _ haccepted⟩

end Closure

end Teleprompter.Wire
