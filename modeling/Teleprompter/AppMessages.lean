import Teleprompter.IntegerGuards
import Teleprompter.RelayWire

/-!
# The app's side of the relay protocol

The app declares the messages of the relay a second time, as types with a
generated coder. Its integers are signed and of 64 bits, an optional field may
also be null, and fields without a place in a type are passed over. The relay
reads every message of the app as it is meant, if its numbers are not negative,
and the app shows every message of the relay that it has a case for.
-/

namespace Teleprompter.AppMessages

open JsonValues Wire
open RelayServer (PushData Role)

section Coder

/-- A signed number. -/
def ofInt64 (n : Int64) : Json :=
  if 0 ≤ n then .number (.posInt n.toUInt64) else .number (.negInt n)

/-- The largest signed number and one. -/
def twoTo63 : UInt64 := 9223372036854775808

/-- A number without a fraction that is within the bounds. -/
def decodeInt : Json → Option Int64
  | .number (.posInt n) => if n < twoTo63 then some n.toInt64 else none
  | .number (.negInt n) => some n
  | .number (.float x) =>
    let q := x.scaled / 2 ^ 1074
    if x.fractIsZero ∧ -2 ^ 63 ≤ q ∧ q < 2 ^ 63 then some (Int64.ofInt q) else none
  | _ => none

def decodeDouble (v : Json) : Option F64 := v.asF64.filter F64.isFinite

/-- A required field. -/
@[simp] def decode {α : Type} (read : Json → Option α) (obj : Object) (key : String) : Option α :=
  (obj.get key).bind read

/-- What an optional field may be. -/
def decodeOptional {α : Type} (read : Json → Option α) : Option Json → Option (Option α)
  | none => some none
  | some .null => some none
  | some v => (read v).map some

/-- An optional field. -/
@[simp] def decodeIfPresent {α : Type} (read : Json → Option α) (obj : Object) (key : String) :
    Option (Option α) :=
  decodeOptional read (obj.get key)

end Coder

section CoderLaws

variable {α : Type} {read : Json → Option α} {write : α → Json}

/-- An optional field that is left out or written. -/
theorem decodeOptional_map {value : Option α}
    (h : ∀ x, value = some x → read (write x) = some x ∧ write x ≠ .null) :
    decodeOptional read (value.map write) = some value := by
  cases value with
  | none => rfl
  | some x =>
    obtain ⟨hread, hnull⟩ := h x rfl
    have hsome : decodeOptional read (some (write x)) = (read (write x)).map some := by
      cases hv : write x with
      | null => exact absurd hv hnull
      | _ => rfl
    rw [Option.map_some, hsome, hread, Option.map_some]

@[simp] theorem decodeOptional_string (value : Option String) :
    decodeOptional Json.asStr (value.map .string) = some value :=
  decodeOptional_map fun _ _ => ⟨rfl, Json.noConfusion⟩

@[simp] theorem decodeOptional_present (value : String) :
    decodeOptional Json.asStr (some (.string value)) = some (some value) := rfl

@[simp] theorem decodeOptional_bool (value : Option Bool) :
    decodeOptional Json.asBool (value.map .bool) = some value :=
  decodeOptional_map fun _ _ => ⟨rfl, Json.noConfusion⟩

theorem decodeDouble_ofF64 {x : F64} (h : x.isFinite) : decodeDouble (.ofF64 x) = some x :=
  isNumber_ofF64 h

theorem decodeOptional_double {value : Option F64} (h : ∀ x, value = some x → x.isFinite) :
    decodeOptional decodeDouble (value.map .ofF64) = some value := by
  refine decodeOptional_map fun x hx => ⟨decodeDouble_ofF64 (h x hx), ?_⟩
  rw [Json.ofF64, if_pos (h x hx)]
  exact Json.noConfusion

/-- A number that is not negative and within the bounds is one of the app. -/
@[simp] theorem decodeInt_ofU64 (n : UInt64) :
    decodeInt (.ofU64 n) = if n < twoTo63 then some n.toInt64 else none := rfl

/-- A signed number that is not negative is within the bounds. -/
theorem toUInt64_lt_twoTo63 {n : Int64} (h : 0 ≤ n) : n.toUInt64 < twoTo63 := by
  have hbits : 0 ≤ n.toInt := by
    have hle : (0 : Int64).toInt ≤ n.toInt := Int64.le_iff_toInt_le.mp h
    simpa using hle
  have hnat : n.toUInt64.toNat = n.toInt.toNat := Int64.toNat_toUInt64_of_le h
  have hbound : n.toInt < 2 ^ 63 := Int64.toInt_lt n
  rw [UInt64.lt_iff_toNat_lt, hnat]
  have htwo : twoTo63.toNat = 2 ^ 63 := rfl
  omega

@[simp] theorem decodeInt_ofInt64 (n : Int64) : decodeInt (ofInt64 n) = some n := by
  by_cases hn : 0 ≤ n
  · rw [ofInt64, if_pos hn, decodeInt, if_pos (toUInt64_lt_twoTo63 hn), Int64.toInt64_toUInt64]
  · rw [ofInt64, if_neg hn, decodeInt]

/-- The guards read a number of the app if it is not negative. -/
theorem isNonNegativeInt_ofInt64 (n : Int64) :
    isNonNegativeInt (ofInt64 n) = if 0 ≤ n then some n.toUInt64 else none := by
  by_cases hn : 0 ≤ n
  · rw [ofInt64, if_pos hn, if_pos hn]
    rfl
  · have hneg : n.toInt < 0 := by
      have hlt : n.toInt < (0 : Int64).toInt := Int64.lt_iff_toInt_lt.mp (by simpa using hn)
      simpa using hlt
    rw [ofInt64, if_neg hn, if_neg hn]
    exact (IntegerGuards.guards_negInt hneg).1

end CoderLaws

section ToRelay

/-- The version of the protocol. -/
def version : Int64 := 3

/-- The messages of the app to the relay. A ping carries no time. -/
inductive AppFrame where
  | auth (daemonId token frontendId : String)
  | authResume (token : String)
  | ping
  | keyExchange (ct : String)
  | subscribe (sid : String) (after : Option Int64)
  | publish (sid ct : String) (seq : Int64)
  | pushRegister (frontendId token platform : String)
  deriving DecidableEq

/-- A message of the app on the wire. -/
def AppFrame.encode : AppFrame → Json
  | .auth daemonId token frontendId => tagged "relay.auth"
    [("v", some (ofInt64 version)), textField "role" "frontend", textField "daemonId" daemonId,
      textField "token" token, textField "frontendId" frontendId]
  | .authResume token => tagged "relay.auth.resume"
    [textField "token" token, ("v", some (ofInt64 version))]
  | .ping => tagged "relay.ping" []
  | .keyExchange ct => tagged "relay.kx" [textField "ct" ct, textField "role" "frontend"]
  | .subscribe sid after => tagged "relay.sub"
    [textField "sid" sid, ("after", after.map ofInt64)]
  | .publish sid ct seq => tagged "relay.pub"
    [textField "sid" sid, textField "ct" ct, ("seq", some (ofInt64 seq))]
  | .pushRegister frontendId token platform => tagged "relay.push.register"
    [textField "frontendId" frontendId, textField "token" token, textField "platform" platform]

/-- A number of the app as the relay counts. -/
def toUnsigned (n : Int64) : Option UInt64 := if 0 ≤ n then some n.toUInt64 else none

/-- What the relay is to read: nothing when a number is negative, or a token
does not fit its platform. -/
def AppFrame.meant : AppFrame → Option RelayClientMessage
  | .auth daemonId token frontendId =>
    some (.auth .frontend daemonId token (.ofNat 3) (some frontendId))
  | .authResume token => some (.authResume token (.ofNat 3))
  | .ping => some (.ping none)
  | .keyExchange ct => some (.keyExchange ct .frontend)
  | .subscribe sid none => some (.subscribe sid none)
  | .subscribe sid (some after) =>
    (toUnsigned after).map fun number => .subscribe sid (some number)
  | .publish sid ct seq => (toUnsigned seq).map (.publish sid ct)
  | .pushRegister frontendId token platform =>
    ((platformText.fromStr platform).filter fun member => tokenOk member token).map
      (.pushRegister frontendId token)

theorem isNumber_version : isNumber (ofInt64 version) = some (.ofNat 3) := by decide +kernel

/-- The relay reads a message of the app as it is meant. -/
theorem parse_encode (m : AppFrame) : parseRelayClientMessage m.encode = m.meant := by
  have hrole : roleText.parse (.string "frontend") = some .frontend := rfl
  cases m with
  | auth daemonId token frontendId =>
    have hid : optField Json.asStr (some (.string frontendId)) = some (some frontendId) := rfl
    simp [AppFrame.encode, parseRelayClientMessage_tagged, parseRelayClientFields, AppFrame.meant,
      isNumber_version, hrole, hid]
  | authResume token =>
    simp [AppFrame.encode, parseRelayClientMessage_tagged, parseRelayClientFields, AppFrame.meant,
      isNumber_version]
  | ping =>
    simp [AppFrame.encode, parseRelayClientMessage_tagged, parseRelayClientFields, AppFrame.meant,
      optField]
  | keyExchange ct =>
    simp [AppFrame.encode, parseRelayClientMessage_tagged, parseRelayClientFields, AppFrame.meant,
      hrole]
  | subscribe sid after =>
    cases after with
    | none =>
      simp [AppFrame.encode, parseRelayClientMessage_tagged, parseRelayClientFields,
        AppFrame.meant, optField]
    | some number =>
      have hread := isNonNegativeInt_ofInt64 number
      by_cases hn : 0 ≤ number
      · simp [AppFrame.encode, parseRelayClientMessage_tagged, parseRelayClientFields,
          AppFrame.meant, optField, toUnsigned, hread, hn]
      · simp [AppFrame.encode, parseRelayClientMessage_tagged, parseRelayClientFields,
          AppFrame.meant, optField, toUnsigned, hread, hn]
  | publish sid ct seq =>
    have hread := isNonNegativeInt_ofInt64 seq
    by_cases hn : 0 ≤ seq
    · simp [AppFrame.encode, parseRelayClientMessage_tagged, parseRelayClientFields,
        AppFrame.meant, toUnsigned, hread, hn]
    · simp [AppFrame.encode, parseRelayClientMessage_tagged, parseRelayClientFields,
        AppFrame.meant, toUnsigned, hread, hn]
  | pushRegister frontendId token platform =>
    have hread : platformText.parse (.string platform) = platformText.fromStr platform := rfl
    cases hplatform : platformText.fromStr platform with
    | none =>
      simp [AppFrame.encode, parseRelayClientMessage_tagged, parseRelayClientFields,
        AppFrame.meant, hread, hplatform]
    | some member =>
      by_cases htoken : tokenOk member token = true
      · simp [AppFrame.encode, parseRelayClientMessage_tagged, parseRelayClientFields,
          AppFrame.meant, hread, hplatform, htoken]
      · simp [AppFrame.encode, parseRelayClientMessage_tagged, parseRelayClientFields,
          AppFrame.meant, hread, hplatform, htoken]

end ToRelay

section FromRelay

/-- What the app does with a message of the relay. -/
inductive AppEvent where
  | authOk (daemonId : String) (resumeToken : Option String) (resumeExpiresAt : Option F64)
      (resumed : Option Bool)
  | authErr (detail : String)
  | relayError (e : String) (m : Option String)
  | presence (daemonId : String) (online : Bool) (sessions : List String) (lastSeen : F64)
  | pong
  | keyExchangeFrame (ct sender : String)
  | relayFrame (sid ct : String) (seq : Int64) (sender : String) (frontendId : Option String)
  | notification (title body : String) (data : Option PushData)
  deriving DecidableEq

/-- The fields of a message of a known type. -/
def handleFields (obj : Object) (t : String) : Option AppEvent := do
  match t with
  | "relay.auth.ok" =>
    let daemonId ← decode Json.asStr obj "daemonId"
    let resumeToken ← decodeIfPresent Json.asStr obj "resumeToken"
    let resumeExpiresAt ← decodeIfPresent decodeDouble obj "resumeExpiresAt"
    let resumed ← decodeIfPresent Json.asBool obj "resumed"
    return .authOk daemonId resumeToken resumeExpiresAt resumed
  | "relay.auth.err" => return .authErr ((decode Json.asStr obj "e").getD "unknown")
  | "relay.err" =>
    let e ← decode Json.asStr obj "e"
    let m ← decodeIfPresent Json.asStr obj "m"
    return .relayError e m
  | "relay.presence" =>
    let daemonId ← decode Json.asStr obj "daemonId"
    let online ← decode Json.asBool obj "online"
    let sessions ← decode asStringArray obj "sessions"
    let lastSeen ← decode decodeDouble obj "lastSeen"
    return .presence daemonId online sessions lastSeen
  | "relay.pong" => return .pong
  | "relay.kx.frame" =>
    let ct ← decode Json.asStr obj "ct"
    let sender ← decode Json.asStr obj "from"
    return .keyExchangeFrame ct sender
  | "relay.frame" =>
    let sid ← decode Json.asStr obj "sid"
    let ct ← decode Json.asStr obj "ct"
    let seq ← decode decodeInt obj "seq"
    let sender ← decode Json.asStr obj "from"
    let frontendId ← decodeIfPresent Json.asStr obj "frontendId"
    return .relayFrame sid ct seq sender frontendId
  | "relay.notification" =>
    let title ← decode Json.asStr obj "title"
    let body ← decode Json.asStr obj "body"
    let data ← decodeIfPresent parsePushData obj "data"
    return .notification title body data
  | _ => none

/-- The app reads the type of a message, then the message. -/
def handle (data : Json) : Option AppEvent := do
  let obj ← data.asObject
  let t ← decode Json.asStr obj "t"
  handleFields obj t

/-- What the app is to do. Registrations and push tokens are for daemons, and
a frame is numbered within the bounds. -/
def shown : RelayServerMessage → Option AppEvent
  | .authOk daemonId resumeToken resumeExpiresAt resumed =>
    some (.authOk daemonId resumeToken resumeExpiresAt resumed)
  | .authErr e => some (.authErr e)
  | .err e m _ => some (.relayError e m)
  | .presence daemonId online sessions lastSeen =>
    some (.presence daemonId online sessions lastSeen)
  | .pong _ => some .pong
  | .keyExchangeFrame ct sender => some (.keyExchangeFrame ct (roleText.text sender))
  | .frame sid ct seq sender frontendId =>
    if seq < twoTo63 then
      some (.relayFrame sid ct seq.toInt64 (roleText.text sender) frontendId)
    else none
  | .notification title body data => some (.notification title body data)
  | .registerOk _ | .registerErr _ | .pushToken .. => none

theorem handle_tagged (t : String) (fields : List (String × Option Json)) :
    handle (tagged t fields) = handleFields (present (("t", some (.string t)) :: fields)) t := by
  simp [handle, tagged]

@[simp] theorem decodeOptional_pushData (data : Option PushData) :
    decodeOptional parsePushData (data.map pushDataToJson) = some data :=
  decodeOptional_map fun x _ => ⟨parsePushData_toJson x, Json.noConfusion⟩

@[simp] theorem asStr_role (sender : Role) :
    (roleText.toJson sender).asStr = some (roleText.text sender) := rfl

/-- The app shows a message of the relay. -/
theorem handle_toJson {m : RelayServerMessage} (h : m.Valid) : handle m.toJson = shown m := by
  cases m with
  | authOk daemonId resumeToken resumeExpiresAt resumed =>
    have hexpires := decodeOptional_double h.1
    simp [RelayServerMessage.toJson, handle_tagged, handleFields, shown, hexpires]
  | presence daemonId online sessions lastSeen =>
    have hseen := decodeDouble_ofF64 (x := lastSeen) h
    simp [RelayServerMessage.toJson, handle_tagged, handleFields, shown, hseen]
  | frame sid ct seq sender frontendId =>
    by_cases hseq : seq < twoTo63
    · simp [RelayServerMessage.toJson, handle_tagged, handleFields, shown, hseq]
    · simp [RelayServerMessage.toJson, handle_tagged, handleFields, shown, hseq]
  | authErr | registerOk | registerErr | keyExchangeFrame | pong | err | notification
  | pushToken =>
    simp [RelayServerMessage.toJson, handle_tagged, handleFields, shown]

/-- Between the app and the relay: a message of the app is read as it is meant,
and a message of the relay is shown. -/
theorem relay_link :
    (∀ m : AppFrame, parseRelayClientMessage m.encode = m.meant) ∧
      ∀ m : RelayServerMessage, m.Valid → handle m.toJson = shown m :=
  ⟨parse_encode, fun _ h => handle_toJson h⟩

/-- A subscription with a replay, and a presence. -/
theorem relay_link_presence :
    parseRelayClientMessage (AppFrame.subscribe "__meta__" (some 0)).encode =
        some (.subscribe "__meta__" (some 0)) ∧
      handle (RelayServerMessage.presence "d" true ["s"] .zero).toJson =
        some (.presence "d" true ["s"] .zero) :=
  ⟨relay_link.1 _, relay_link.2 _ rfl⟩

end FromRelay

end Teleprompter.AppMessages
