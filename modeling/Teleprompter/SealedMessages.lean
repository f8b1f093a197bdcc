import Teleprompter.AppMessages
import Teleprompter.TerminalInput

/-!
# What the app and the daemon say to each other

Requests of the app and answers of the daemon, each written by one program and
read by the other, which has its own types for them. They travel sealed with
the session keys of the two sides. The daemon takes the fields of a request one
by one, with a default for what is missing; the app reads an answer as a whole
or not at all, and it looks at different types on the control channel and on
the others.
-/

namespace Teleprompter.SealedMessages

open FiniteDictionary JsonValues Wire PairingCrypto RelayServer KeyExchange ControlOrder AppMessages
  TerminalInput
open KeyExchange (Label)
open SessionRecords (StoredRecord toNamespace)
open RecordReplay (standardCodec standardCodec_lawful)
open RelayServer (AuthState framePayload publishedFrame)

/-- The channel of the session list. -/
def metaChannel : String := "__meta__"

/-- The channel of control messages. -/
def controlChannel : String := "__control__"

/-- JSON texts, as the libraries of the two sides write and read them. -/
structure JsonText where
  write : Json → Bytes
  read : Bytes → Option Json

/-- The text under a key of an object. -/
def getStr (v : Json) (key : String) : Option String :=
  (v.asObject.bind fun obj => obj.get key).bind Json.asStr

/-- How the daemon reads the texts. -/
def JsonText.reader (text : JsonText) : JsonReader Json where
  fromSlice := text.read
  getStr := getStr
  isControlMessage v := (parseControlMessage v).isSome

section Requests

/-- What the app asks a daemon for. A timestamp is a number as it is written. -/
inductive AppRequest where
  | hello
  | attach (sid : String)
  | resume (sid : String) (c : Int64)
  | input (kind : InputKind) (sid text : String)
  | resize (sid : String) (cols rows : Int64)
  | createSession (cwd : String) (cols rows : Option Int64)
  | stopSession (sid : String)
  | deleteSession (sid : String)
  | listWorktrees
  | createWorktree (branch : String) (baseBranch path : Option String)
  | removeWorktree (path : String) (force : Bool)
  | controlRename (label : Option String) (ts : Number)
  | controlUnpair (ts : Number)

/-- The channel of a request. -/
def AppRequest.channel : AppRequest → String
  | .attach sid | .resume sid _ | .input _ sid _ | .resize sid _ _ => sid
  | .controlRename .. | .controlUnpair _ => controlChannel
  | _ => metaChannel

/-- The label of a rename. -/
def labelWire : Option String → Json
  | some value => .object (present [("set", some (.bool true)), textField "value" value])
  | none => .object (present [("set", some (.bool false))])

/-- A request before it is sealed. A terminal has at least one column and one
row. -/
def AppRequest.encode (daemonId frontendId : String) : AppRequest → Json
  | .hello => tagged "hello" [("v", some (ofInt64 version))]
  | .attach sid => tagged "attach" [textField "sid" sid]
  | .resume sid c => tagged "resume" [textField "sid" sid, ("c", some (ofInt64 c))]
  | .input .chat sid text => tagged "in.chat" [textField "sid" sid, textField "d" text]
  | .input .term sid text => tagged "in.term"
    [textField "sid" sid, textField "d" (standardCodec.encode (utf8 text))]
  | .resize sid cols rows => tagged "resize"
    [textField "sid" sid, ("cols", some (ofInt64 (max 1 cols))),
      ("rows", some (ofInt64 (max 1 rows)))]
  | .createSession cwd cols rows => tagged "session.create"
    [textField "cwd" cwd, ("cols", cols.map ofInt64), ("rows", rows.map ofInt64)]
  | .stopSession sid => tagged "session.stop" [textField "sid" sid]
  | .deleteSession sid => tagged "session.delete" [textField "sid" sid]
  | .listWorktrees => tagged "worktree.list" []
  | .createWorktree branch baseBranch path => tagged "worktree.create"
    [textField "branch" branch, optTextField "baseBranch" baseBranch, optTextField "path" path]
  | .removeWorktree path force => tagged "worktree.remove"
    [textField "path" path, ("force", some (.bool force))]
  | .controlRename label ts => tagged "control.rename"
    [textField "daemonId" daemonId, textField "frontendId" frontendId,
      ("label", some (labelWire label)), ("ts", some (.number ts))]
  | .controlUnpair ts => tagged "control.unpair"
    [textField "daemonId" daemonId, textField "frontendId" frontendId,
      textField "reason" "user-initiated", ("ts", some (.number ts))]

end Requests

section Daemon

/-- The value of a signed integer. -/
def asI64 : Json → Option Int64
  | .number (.posInt n) => if n < twoTo63 then some n.toInt64 else none
  | .number (.negInt n) => some n
  | _ => none

/-- A dimension of a terminal that is to be started. -/
def asU32 (v : Json) : Option UInt32 :=
  (v.asU64.filter fun n => n.toNat < 2 ^ 32).map UInt64.toUInt32

/-- What the dispatcher is asked for. -/
inductive RelayControl where
  | hello
  | attach (sid : String)
  | detach
  | resume (sid : String) (cursor : Int64)
  | resize (sid : String) (cols rows : UInt64)
  | ping
  | sessionCreate (sid : Option String) (cwd : String) (cols rows : Option UInt32)
  | sessionStop (sid : String)
  | sessionRestart (sid : String)
  | sessionDelete (sid : String)
  | sessionExport (msg : Json)
  | worktreeList
  | worktreeCreate (branch : String) (baseBranch path : Option String)
  | worktreeRemove (path : String) (force : Bool)
  | ignored

/-- The fields of a request, with their defaults. -/
def dispatchRelayControl (msg : Json) : RelayControl :=
  let get (key : String) : Option Json := msg.asObject.bind fun obj => obj.get key
  let str (key : String) : Option String := (get key).bind Json.asStr
  let sid := (str "sid").getD ""
  match (str "t").getD "" with
  | "hello" => .hello
  | "attach" => .attach sid
  | "detach" => .detach
  | "resume" => .resume sid (((get "c").bind asI64).getD 0)
  | "resize" => .resize sid (((get "cols").bind Json.asU64).getD 0)
    (((get "rows").bind Json.asU64).getD 0)
  | "ping" => .ping
  | "session.create" => .sessionCreate (str "sid") ((str "cwd").getD "")
    ((get "cols").bind asU32) ((get "rows").bind asU32)
  | "session.stop" => .sessionStop sid
  | "session.restart" => .sessionRestart sid
  | "session.delete" => .sessionDelete sid
  | "session.export" => .sessionExport msg
  | "worktree.list" => .worktreeList
  | "worktree.create" => .worktreeCreate ((str "branch").getD "") (str "baseBranch") (str "path")
  | "worktree.remove" =>
    .worktreeRemove ((str "path").getD "") (((get "force").bind Json.asBool).getD false)
  | _ => .ignored

/-- What a message of a frontend does at the daemon. -/
inductive DaemonAction where
  | unpair (frontendId : String) (reason : UnpairReason)
  | rename (frontendId : String) (label : Label)
  /-- Input for a terminal, if a runner has the session. -/
  | write (sid : String) (bytes : Option Bytes)
  | control (request : RelayControl)
  | dropped

/-- What a control message does. -/
def peerAction : ControlMessage → DaemonAction
  | .unpair _ frontendId reason _ => .unpair frontendId reason
  | .rename _ frontendId label _ => .rename frontendId label

/-- What a daemon does with an opened message. -/
def daemonAction (daemon : DaemonSide) : Dispatched Json → DaemonAction
  | .peerControl msg =>
    match parseControlMessage msg with
    | some m => peerAction m
    | none => .dropped
  | .input kind sid d _ =>
    .write sid ((onInput standardCodec daemon kind sid d).bind (runnerInput standardCodec))
  | .controlMessage msg _ => .control (dispatchRelayControl msg)
  | .dropped => .dropped

/-- A dimension of a terminal as the daemon takes it. -/
def dimension (n : Int64) : Option UInt32 :=
  if 0 ≤ n ∧ n.toUInt64.toNat < 2 ^ 32 then some n.toUInt64.toUInt32 else none

/-- What the daemon is to do for a request. -/
def AppRequest.meant (daemon : DaemonSide) (frontendId : String) : AppRequest → DaemonAction
  | .hello => .control .hello
  | .attach sid => .control (.attach sid)
  | .resume sid c => .control (.resume sid c)
  | .input .chat sid text =>
    .write sid (if sid ∈ daemon.runners then some (utf8 (text ++ "\r")) else none)
  | .input .term sid text => .write sid (if sid ∈ daemon.runners then some (utf8 text) else none)
  | .resize sid cols rows =>
    .control (.resize sid (max 1 cols).toUInt64 (max 1 rows).toUInt64)
  | .createSession cwd cols rows =>
    .control (.sessionCreate none cwd (cols.bind dimension) (rows.bind dimension))
  | .stopSession sid => .control (.sessionStop sid)
  | .deleteSession sid => .control (.sessionDelete sid)
  | .listWorktrees => .control .worktreeList
  | .createWorktree branch baseBranch path =>
    .control (.worktreeCreate branch baseBranch path)
  | .removeWorktree path force => .control (.worktreeRemove path force)
  | .controlRename label _ => .rename frontendId (makeLabel label)
  | .controlUnpair _ => .unpair frontendId .userInitiated

end Daemon

section RequestLaws

@[simp] theorem asI64_ofInt64 (n : Int64) : asI64 (ofInt64 n) = some n := by
  by_cases hn : 0 ≤ n
  · rw [ofInt64, if_pos hn, asI64, if_pos (toUInt64_lt_twoTo63 hn), Int64.toInt64_toUInt64]
  · rw [ofInt64, if_neg hn, asI64]

theorem asU64_ofInt64 (n : Int64) :
    (ofInt64 n).asU64 = if 0 ≤ n then some n.toUInt64 else none := by
  rw [ofInt64]
  split
  · rfl
  · rfl

@[simp] theorem asU32_ofInt64 (n : Int64) : asU32 (ofInt64 n) = dimension n := by
  rw [asU32, asU64_ofInt64, dimension]
  by_cases hn : 0 ≤ n
  · rw [if_pos hn, Option.filter_some]
    by_cases hsmall : n.toUInt64.toNat < 2 ^ 32
    · rw [if_pos (decide_eq_true hsmall), if_pos ⟨hn, hsmall⟩, Option.map_some]
    · rw [if_neg (by rwa [decide_eq_true_eq]), if_neg fun h => hsmall h.2, Option.map_none]
  · rw [if_neg hn, if_neg fun h => hn h.1, Option.filter_none, Option.map_none]

/-- A clamped dimension is not negative. -/
theorem one_le_max (n : Int64) : 0 ≤ max 1 n := by
  change 0 ≤ if 1 ≤ n then n else 1
  split
  · rename_i hle
    exact Int64.le_trans (by decide) hle
  · decide

@[simp] theorem asU64_max (n : Int64) :
    (ofInt64 (max 1 n)).asU64 = some (max 1 n).toUInt64 := by
  rw [asU64_ofInt64, if_pos (one_le_max n)]

@[simp] theorem getStr_tagged (t : String) (fields : List (String × Option Json)) (key : String) :
    getStr (tagged t fields) key =
      ((present (("t", some (.string t)) :: fields)).get key).bind Json.asStr := rfl

@[simp] theorem bind_get_tagged (t : String) (fields : List (String × Option Json))
    (key : String) : ((tagged t fields).asObject.bind fun obj => obj.get key) =
      (present (("t", some (.string t)) :: fields)).get key := rfl

/-- The daemon reads the label of a rename. -/
theorem decodeWireLabel_labelWire (label : Option String) :
    decodeWireLabel (labelWire label) = makeLabel label := by
  cases label with
  | none => rfl
  | some value => simp [labelWire, decodeWireLabel]

variable {suite : CryptoSuite} {text : JsonText} {daemon : DaemonSide}

/-- A message that opens and is read is dispatched by its type. -/
theorem decryptAndDispatch_of_read {frame : Frame} {frontendId : String} {key : Key}
    {plaintext : Bytes} {t : String} {fields : List (String × Option Json)}
    (hopens : openBlob suite frame.ct key = some plaintext)
    (hread : text.read plaintext = some (tagged t fields)) :
    decryptAndDispatch suite text.reader frame frontendId key =
      some (if frame.sid = controlChannel ∧ (t = "control.unpair" ∨ t = "control.rename") then
          if (parseControlMessage (tagged t fields)).isSome then .peerControl (tagged t fields)
          else .dropped
        else if t = "in.chat" ∨ t = "in.term" then
          match getStr (tagged t fields) "sid", getStr (tagged t fields) "d" with
          | some sid, some d => .input (if t = "in.chat" then .chat else .term) sid d frontendId
          | _, _ => .dropped
        else .controlMessage (tagged t fields) frontendId) := by
  have ht : text.reader.getStr (tagged t fields) "t" = some t := by
    change getStr (tagged t fields) "t" = some t
    simp
  have hvalue : text.reader.fromSlice plaintext = some (tagged t fields) := hread
  rw [decryptAndDispatch, hopens, Option.bind_some, hvalue, Option.map_some, ht, Option.getD_some]
  rfl

/-- So is a message that is neither a control message nor input. -/
theorem daemonAction_control {frame : Frame} {frontendId : String} {key : Key}
    {plaintext : Bytes} {t : String} {fields : List (String × Option Json)}
    (hopens : openBlob suite frame.ct key = some plaintext)
    (hread : text.read plaintext = some (tagged t fields))
    (hcontrol : t ≠ "control.unpair" ∧ t ≠ "control.rename")
    (hinput : t ≠ "in.chat" ∧ t ≠ "in.term") :
    (decryptAndDispatch suite text.reader frame frontendId key).map (daemonAction daemon) =
      some (.control (dispatchRelayControl (tagged t fields))) := by
  have hno : ¬(frame.sid = controlChannel ∧ (t = "control.unpair" ∨ t = "control.rename")) :=
    fun h => h.2.elim hcontrol.1 hcontrol.2
  rw [decryptAndDispatch_of_read hopens hread, if_neg hno, if_neg (not_or.mpr hinput),
    Option.map_some]
  rfl

/-- A control message on its channel is for the pairing. -/
theorem daemonAction_peerControl {frame : Frame} {frontendId : String} {key : Key}
    {plaintext : Bytes} {t : String} {fields : List (String × Option Json)} {m : ControlMessage}
    (hopens : openBlob suite frame.ct key = some plaintext)
    (hread : text.read plaintext = some (tagged t fields))
    (hchannel : frame.sid = controlChannel) (ht : t = "control.unpair" ∨ t = "control.rename")
    (hparse : parseControlMessage (tagged t fields) = some m) :
    (decryptAndDispatch suite text.reader frame frontendId key).map (daemonAction daemon) =
      some (peerAction m) := by
  rw [decryptAndDispatch_of_read hopens hread, if_pos ⟨hchannel, ht⟩, hparse, Option.isSome_some,
    if_pos rfl, Option.map_some, daemonAction, hparse]

/-- A line of chat is written with its return. -/
theorem onInput_chat (sid typed : String) :
    (onInput standardCodec daemon .chat sid typed).bind (runnerInput standardCodec) =
      if sid ∈ daemon.runners then some (utf8 (typed ++ "\r")) else none := by
  by_cases hsid : sid ∈ daemon.runners
  · simp only [onInput, if_pos hsid, Option.bind_some]
    exact (standardCodec_lawful.decode_iff _ _).mpr rfl
  · simp only [onInput, if_neg hsid, Option.bind_none]

/-- The text of terminal input is written as it was handed over. -/
theorem onInput_term (sid typed : String) :
    (onInput standardCodec daemon .term sid (standardCodec.encode (utf8 typed))).bind
        (runnerInput standardCodec) =
      if sid ∈ daemon.runners then some (utf8 typed) else none := by
  by_cases hsid : sid ∈ daemon.runners
  · simp only [onInput, if_pos hsid, Option.bind_some]
    exact (standardCodec_lawful.decode_iff _ _).mpr rfl
  · simp only [onInput, if_neg hsid, Option.bind_none]

/-- The timestamp of a request can be written. -/
def AppRequest.Writable : AppRequest → Prop
  | .controlRename _ ts | .controlUnpair ts => (isNumber (.number ts)).isSome
  | _ => True

/-- Whatever the app asks for, the daemon does what was meant. -/
theorem decryptAndDispatch_request {frame : Frame} {daemonId frontendId : String} {key : Key}
    {plaintext : Bytes} {r : AppRequest} (hwritable : r.Writable)
    (hopens : openBlob suite frame.ct key = some plaintext)
    (hread : text.read plaintext = some (r.encode daemonId frontendId))
    (hchannel : frame.sid = r.channel) :
    (decryptAndDispatch suite text.reader frame frontendId key).map (daemonAction daemon) =
      some (r.meant daemon frontendId) := by
  cases r with
  | hello | attach | stopSession | deleteSession | listWorktrees | resume | resize =>
    rw [daemonAction_control hopens hread (by decide) (by decide)]
    simp [dispatchRelayControl, AppRequest.meant]
  | createSession cwd cols rows =>
    rw [daemonAction_control hopens hread (by decide) (by decide)]
    cases cols <;> cases rows <;> simp [dispatchRelayControl, AppRequest.meant]
  | createWorktree branch baseBranch path =>
    rw [daemonAction_control hopens hread (by decide) (by decide)]
    cases baseBranch <;> cases path <;> simp [dispatchRelayControl, AppRequest.meant]
  | removeWorktree path force =>
    rw [daemonAction_control hopens hread (by decide) (by decide)]
    simp [dispatchRelayControl, AppRequest.meant]
  | input kind sid typed =>
    cases kind with
    | chat =>
      rw [decryptAndDispatch_of_read hopens hread, Option.map_some]
      simp [daemonAction, AppRequest.meant, onInput_chat]
    | term =>
      rw [decryptAndDispatch_of_read hopens hread, Option.map_some]
      simp [daemonAction, AppRequest.meant, onInput_term]
  | controlRename label ts =>
    obtain ⟨x, hx⟩ := Option.isSome_iff_exists.mp hwritable
    have hparse : parseControlMessage ((AppRequest.controlRename label ts).encode daemonId
        frontendId) = some (.rename daemonId frontendId (makeLabel label) x) := by
      simp [AppRequest.encode, parseControlMessage_tagged, parseControlFields, hx,
        decodeWireLabel_labelWire]
    exact daemonAction_peerControl hopens hread hchannel (.inr rfl) hparse
  | controlUnpair ts =>
    obtain ⟨x, hx⟩ := Option.isSome_iff_exists.mp hwritable
    have hreason : unpairReasonText.parse (.string "user-initiated") = some .userInitiated := rfl
    have hparse : parseControlMessage ((AppRequest.controlUnpair ts).encode daemonId frontendId) =
        some (.unpair daemonId frontendId .userInitiated x) := by
      simp [AppRequest.encode, parseControlMessage_tagged, parseControlFields, hx, hreason]
    exact daemonAction_peerControl hopens hread hchannel (.inl rfl) hparse

end RequestLaws

section Carrying

/-- What the relay sends on when a client publishes. -/
def carried (client : AuthState) (raw : Json) : Option Json :=
  match parseRelayClientMessage raw with
  | some (.publish sid ct seq) =>
    let frame := framePayload (publishedFrame client sid ct seq.toNat)
    some (Wire.RelayServerMessage.frame frame.sid frame.ct (.ofNat frame.seq) frame.sender
      frame.frontendId).toJson
  | _ => none

/-- A frame at the daemon. -/
def daemonFrame (raw : Json) : Option Frame :=
  match parseRelayServerMessage raw with
  | some (.frame sid ct seq sender frontendId) => some ⟨sid, ct, seq.toNat, sender, frontendId⟩
  | _ => none

/-- What the daemon does with a message of the relay. -/
def daemonReads (suite : CryptoSuite) (text : JsonText) (daemon : DaemonSide) (raw : Json) :
    Option DaemonAction :=
  (daemonFrame raw).bind fun frame =>
    (handleFrame suite text.reader daemon.peers frame).map (daemonAction daemon)

variable {suite : CryptoSuite} {text : JsonText}

/-- The relay sends on what the app publishes, with the name of the app. -/
theorem carried_encode {client : AuthState} (hrole : client.role = .frontend)
    (sid ct : String) :
    carried client (AppFrame.publish sid ct 0).encode =
      some (Wire.RelayServerMessage.frame sid ct 0 .frontend client.frontendId).toJson := by
  have hparse : parseRelayClientMessage (AppFrame.publish sid ct 0).encode =
      some (.publish sid ct 0) := parse_encode (.publish sid ct 0)
  rw [carried, hparse]
  simp [framePayload, publishedFrame, hrole]

/-- A text of a value: it is read back, also after it was sealed and opened. -/
def Survives (suite : CryptoSuite) (text : JsonText) (key : Key) (nonce : Nonce) (v : Json) :
    Prop :=
  openBlob suite (sealBlob suite (text.write v) key nonce) key = some (text.write v) ∧
    text.read (text.write v) = some v

/-- Whatever the app asks for, sealed with the key of its daemon and published
through the relay: the daemon does what was meant. -/
theorem request_link {client : AuthState} {daemon : DaemonSide} {frontendId : String}
    {peer : FrontendPeer} {nonce : Nonce} {r : AppRequest}
    (hrole : client.role = .frontend) (hclient : client.frontendId = some frontendId)
    (hpeer : daemon.peers.lookup frontendId = some peer) (hwritable : r.Writable)
    (hsurvives : Survives suite text peer.sessionKeys.rx nonce
      (r.encode client.daemonId frontendId)) :
    (carried client (AppFrame.publish r.channel (sealBlob suite
        (text.write (r.encode client.daemonId frontendId)) peer.sessionKeys.rx nonce) 0).encode).bind
        (daemonReads suite text daemon) = some (r.meant daemon frontendId) := by
  have hframe : ∀ ct, daemonFrame (Wire.RelayServerMessage.frame r.channel ct 0 .frontend
      (some frontendId)).toJson = some ⟨r.channel, ct, 0, .frontend, some frontendId⟩ := by
    intro ct
    have hvalid : (Wire.RelayServerMessage.frame r.channel ct 0 .frontend
        (some frontendId)).Valid := trivial
    rw [daemonFrame, parseRelayServerMessage_toJson hvalid]
    rfl
  rw [carried_encode hrole, hclient, Option.bind_some, daemonReads, hframe, Option.bind_some,
    handleFrame, if_pos rfl, Option.bind_some, hpeer, Option.map_some]
  exact decryptAndDispatch_request hwritable hsurvives.1 hsurvives.2 rfl

/-- A line of chat for a session. -/
def chatLine : AppRequest := .input .chat "s" "hi"

/-- JSON text of the line. -/
def chatLineJson : Bytes :=
  bytesOfNat 34 0x7b2274223a22696e2e63686174222c22736964223a2273222c2264223a226869227d

/-- Its ciphertext and tag under the session key. -/
def chatLineCt : Bytes :=
  bytesOfNat 25 0x442a6490464756ba0169ec1f9cc256a49cf68941a40cec358f ++
    bytesOfNat 25 0xcf2c3eeb6e4579d555d122c592da2506bcea76ee55ae4234a7

/-- The cipher on the line, and base64. -/
def chatSuite : CryptoSuite :=
  { inputSuite with
    aeadEncrypt := fun key nonce msg =>
      if key = sampleSecondHalf ∧ nonce = inputNonce ∧ msg = chatLineJson then chatLineCt else []
    aeadDecrypt := fun key nonce ct =>
      if key = sampleSecondHalf ∧ nonce = inputNonce ∧ ct = chatLineCt then some chatLineJson
      else none }

/-- The text of the line. -/
def chatText : JsonText where
  write _ := chatLineJson
  read bytes := if bytes = chatLineJson then some (chatLine.encode "d1" "f") else none

/-- The app of the daemon at the relay. -/
def inputClient : AuthState := ⟨.frontend, "d1", some "f", ∅⟩

/-- The line is written to the terminal with its return. -/
theorem request_link_chatLine :
    (carried inputClient (AppFrame.publish "s" (sealBlob chatSuite
        (chatText.write (chatLine.encode "d1" "f")) sampleSecondHalf inputNonce) 0).encode).bind
        (daemonReads chatSuite chatText (inputDaemons "d1")) =
      some (chatLine.meant (inputDaemons "d1") "f") ∧
    chatLine.meant (inputDaemons "d1") "f" = .write "s" (some (utf8 "hi\r")) := by
  have hopens : openBlob chatSuite (sealBlob chatSuite chatLineJson sampleSecondHalf inputNonce)
      sampleSecondHalf = some chatLineJson := by decide +kernel
  have hsurvives : Survives chatSuite chatText sampleSecondHalf inputNonce
      (chatLine.encode "d1" "f") := ⟨hopens, by simp only [chatText, if_pos]⟩
  have hmeant : chatLine.meant (inputDaemons "d1") "f" = .write "s" (some (utf8 "hi\r")) := rfl
  have hpeer : (inputDaemons "d1").peers.lookup "f" =
      some ⟨sampleAppPublic, ⟨sampleSecondHalf, sampleFirstHalf⟩, 3, none, none⟩ := rfl
  have hwritable : chatLine.Writable := trivial
  exact ⟨request_link rfl rfl hpeer hwritable hsurvives, hmeant⟩

end Carrying

section Answers

/-- A session in the daemon's store. -/
structure StoredSession where
  sid : String
  state : String
  worktreePath : Option String
  cwd : String
  createdAt : Int64
  updatedAt : Int64
  claudeVersion : Option String
  lastSeq : Int64

/-- A state of a session on the wire; an unknown one is an error. -/
def wireState (state : String) : String :=
  if state = "running" ∨ state = "stopped" ∨ state = "error" then state else "error"

/-- A session on the wire. -/
def toWireSessionMeta (m : StoredSession) : Json :=
  .object (present [textField "sid" m.sid, textField "state" (wireState m.state),
    textField "cwd" m.cwd, ("createdAt", some (ofInt64 m.createdAt)),
    ("updatedAt", some (ofInt64 m.updatedAt)), ("lastSeq", some (ofInt64 m.lastSeq)),
    optTextField "worktreePath" m.worktreePath, optTextField "claudeVersion" m.claudeVersion])

/-- A record of a session in the store, its payload in base64. -/
structure StoredRec where
  seq : Int64
  kind : String
  ts : Int64
  ns : Option String
  name : Option String
  payload : Bytes

/-- A record on the wire. -/
def toSessionRec (sid : String) (r : StoredRec) : Json :=
  tagged "rec" [textField "sid" sid, ("seq", some (ofInt64 r.seq)), textField "k" r.kind,
    optTextField "ns" (toNamespace r.ns), optTextField "n" r.name,
    textField "d" (standardCodec.encode r.payload), ("ts", some (ofInt64 r.ts))]

/-- A worktree of the daemon's repository. -/
structure WorktreeInfo where
  path : String
  branch : Option String
  head : String
  isMain : Bool
  deriving DecidableEq

/-- A worktree on the wire; a missing branch is a null. -/
def worktreeInfoJson (wt : WorktreeInfo) : Json :=
  .object (present [textField "path" wt.path,
    ("branch", some ((wt.branch.map Json.string).getD .null)), textField "head" wt.head,
    ("isMain", some (.bool wt.isMain))])

/-- What the daemon says to an app. -/
inductive DaemonAnswer where
  | hello (sessions : List StoredSession) (daemonLabel : Option Label) (pct : Option String)
  | state (sid : String) (d : StoredSession)
  | batch (sid : String) (d : List StoredRec)
  /-- A record as it comes in, with the timestamp of its runner. -/
  | liveRec (sid : String) (seq : Int64) (k : String) (ns n : Option String) (d : String) (ts : F64)
  | sessionRemoved (sid : String)
  | sessionCreateOk (sid : String)
  | sessionDeleteOk (sid : String) (wasRunning : Bool)
  | sessionDeleteErr (sid reason : String) (message : Option String)
  | sessionExported (sid format d : String)
  | pong
  | err (e m : String)
  | worktreeList (d : List WorktreeInfo)
  | worktreeCreated (d : WorktreeInfo) (sid : String)
  | worktreeRemoved (path : String)
  | control (m : ControlMessage)

/-- An answer before it is sealed. -/
def DaemonAnswer.toJson : DaemonAnswer → Json
  | .hello sessions daemonLabel pct => tagged "hello"
    [("v", some (ofInt64 1)), ("d", some (.object (present
      [("sessions", some (.array (sessions.map toWireSessionMeta))),
        ("daemonLabel", daemonLabel.map labelToJson), optTextField "pct" pct])))]
  | .state sid d => tagged "state" [textField "sid" sid, ("d", some (toWireSessionMeta d))]
  | .batch sid d => tagged "batch"
    [textField "sid" sid, ("d", some (.array (d.map (toSessionRec sid))))]
  | .liveRec sid seq k ns n d ts => tagged "rec"
    [textField "sid" sid, ("seq", some (ofInt64 seq)), textField "k" k, optTextField "ns" ns,
      optTextField "n" n, textField "d" d, ("ts", some (.ofF64 ts))]
  | .sessionRemoved sid => tagged "session.removed" [textField "sid" sid]
  | .sessionCreateOk sid => tagged "session.create.ok" [textField "sid" sid]
  | .sessionDeleteOk sid wasRunning => tagged "session.delete.ok"
    [textField "sid" sid, ("wasRunning", some (.bool wasRunning))]
  | .sessionDeleteErr sid reason message => tagged "session.delete.err"
    [textField "sid" sid, textField "reason" reason, optTextField "message" message]
  | .sessionExported sid format d => tagged "session.exported"
    [textField "sid" sid, textField "format" format, textField "d" d]
  | .pong => tagged "pong" []
  | .err e m => tagged "err" [textField "e" e, textField "m" m]
  | .worktreeList d => tagged "worktree.list" [("d", some (.array (d.map worktreeInfoJson)))]
  | .worktreeCreated d sid => tagged "worktree.created"
    [("d", some (worktreeInfoJson d)), textField "sid" sid]
  | .worktreeRemoved path => tagged "worktree.removed" [textField "path" path]
  | .control m => m.toJson

end Answers

section App

/-- A session as the app reads it. -/
structure SessionMeta where
  sid : String
  state : String
  cwd : String
  createdAt : F64
  updatedAt : F64
  lastSeq : Int64
  deriving DecidableEq

/-- A record as the app reads it. -/
structure SessionRec where
  sid : String
  seq : Int64
  k : String
  ns : Option String
  n : Option String
  d : String
  ts : F64
  deriving DecidableEq

/-- A list whose elements are read one by one. -/
def decodeArray {α : Type} (read : Json → Option α) (v : Json) : Option (List α) :=
  v.asArray.bind (List.mapM read)

def decodeSessionMeta (v : Json) : Option SessionMeta := do
  let obj ← v.asObject
  let sid ← decode Json.asStr obj "sid"
  let state ← decode Json.asStr obj "state"
  let cwd ← decode Json.asStr obj "cwd"
  let createdAt ← decode decodeDouble obj "createdAt"
  let updatedAt ← decode decodeDouble obj "updatedAt"
  let lastSeq ← decode decodeInt obj "lastSeq"
  return ⟨sid, state, cwd, createdAt, updatedAt, lastSeq⟩

def decodeSessionRec (v : Json) : Option SessionRec := do
  let obj ← v.asObject
  let _ ← decode Json.asStr obj "t"
  let sid ← decode Json.asStr obj "sid"
  let seq ← decode decodeInt obj "seq"
  let k ← decode Json.asStr obj "k"
  let ns ← decodeIfPresent Json.asStr obj "ns"
  let n ← decodeIfPresent Json.asStr obj "n"
  let d ← decode Json.asStr obj "d"
  let ts ← decode decodeDouble obj "ts"
  return ⟨sid, seq, k, ns, n, d, ts⟩

def decodeWorktreeInfo (v : Json) : Option WorktreeInfo := do
  let obj ← v.asObject
  let path ← decode Json.asStr obj "path"
  let branch ← decodeIfPresent Json.asStr obj "branch"
  let head ← decode Json.asStr obj "head"
  let isMain ← decode Json.asBool obj "isMain"
  return ⟨path, branch, head, isMain⟩

/-- The label of an inbound rename; there is none when it is not set. -/
def decodeLabelWire (v : Json) : Option (Option String) := do
  let obj ← v.asObject
  let set ← decode Json.asBool obj "set"
  let value ← decodeIfPresent Json.asStr obj "value"
  return if set then value else none

/-- What the app does with an answer. -/
inductive AppAction where
  | onUnpair (daemonId reason : String)
  | onRename (daemonId : String) (label : Option String)
  | onWorktreeList (list : List WorktreeInfo)
  | onWorktreeCreated (wt : WorktreeInfo)
  | onWorktreeRemoved (path : String)
  | onControlErr (code : String) (message : Option String)
  | onHello (sessions : List SessionMeta) (pct : Option String)
  | onState (sid : String) (d : SessionMeta)
  | onBatch (sid : String) (d : List SessionRec)
  | onRec (r : SessionRec)
  deriving DecidableEq

/-- An answer on the control channel. -/
def onControlFrame (obj : Object) (t : String) : Option AppAction := do
  match t with
  | "control.unpair" =>
    let daemonId ← decode Json.asStr obj "daemonId"
    let _ ← decode Json.asStr obj "frontendId"
    let reason ← decode Json.asStr obj "reason"
    return .onUnpair daemonId reason
  | "control.rename" =>
    let daemonId ← decode Json.asStr obj "daemonId"
    let _ ← decode Json.asStr obj "frontendId"
    let label ← decode decodeLabelWire obj "label"
    return .onRename daemonId label
  | "worktree.list" =>
    let d ← decode (decodeArray decodeWorktreeInfo) obj "d"
    return .onWorktreeList d
  | "worktree.created" =>
    let d ← decode decodeWorktreeInfo obj "d"
    let _ ← decodeIfPresent Json.asStr obj "sid"
    return .onWorktreeCreated d
  | "worktree.removed" =>
    let path ← decode Json.asStr obj "path"
    return .onWorktreeRemoved path
  | "err" =>
    let e ← decode Json.asStr obj "e"
    let m ← decodeIfPresent Json.asStr obj "m"
    return .onControlErr e m
  | _ => none

/-- An answer on any other channel. -/
def onSessionFrame (v : Json) (obj : Object) (t : String) : Option AppAction := do
  match t with
  | "hello" =>
    let _ ← decode decodeInt obj "v"
    let d ← decode Json.asObject obj "d"
    let sessions ← decode (decodeArray decodeSessionMeta) d "sessions"
    let pct ← decodeIfPresent Json.asStr d "pct"
    return .onHello sessions pct
  | "state" =>
    let sid ← decode Json.asStr obj "sid"
    let d ← decode decodeSessionMeta obj "d"
    return .onState sid d
  | "batch" =>
    let sid ← decode Json.asStr obj "sid"
    let d ← decode (decodeArray decodeSessionRec) obj "d"
    return .onBatch sid d
  | "rec" =>
    let r ← decodeSessionRec v
    return .onRec r
  | _ => none

/-- An opened answer: its type, then its fields. -/
def onAnswer (sid : String) (v : Json) : Option AppAction := do
  let obj ← v.asObject
  let t ← decode Json.asStr obj "t"
  if sid = controlChannel then onControlFrame obj t else onSessionFrame v obj t

/-- A frame of the relay at the app: it comes from the daemon and opens with
the receive key. -/
def onRelayFrame (suite : CryptoSuite) (text : JsonText) (rx : Key) (sid ct sender : String) :
    Option AppAction :=
  if sender ≠ "daemon" then none
  else ((openBlob suite ct rx).bind text.read).bind (onAnswer sid)

/-- What the app does with a message of the relay that carries an answer. -/
def appReads (suite : CryptoSuite) (text : JsonText) (rx : Key) (raw : Json) : Option AppAction :=
  match handle raw with
  | some (.relayFrame sid ct _ sender _) => onRelayFrame suite text rx sid ct sender
  | _ => none

/-- The number of milliseconds as a float. -/
def milliseconds (n : Int64) : F64 := .ofInt n.toInt

/-- A session as the app is to read it. -/
def StoredSession.shown (m : StoredSession) : SessionMeta :=
  ⟨m.sid, wireState m.state, m.cwd, milliseconds m.createdAt, milliseconds m.updatedAt, m.lastSeq⟩

/-- A record as the app is to read it. -/
def StoredRec.shown (sid : String) (r : StoredRec) : SessionRec :=
  ⟨sid, r.seq, r.kind, toNamespace r.ns, r.name, standardCodec.encode r.payload,
    milliseconds r.ts⟩

/-- What the app is to do on the control channel. -/
def DaemonAnswer.shownControl : DaemonAnswer → Option AppAction
  | .control (.unpair daemonId _ reason _) =>
    some (.onUnpair daemonId (unpairReasonText.text reason))
  | .control (.rename daemonId _ (.set value) _) => some (.onRename daemonId (some value))
  | .control (.rename daemonId _ .unset _) => some (.onRename daemonId none)
  | .worktreeList d => some (.onWorktreeList d)
  | .worktreeCreated d _ => some (.onWorktreeCreated d)
  | .worktreeRemoved path => some (.onWorktreeRemoved path)
  | .err e m => some (.onControlErr e (some m))
  | _ => none

/-- What the app is to do on any other channel. Errors and the results of
single requests are passed over. -/
def DaemonAnswer.shownSession : DaemonAnswer → Option AppAction
  | .hello sessions _ pct => some (.onHello (sessions.map StoredSession.shown) pct)
  | .state sid d => some (.onState sid d.shown)
  | .batch sid d => some (.onBatch sid (d.map (StoredRec.shown sid)))
  | .liveRec sid seq k ns n d ts =>
    if ts.isFinite then some (.onRec ⟨sid, seq, k, ns, n, d, ts⟩) else none
  | _ => none

end App

section AnswerLaws

theorem negative_ofNat (n : ℕ) : (F64.ofNat n).negative = false := by
  by_cases hpos : n = 0
  · rw [hpos]
    rfl
  · rw [F64.ofNat, if_neg hpos]
    dsimp only
    split
    · rfl
    · split
      · split
        · rfl
        · rfl
      · split
        · rfl
        · rfl

/-- The float of an integer of the wire is finite. -/
theorem isFinite_ofNat {n : ℕ} (h : n < 2 ^ 64) : (F64.ofNat n).isFinite = true := by
  by_cases hpos : n = 0
  · rw [hpos]
    rfl
  · have hlog : n.log2 < 64 := (Nat.log2_lt hpos).mpr h
    have hexponent : ∀ k, k < 2047 → decide (Fin.ofNat 2048 k ≠ 2047) = true := by
      intro k hk
      rw [decide_eq_true_eq]
      intro heq
      have hval : k % 2048 = 2047 := congrArg Fin.val heq
      omega
    rw [F64.isFinite, F64.ofNat, if_neg hpos]
    dsimp only
    split
    · exact hexponent _ (by omega)
    · split
      · split
        · exact hexponent _ (by omega)
        · exact hexponent _ (by omega)
      · split
        · exact hexponent _ (by omega)
        · exact hexponent _ (by omega)

/-- A timestamp of the daemon is read as the float of its milliseconds. -/
@[simp] theorem decodeDouble_ofInt64 (n : Int64) :
    decodeDouble (ofInt64 n) = some (milliseconds n) := by
  have hlow : -2 ^ 63 ≤ n.toInt := Int64.le_toInt n
  have hhigh : n.toInt < 2 ^ 63 := Int64.toInt_lt n
  have hfinite : (milliseconds n).isFinite = true :=
    isFinite_ofNat (n := n.toInt.natAbs) (by omega)
  have hread : (ofInt64 n).asF64 = some (milliseconds n) := by
    by_cases hn : 0 ≤ n
    · have hnat : n.toUInt64.toNat = n.toInt.toNat := Int64.toNat_toUInt64_of_le hn
      have hpos : 0 ≤ n.toInt := by
        have hle : (0 : Int64).toInt ≤ n.toInt := Int64.le_iff_toInt_le.mp hn
        simpa using hle
      have habs : n.toInt.natAbs = n.toInt.toNat := by omega
      have hsign : decide (n.toInt < 0) = false := decide_eq_false (by omega)
      rw [ofInt64, if_pos hn, Json.asF64, hnat, milliseconds, F64.ofInt, habs, hsign]
      exact congrArg some (by rw [← negative_ofNat n.toInt.toNat])
    · rw [ofInt64, if_neg hn]
      rfl
  rw [decodeDouble, hread, Option.filter_some, if_pos hfinite]

/-- A list is read if its elements are. -/
theorem decodeArray_map {α β : Type} {write : α → Json} {read : Json → Option β} {view : α → β}
    (h : ∀ x, read (write x) = some (view x)) (values : List α) :
    decodeArray read (.array (values.map write)) = some (values.map view) := by
  rw [decodeArray, asArray_array, Option.bind_some]
  exact mapM_map_eq_some fun x _ => h x

theorem decodeSessionMeta_toWire (m : StoredSession) :
    decodeSessionMeta (toWireSessionMeta m) = some m.shown := by
  simp [decodeSessionMeta, toWireSessionMeta, StoredSession.shown]

theorem decodeSessionRec_toWire (sid : String) (r : StoredRec) :
    decodeSessionRec (toSessionRec sid r) = some (r.shown sid) := by
  simp [decodeSessionRec, toSessionRec, tagged, StoredRec.shown]

theorem decodeWorktreeInfo_toWire (wt : WorktreeInfo) :
    decodeWorktreeInfo (worktreeInfoJson wt) = some wt := by
  have hbranch : decodeOptional Json.asStr (some ((wt.branch.map Json.string).getD .null)) =
      some wt.branch := by
    cases wt.branch with
    | none => rfl
    | some branch => rfl
  simp [decodeWorktreeInfo, worktreeInfoJson, hbranch]

theorem decodeLabelWire_labelToJson (label : Label) :
    decodeLabelWire (labelToJson label) =
      some (match label with | .set value => some value | .unset => none) := by
  cases label with
  | set value => simp [decodeLabelWire, labelToJson, decodeOptional]
  | unset => simp [decodeLabelWire, labelToJson, decodeOptional]

/-- A record as it comes in is read if its timestamp is a number. -/
theorem decodeSessionRec_live (sid : String) (seq : Int64) (k : String) (ns n : Option String)
    (d : String) (ts : F64) :
    decodeSessionRec (DaemonAnswer.liveRec sid seq k ns n d ts).toJson =
      if ts.isFinite then some ⟨sid, seq, k, ns, n, d, ts⟩ else none := by
  by_cases hts : ts.isFinite = true
  · have hread := decodeDouble_ofF64 hts
    simp [decodeSessionRec, DaemonAnswer.toJson, tagged, hread, hts]
  · have hnull : Json.ofF64 ts = .null := if_neg hts
    have hread : decodeDouble .null = none := rfl
    simp [decodeSessionRec, DaemonAnswer.toJson, tagged, hnull, hread, hts]

theorem onAnswer_tagged_control (t : String) (fields : List (String × Option Json)) :
    onAnswer controlChannel (tagged t fields) =
      onControlFrame (present (("t", some (.string t)) :: fields)) t := by
  simp [onAnswer, tagged]

theorem onAnswer_tagged_session {sid : String} (hsid : sid ≠ controlChannel) (t : String)
    (fields : List (String × Option Json)) :
    onAnswer sid (tagged t fields) =
      onSessionFrame (tagged t fields) (present (("t", some (.string t)) :: fields)) t := by
  simp [onAnswer, tagged, hsid]

/-- What the app does with an answer on the control channel. -/
theorem onAnswer_control (answer : DaemonAnswer) :
    onAnswer controlChannel answer.toJson = answer.shownControl := by
  cases answer with
  | worktreeList d =>
    have hd : decodeArray decodeWorktreeInfo (.array (d.map worktreeInfoJson)) = some (d.map id) :=
      decodeArray_map decodeWorktreeInfo_toWire d
    rw [List.map_id] at hd
    rw [DaemonAnswer.toJson, onAnswer_tagged_control]
    simp [onControlFrame, DaemonAnswer.shownControl, hd]
  | worktreeCreated d id =>
    have hd := decodeWorktreeInfo_toWire d
    rw [DaemonAnswer.toJson, onAnswer_tagged_control]
    simp [onControlFrame, DaemonAnswer.shownControl, hd]
  | err e m =>
    rw [DaemonAnswer.toJson, onAnswer_tagged_control]
    simp [onControlFrame, DaemonAnswer.shownControl]
  | control m =>
    cases m with
    | unpair daemonId frontendId reason ts =>
      have hreason : (unpairReasonText.toJson reason).asStr =
          some (unpairReasonText.text reason) := rfl
      rw [DaemonAnswer.toJson, ControlMessage.toJson, onAnswer_tagged_control]
      simp [onControlFrame, DaemonAnswer.shownControl, hreason]
    | rename daemonId frontendId label ts =>
      have hlabel := decodeLabelWire_labelToJson label
      rw [DaemonAnswer.toJson, ControlMessage.toJson, onAnswer_tagged_control]
      cases label with
      | set value => simp [onControlFrame, DaemonAnswer.shownControl, hlabel]
      | unset => simp [onControlFrame, DaemonAnswer.shownControl, hlabel]
  | hello | state | batch | liveRec | sessionRemoved | sessionCreateOk | sessionDeleteOk
  | sessionDeleteErr | sessionExported | pong | worktreeRemoved =>
    rw [DaemonAnswer.toJson, onAnswer_tagged_control]
    simp [onControlFrame, DaemonAnswer.shownControl]

/-- What the app does with an answer on another channel. -/
theorem onAnswer_session {sid : String} (hsid : sid ≠ controlChannel) (answer : DaemonAnswer) :
    onAnswer sid answer.toJson = answer.shownSession := by
  cases answer with
  | hello sessions daemonLabel pct =>
    have hsessions := decodeArray_map decodeSessionMeta_toWire sessions
    rw [DaemonAnswer.toJson, onAnswer_tagged_session hsid]
    simp [onSessionFrame, DaemonAnswer.shownSession, hsessions]
  | state id d =>
    have hd := decodeSessionMeta_toWire d
    rw [DaemonAnswer.toJson, onAnswer_tagged_session hsid]
    simp [onSessionFrame, DaemonAnswer.shownSession, hd]
  | batch id d =>
    have hd := decodeArray_map (decodeSessionRec_toWire id) d
    rw [DaemonAnswer.toJson, onAnswer_tagged_session hsid]
    simp [onSessionFrame, DaemonAnswer.shownSession, hd]
  | liveRec id seq k ns n d ts =>
    have hrec := decodeSessionRec_live id seq k ns n d ts
    rw [DaemonAnswer.toJson] at hrec ⊢
    rw [onAnswer_tagged_session hsid]
    simp only [onSessionFrame, hrec, DaemonAnswer.shownSession]
    split
    · rfl
    · rfl
  | control m =>
    cases m with
    | unpair | rename =>
      rw [DaemonAnswer.toJson, ControlMessage.toJson, onAnswer_tagged_session hsid]
      simp [onSessionFrame, DaemonAnswer.shownSession]
  | sessionRemoved | sessionCreateOk | sessionDeleteOk | sessionDeleteErr | sessionExported | pong
  | err | worktreeList | worktreeCreated | worktreeRemoved =>
    rw [DaemonAnswer.toJson, onAnswer_tagged_session hsid]
    simp [onSessionFrame, DaemonAnswer.shownSession]

/-- The relay sends on what the daemon publishes, without a name. -/
theorem carried_publish {server : AuthState} (hrole : server.role = .daemon) (sid ct : String)
    (seq : UInt64) :
    carried server (Wire.RelayClientMessage.publish sid ct seq).toJson =
      some (Wire.RelayServerMessage.frame sid ct seq .daemon none).toJson := by
  have hvalid : (Wire.RelayClientMessage.publish sid ct seq).Valid := trivial
  rw [carried, parseRelayClientMessage_toJson hvalid]
  simp [framePayload, publishedFrame, hrole]

/-- Whatever the daemon says, sealed with the key of the app and published
through the relay: the app shows the answers that it has a case for on the
channel, and on the control channel other ones than elsewhere. -/
theorem answer_link {suite : CryptoSuite} {text : JsonText} {server : AuthState} {rx : Key}
    {nonce : Nonce} {channel : String} {seq : UInt64} {answer : DaemonAnswer}
    (hrole : server.role = .daemon) (hseq : seq < twoTo63)
    (hsurvives : Survives suite text rx nonce answer.toJson) :
    (carried server (Wire.RelayClientMessage.publish channel (sealBlob suite
        (text.write answer.toJson) rx nonce) seq).toJson).bind (appReads suite text rx) =
      if channel = controlChannel then answer.shownControl else answer.shownSession := by
  have hopened : ((openBlob suite (sealBlob suite (text.write answer.toJson) rx nonce) rx).bind
      text.read).bind (onAnswer channel) = onAnswer channel answer.toJson := by
    rw [hsurvives.1, Option.bind_some, hsurvives.2, Option.bind_some]
  have hframe : ∀ ct, handle (Wire.RelayServerMessage.frame channel ct seq .daemon none).toJson =
      some (.relayFrame channel ct seq.toInt64 "daemon" none) := by
    intro ct
    have hvalid : (Wire.RelayServerMessage.frame channel ct seq .daemon none).Valid := trivial
    rw [handle_toJson hvalid, shown, if_pos hseq]
    rfl
  rw [carried_publish hrole, Option.bind_some, appReads, hframe]
  simp only [onRelayFrame, ne_eq, not_true_eq_false, if_false, hopened]
  split
  · rename_i hchannel
    rw [hchannel, onAnswer_control]
  · rename_i hchannel
    exact onAnswer_session hchannel answer

/-- JSON text of the answer to the removal of a worktree. -/
def removedJson : Bytes :=
  bytesOfNat 36 0x7b2270617468223a222f77222c2274223a22776f726b747265652e72656d6f766564227d

/-- Its ciphertext and tag under the session key. -/
def removedCt : Bytes :=
  bytesOfNat 26 0x46d1773a92d1dcf09f372583b9ec917ebb4bbbc47b7bf09eca0c ++
    bytesOfNat 26 0x5530e5504be1375e8dc112887bc7dfb4af1cdc502e5fab65db1b

/-- The cipher on the answer, and base64. -/
def answerSuite : CryptoSuite :=
  { inputSuite with
    aeadEncrypt := fun key nonce msg =>
      if key = sampleFirstHalf ∧ nonce = inputNonce ∧ msg = removedJson then removedCt else []
    aeadDecrypt := fun key nonce ct =>
      if key = sampleFirstHalf ∧ nonce = inputNonce ∧ ct = removedCt then some removedJson
      else none }

/-- The text of the answer. -/
def answerText : JsonText where
  write _ := removedJson
  read bytes :=
    if bytes = removedJson then some (DaemonAnswer.worktreeRemoved "/w").toJson else none

/-- The removed worktree leaves the list of the app. -/
theorem answer_link_worktreeRemoved :
    (carried ⟨.daemon, "d1", none, ∅⟩ (Wire.RelayClientMessage.publish controlChannel
        (sealBlob answerSuite (answerText.write (DaemonAnswer.worktreeRemoved "/w").toJson)
          sampleFirstHalf inputNonce) 0).toJson).bind
        (appReads answerSuite answerText sampleFirstHalf) =
      some (.onWorktreeRemoved "/w") := by
  have hopens : openBlob answerSuite (sealBlob answerSuite removedJson sampleFirstHalf inputNonce)
      sampleFirstHalf = some removedJson := by decide +kernel
  have hsurvives : Survives answerSuite answerText sampleFirstHalf inputNonce
      (DaemonAnswer.worktreeRemoved "/w").toJson := ⟨hopens, by simp only [answerText, if_pos]⟩
  have hseq : (0 : UInt64) < twoTo63 := by decide
  exact (answer_link rfl hseq hsurvives).trans (if_pos rfl)

end AnswerLaws

end Teleprompter.SealedMessages
