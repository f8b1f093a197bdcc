import Teleprompter.ControlOrder
import Teleprompter.RecordReplay

/-!
# Keystrokes from the app to the terminal

The app's views type into one callback slot of the shared session store, and
every relay client that is wired to the store puts its own closure there. The
closure encodes the bytes and hands the text to the client, which seals and
publishes it. The daemon passes terminal input on to the runner of the
session, and the runner decodes it and writes to its terminal. JSON texts are
written by an external library.
-/

namespace Teleprompter.TerminalInput

open FiniteDictionary StepRuns PairingCrypto RelayServer KeyExchange ControlOrder
open SessionRecords (Base64Codec)
open RecordReplay (StandardText standardCodec standardCodec_standardText)

section App

/-- A relay client of the app, as far as input passes through it. -/
structure TerminalClient where
  /-- The daemon it is paired with. -/
  daemonId : String
  /-- Name of the app at the relay. -/
  frontendId : String
  /-- Send key, once keys were exchanged. -/
  tx : Option Key
  /-- The client is gone; closures hold it weakly. -/
  released : Bool
  deriving DecidableEq

/-- The clients of the app and the callback slot of the shared store. -/
structure TerminalApp where
  /-- Clients in the order of their creation. -/
  clients : List TerminalClient
  /-- The client that the callback in the slot captured. -/
  terminalSendBytes : Option ℕ
  deriving DecidableEq

/-- What happens to the clients. -/
inductive WiringEvent where
  /-- A client is created. -/
  | connect (client : TerminalClient)
  /-- The callbacks of a client are installed. -/
  | installTerminalCallbacks (i : ℕ)
  /-- Keys were exchanged, or dropped with the connection. -/
  | setKeys (i : ℕ) (tx : Option Key)
  /-- A client is released. -/
  | release (i : ℕ)
  deriving DecidableEq

/-- One event. -/
def wiringStep (app : TerminalApp) : WiringEvent → TerminalApp
  | .connect client => { app with clients := app.clients ++ [client] }
  | .installTerminalCallbacks i => { app with terminalSendBytes := some i }
  | .setKeys i tx => { app with clients := app.clients.modify i fun c => { c with tx } }
  | .release i => { app with clients := app.clients.modify i fun c => { c with released := true } }

/-- Messages that carry input. -/
inductive InputBody where
  /-- A line of chat, as plain text. -/
  | inChat (sid d : String)
  /-- Terminal bytes in base64. -/
  | inTerm (sid d : String)
  deriving DecidableEq

variable (suite : CryptoSuite) (base64 : Base64Codec) (write : InputBody → Bytes)

/-- Seal and publish input for a session; before the key exchange it is
dropped. The relay names the sender. -/
def sendInput (client : TerminalClient) (sid : String) (kind : InputKind) (text : String)
    (nonce : Nonce) : Option Frame :=
  client.tx.map fun key =>
    let body := match kind with
      | .chat => write (.inChat sid text)
      | .term => write (.inTerm sid (base64.encode (utf8 text)))
    ⟨sid, sealBlob suite body key nonce, 0, .frontend, some client.frontendId⟩

/-- The client that the slot leads to, if it still exists. -/
def slotClient (app : TerminalApp) : Option TerminalClient :=
  (app.terminalSendBytes.bind fun i => app.clients[i]?).filter fun client => !client.released

/-- The callback in the slot: the bytes as text, sent as terminal input. -/
def terminalSendBytes (app : TerminalApp) (sid : String) (bytes : Bytes) (nonce : Nonce) :
    Option (TerminalClient × Frame) :=
  (slotClient app).bind fun client =>
    (sendInput suite base64 write client sid .term (base64.encode bytes) nonce).map
      fun frame => (client, frame)

end App

section Daemon

/-- A daemon as far as input passes through it. -/
structure DaemonSide where
  /-- Frontends with their keys. -/
  peers : Dict String FrontendPeer
  /-- Sessions with a connected runner. -/
  runners : List String

variable {Value : Type} (suite : CryptoSuite) (reader : JsonReader Value) (base64 : Base64Codec)
  (write : InputBody → Bytes) (daemons : String → DaemonSide)

/-- The data of the input frame for the runner. A chat line gets its carriage
return here, terminal input is passed on. -/
def onInput (daemon : DaemonSide) (kind : InputKind) (sid data : String) : Option String :=
  if sid ∈ daemon.runners then
    match kind with
    | .chat => some (base64.encode (utf8 (data ++ "\r")))
    | .term => some data
  else none

/-- What the runner writes to its terminal for an input frame. -/
def runnerInput (data : String) : Option Bytes := base64.decode data

/-- Bytes that reach a terminal. -/
structure PtyWrite where
  /-- The client they travelled through. -/
  via : TerminalClient
  /-- The session whose terminal gets them. -/
  sid : String
  /-- The bytes themselves. -/
  bytes : Bytes
  deriving DecidableEq

/-- What a daemon and its runner do with a published frame. -/
def deliver (client : TerminalClient) (frame : Frame) : Option PtyWrite :=
  let daemon := daemons client.daemonId
  match handleFrame suite reader daemon.peers frame with
  | some (.input kind sid d _) =>
    ((onInput base64 daemon kind sid d).bind (runnerInput base64)).map
      fun bytes => ⟨client, sid, bytes⟩
  | _ => none

/-- What reaches a terminal when bytes are handed to the callback. -/
def ptyWrite (app : TerminalApp) (sid : String) (bytes : Bytes) (nonce : Nonce) :
    Option PtyWrite :=
  (terminalSendBytes suite base64 write app sid bytes nonce).bind fun sent =>
    deliver suite reader base64 daemons sent.1 sent.2

/-- The terminal of the session gets exactly the bytes, through the client of
its daemon. -/
def RoundTrip (app : TerminalApp) (sid daemonId : String) (bytes : Bytes) (nonce : Nonce) : Prop :=
  ∃ via, ptyWrite suite reader base64 write daemons app sid bytes nonce =
    some ⟨via, sid, bytes⟩ ∧ via.daemonId = daemonId

/-- The client in the slot has exchanged keys: its daemon knows it and opens with the
key that the client seals with. -/
def Connected (app : TerminalApp) : Prop :=
  ∀ client ∈ slotClient app, ∃ peer,
    (daemons client.daemonId).peers.lookup client.frontendId = some peer ∧
      client.tx = some peer.sessionKeys.rx

/-- What is relied on of the libraries for a message of terminal input. -/
structure Carries (key : Key) (nonce : Nonce) (sid d : String) : Prop where
  /-- Base64 decodes what it encoded. -/
  base64_round_trip : ∀ bytes, suite.fromBase64 (suite.toBase64 bytes) = some bytes
  /-- The ciphertext has its tag. -/
  tagged : 16 ≤ (suite.aeadEncrypt key nonce (write (.inTerm sid d))).length
  /-- It opens under its own key and nonce. -/
  opens : suite.aeadDecrypt key nonce (suite.aeadEncrypt key nonce (write (.inTerm sid d))) =
    some (write (.inTerm sid d))
  /-- The message is read as it was written. -/
  reads : ∃ msg, reader.fromSlice (write (.inTerm sid d)) = some msg ∧
    reader.getStr msg "t" = some "in.term" ∧ reader.getStr msg "sid" = some sid ∧
      reader.getStr msg "d" = some d

/-- The text that terminal bytes travel as. -/
def termText (bytes : Bytes) : String := base64.encode (utf8 (base64.encode bytes))

end Daemon

section RoundTrip

variable {Value : Type} {suite : CryptoSuite} {reader : JsonReader Value} {base64 : Base64Codec}
  {write : InputBody → Bytes} {daemons : String → DaemonSide}

/-- The text of some bytes has other bytes, unless there are none. -/
theorem utf8_encode_eq_iff (std : StandardText base64) (bytes : Bytes) :
    utf8 (base64.encode bytes) = bytes ↔ bytes = [] := by
  obtain ⟨body, pads, hform⟩ := std.form bytes
  have hsize : (utf8 (base64.encode bytes)).length = 4 * ((bytes.length + 2) / 3) :=
    hform.utf8ByteSize_eq
  constructor
  · intro heq
    rw [heq] at hsize
    exact List.length_eq_zero_iff.mp (by omega)
  · intro hnil
    rw [hnil, List.length_nil] at hsize
    rw [hnil]
    exact List.length_eq_zero_iff.mp hsize

/-- A message sealed with the key of a peer is opened and taken as terminal input. -/
theorem handleFrame_inTerm {peers : Dict String FrontendPeer} {frontendId : String}
    {peer : FrontendPeer} {nonce : Nonce} {sid d : String}
    (hpeer : peers.lookup frontendId = some peer)
    (hcarries : Carries suite reader write peer.sessionKeys.rx nonce sid d) :
    handleFrame suite reader peers
        ⟨sid, sealBlob suite (write (.inTerm sid d)) peer.sessionKeys.rx nonce, 0, .frontend,
          some frontendId⟩ = some (.input .term sid d frontendId) := by
  obtain ⟨msg, hread, ht, hsid, hd⟩ := hcarries.reads
  have hopens := openBlob_sealBlob_of hcarries.base64_round_trip hcarries.tagged hcarries.opens
  have hcontrol : ¬(sid = "__control__" ∧
      ("in.term" = "control.unpair" ∨ "in.term" = "control.rename")) :=
    fun h => absurd h.2 (by decide)
  rw [handleFrame, if_pos rfl, Option.bind_some, hpeer, Option.map_some]
  dsimp only
  rw [decryptAndDispatch, hopens, Option.bind_some, hread, Option.map_some, ht, Option.getD_some,
    if_neg hcontrol, if_pos (.inr rfl), hsid, hd]
  rfl

/-- Decoded once, the twice encoded bytes are the text of the first
encoding. -/
theorem ptyWrite_of_slot (std : StandardText base64) {app : TerminalApp} {client : TerminalClient}
    {sid : String} {bytes : Bytes} {nonce : Nonce} (hconnected : Connected daemons app)
    (hcarries : ∀ client ∈ slotClient app, ∀ key ∈ client.tx,
      Carries suite reader write key nonce sid (termText base64 bytes))
    (hslot : slotClient app = some client) :
    ptyWrite suite reader base64 write daemons app sid bytes nonce =
      if sid ∈ (daemons client.daemonId).runners then
        some ⟨client, sid, utf8 (base64.encode bytes)⟩ else none := by
  obtain ⟨peer, hpeer, htx⟩ := hconnected client hslot
  have hread := handleFrame_inTerm hpeer (hcarries client hslot _ htx)
  have hdecode : base64.decode (termText base64 bytes) = some (utf8 (base64.encode bytes)) :=
    (std.decode_iff _ _).mpr rfl
  rw [ptyWrite, terminalSendBytes, hslot, Option.bind_some, sendInput, htx, Option.map_some,
    Option.map_some, Option.bind_some, deliver]
  dsimp only
  rw [← termText, hread]
  dsimp only
  rw [onInput]
  split
  · rw [Option.bind_some, runnerInput, hdecode, Option.map_some]
  · rfl

/-- The client that was wired last. -/
def lastWired (slot : Option ℕ) : List WiringEvent → Option ℕ
  | [] => slot
  | .installTerminalCallbacks i :: events => lastWired (some i) events
  | _ :: events => lastWired slot events

/-- The slot holds the closure of the client that was wired last. -/
theorem slot_of_run (app : TerminalApp) (events : List WiringEvent) :
    (runFrom wiringStep app events).terminalSendBytes =
      lastWired app.terminalSendBytes events := by
  induction events generalizing app with
  | nil => rfl
  | cons event events ih =>
    rw [runFrom_cons, ih]
    cases event <;> rfl

/-- After any wiring of clients, what is typed into a session of a daemon
comes out unchanged and through the client of that daemon exactly when
nothing is typed and that client was wired last. -/
theorem terminal_input_round_trip_iff (std : StandardText base64) (app : TerminalApp)
    (events : List WiringEvent) {sid daemonId : String} {bytes : Bytes} {nonce : Nonce}
    (howned : sid ∈ (daemons daemonId).runners)
    (hconnected : Connected daemons (runFrom wiringStep app events))
    (hcarries : ∀ client ∈ slotClient (runFrom wiringStep app events), ∀ key ∈ client.tx,
      Carries suite reader write key nonce sid (termText base64 bytes)) :
    RoundTrip suite reader base64 write daemons (runFrom wiringStep app events) sid daemonId
        bytes nonce ↔
      bytes = [] ∧ ∃ i client, lastWired app.terminalSendBytes events = some i ∧
        (runFrom wiringStep app events).clients[i]? = some client ∧ client.released = false ∧
        client.daemonId = daemonId := by
  have hslotIff : ∀ client, slotClient (runFrom wiringStep app events) = some client ↔
      ∃ i, lastWired app.terminalSendBytes events = some i ∧
        (runFrom wiringStep app events).clients[i]? = some client ∧ client.released = false := by
    intro client
    rw [slotClient, slot_of_run, Option.filter_eq_some_iff, Option.bind_eq_some_iff,
      Bool.not_eq_true']
    constructor
    · rintro ⟨⟨i, hi, hclient⟩, hlive⟩
      exact ⟨i, hi, hclient, hlive⟩
    · rintro ⟨i, hi, hclient, hlive⟩
      exact ⟨⟨i, hi, hclient⟩, hlive⟩
  constructor
  · rintro ⟨via, hwrite, hvia⟩
    cases hslot : slotClient (runFrom wiringStep app events) with
    | none =>
      rw [ptyWrite, terminalSendBytes, hslot] at hwrite
      cases hwrite
    | some client =>
      rw [ptyWrite_of_slot std hconnected hcarries hslot] at hwrite
      split at hwrite
      · obtain ⟨rfl, -, hbytes⟩ := PtyWrite.mk.inj (Option.some.inj hwrite)
        obtain ⟨i, hi, hclient, hlive⟩ := (hslotIff client).mp hslot
        exact ⟨(utf8_encode_eq_iff std bytes).mp hbytes, i, client, hi, hclient, hlive, hvia⟩
      · cases hwrite
  · rintro ⟨hnil, i, client, hi, hclient, hlive, hdaemon⟩
    have hslot := (hslotIff client).mpr ⟨i, hi, hclient, hlive⟩
    refine ⟨client, ?_, hdaemon⟩
    rw [ptyWrite_of_slot std hconnected hcarries hslot, hdaemon, if_pos howned,
      (utf8_encode_eq_iff std bytes).mpr hnil]

end RoundTrip

section Sample

/-- JSON text of empty terminal input. -/
def emptyInputJson : Bytes :=
  bytesOfNat 32 0x7b2274223a22696e2e7465726d222c22736964223a2273222c2264223a22227d

/-- Its ciphertext and tag under the session key. -/
def emptyInputCt : Bytes :=
  bytesOfNat 24 0x442a6490464756ba017ee10c85c256a49cf68941a40cec35 ++
    bytesOfNat 24 0x8fcf2c3eeb6e0f6d9796a7ca81ba63b67f008787f9c5fc64

/-- JSON text of the input that the letter a becomes. -/
def letterInputJson : Bytes :=
  bytesOfNat 20 0x7b2274223a22696e2e7465726d222c2273696422 ++
    bytesOfNat 20 0x3a2273222c2264223a225756453950513d3d227d

/-- Its ciphertext and tag under the session key. -/
def letterInputCt : Bytes :=
  bytesOfNat 28 0x442a6490464756ba017ee10c85c256a49cf68941a40cec358fcf2c3e ++
    bytesOfNat 28 0xeb6e7a46b21195ba8abb328129e5a652ad6c7089fc89c0e21a1c8b72

/-- Nonce of both frames. -/
def inputNonce : Nonce := ⟨List.replicate 24 21, rfl⟩

/-- The cipher on the two inputs, and base64. -/
def inputSuite : CryptoSuite :=
  { sampleSuite with
    aeadEncrypt := fun key nonce msg =>
      if key = sampleSecondHalf ∧ nonce = inputNonce ∧ msg = emptyInputJson then emptyInputCt
      else if key = sampleSecondHalf ∧ nonce = inputNonce ∧ msg = letterInputJson then letterInputCt
      else []
    aeadDecrypt := fun key nonce ct =>
      if key = sampleSecondHalf ∧ nonce = inputNonce ∧ ct = emptyInputCt then some emptyInputJson
      else if key = sampleSecondHalf ∧ nonce = inputNonce ∧ ct = letterInputCt then
        some letterInputJson
      else none
    toBase64 := Base64.encode
    fromBase64 := Base64.decode }

/-- JSON writing on the two inputs. -/
def writeInput (body : InputBody) : Bytes :=
  if body = .inTerm "s" "" then emptyInputJson
  else if body = .inTerm "s" "WVE9PQ==" then letterInputJson
  else []

/-- JSON reading on the two inputs. -/
def inputReader : JsonReader String where
  fromSlice bytes :=
    if bytes = emptyInputJson then some ""
    else if bytes = letterInputJson then some "WVE9PQ=="
    else none
  getStr d key :=
    if key = "t" then some "in.term"
    else if key = "sid" then some "s"
    else if key = "d" then some d
    else none
  isControlMessage _ := false

/-- One daemon with one frontend and one session. -/
def inputDaemons (_ : String) : DaemonSide where
  peers := AList.insert "f"
    ⟨sampleAppPublic, ⟨sampleSecondHalf, sampleFirstHalf⟩, 3, none, none⟩ ∅
  runners := ["s"]

/-- An app that was not wired yet. -/
def emptyApp : TerminalApp := ⟨[], none⟩

/-- A client of the daemon is created, exchanges keys and is wired. -/
def oneClient : List WiringEvent :=
  [.connect ⟨"d1", "f", none, false⟩, .installTerminalCallbacks 0,
    .setKeys 0 (some sampleSecondHalf)]

/-- Nothing typed comes out as nothing, through the only client. -/
theorem terminal_input_nothing_typed :
    RoundTrip inputSuite inputReader standardCodec writeInput inputDaemons
      (runFrom wiringStep emptyApp oneClient) "s" "d1" [] inputNonce := by
  have hslot : slotClient (runFrom wiringStep emptyApp oneClient) =
      some ⟨"d1", "f", some sampleSecondHalf, false⟩ := by decide +kernel
  have hconnected : Connected inputDaemons (runFrom wiringStep emptyApp oneClient) := by
    intro client hclient
    rw [hslot] at hclient
    cases hclient
    exact ⟨_, rfl, rfl⟩
  have hcarries : ∀ client ∈ slotClient (runFrom wiringStep emptyApp oneClient),
      ∀ key ∈ client.tx,
        Carries inputSuite inputReader writeInput key inputNonce "s" (termText standardCodec []) := by
    intro client hclient key hkey
    rw [hslot] at hclient
    cases hclient
    cases hkey
    exact ⟨fun bytes => (Base64.decode_eq_some_iff _ _).mpr rfl, by decide +kernel,
      by decide +kernel, "", by decide +kernel, rfl, rfl, rfl⟩
  refine (terminal_input_round_trip_iff standardCodec_standardText emptyApp oneClient
    (by decide) hconnected hcarries).mpr
      ⟨rfl, 0, ⟨"d1", "f", some sampleSecondHalf, false⟩, rfl, ?_, rfl, rfl⟩
  decide +kernel

/-- A typed letter comes out as the four characters of its base64 text. -/
theorem terminal_input_letter_garbled :
    ptyWrite inputSuite inputReader standardCodec writeInput inputDaemons
      (runFrom wiringStep emptyApp oneClient) "s" (utf8 "a") inputNonce =
        some ⟨⟨"d1", "f", some sampleSecondHalf, false⟩, "s", utf8 "YQ=="⟩ ∧
    ¬RoundTrip inputSuite inputReader standardCodec writeInput inputDaemons
      (runFrom wiringStep emptyApp oneClient) "s" "d1" (utf8 "a") inputNonce := by
  have hwrite : ptyWrite inputSuite inputReader standardCodec writeInput inputDaemons
      (runFrom wiringStep emptyApp oneClient) "s" (utf8 "a") inputNonce =
        some ⟨⟨"d1", "f", some sampleSecondHalf, false⟩, "s", utf8 "YQ=="⟩ := by decide +kernel
  refine ⟨hwrite, ?_⟩
  rintro ⟨via, hvia, -⟩
  rw [hwrite] at hvia
  have hbytes : utf8 "YQ==" = utf8 "a" := (PtyWrite.mk.inj (Option.some.inj hvia)).2.2
  exact absurd hbytes (by decide +kernel)

end Sample

end Teleprompter.TerminalInput
