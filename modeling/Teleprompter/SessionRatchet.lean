import Mathlib.Data.Set.Function
import Teleprompter.PairingCrypto

/-!
# Per-session keys, and what the hashed texts commit to

Every session has keys of its own, hashed from the sorted keys of the pairing,
the session id and a label. Sorting takes the side out of the two texts and the
role puts it back, so the two sides stay mirrored. The texts of the ratchet and
of the confirmation tag are plain concatenations; each is read back uniquely,
field by field, because every field but one either has a fixed size or comes
behind its length: a coding whose codes can be taken off the front of a text in
only one way reads a concatenation back.
-/

namespace Teleprompter.SessionRatchet

open PairingCrypto

section Codes

variable {α β γ : Type}

/-- On the given values, a code and what follows it determine each other's bounds. -/
def SelfDelimiting (S : Set α) (code : α → List γ) : Prop :=
  ∀ a ∈ S, ∀ b ∈ S, ∀ s t, code a ++ s = code b ++ t → a = b ∧ s = t

variable {S : Set α} {code other : α → List γ}

/-- Only the codes of the given values matter. -/
theorem SelfDelimiting.congr (h : SelfDelimiting S code) (heq : ∀ a ∈ S, other a = code a) :
    SelfDelimiting S other := by
  intro a ha b hb s t htext
  rw [heq a ha, heq b hb] at htext
  exact h a ha b hb s t htext

/-- Codes of one length. -/
theorem selfDelimiting_of_length {n : ℕ} (hlength : ∀ a ∈ S, (code a).length = n)
    (hinj : Set.InjOn code S) : SelfDelimiting S code := by
  intro a ha b hb s t htext
  have hsame : (code a).length = (code b).length := (hlength a ha).trans (hlength b hb).symm
  obtain ⟨hcode, hrest⟩ := List.append_inj htext hsame
  exact ⟨hinj ha hb hcode, hrest⟩

/-- Values that stand for other values one to one. -/
theorem SelfDelimiting.comp (h : SelfDelimiting S code) {e : β → α} (he : Function.Injective e) :
    SelfDelimiting (Set.preimage e S) (code ∘ e) := by
  intro a ha b hb s t htext
  obtain ⟨hvalue, hrest⟩ := h (e a) ha (e b) hb s t htext
  exact ⟨he hvalue, hrest⟩

/-- A list behind a code of its length. -/
theorem SelfDelimiting.lengthPrefixed {L : Set ℕ} {lengthCode : ℕ → List γ}
    (h : SelfDelimiting L lengthCode) :
    SelfDelimiting {l : List γ | l.length ∈ L} fun l => lengthCode l.length ++ l := by
  intro a ha b hb s t htext
  dsimp only at htext
  rw [List.append_assoc, List.append_assoc] at htext
  obtain ⟨hlength, hrest⟩ := h a.length ha b.length hb (a ++ s) (b ++ t) htext
  exact List.append_inj hrest hlength

end Codes

/-- The text a session key is hashed from. -/
def ratchetInput (key : Key) (sid : String) (label : UInt8) : Bytes :=
  key.bytes ++ utf8 sid ++ [label]

/-- Keys of one session. The smaller key goes with the label `a` and the larger
with `b`; the daemon sends under the first. -/
def ratchetSessionKeys (suite : CryptoSuite) (base : SessionKeys) (sid : String)
    (isDaemon : Bool) : SessionKeys :=
  let sorted := sortKeys base.tx base.rx
  let kA := suite.genericHash32 (ratchetInput sorted.1 sid 97)
  let kB := suite.genericHash32 (ratchetInput sorted.2 sid 98)
  if isDaemon then { tx := kA, rx := kB } else { tx := kB, rx := kA }

section Agreement

variable {suite : CryptoSuite}

/-- The ratchet keeps the two sides mirrored. -/
theorem ratchetSessionKeys_mirror (base : SessionKeys) (sid : String) (isDaemon : Bool) :
    ratchetSessionKeys suite base.mirror sid (!isDaemon) =
      (ratchetSessionKeys suite base sid isDaemon).mirror := by
  have hsorted : sortKeys base.mirror.tx base.mirror.rx = sortKeys base.tx base.rx :=
    sortKeys_comm base.rx base.tx
  unfold ratchetSessionKeys
  rw [hsorted]
  cases isDaemon with
  | false => rfl
  | true => rfl

/-- Two key pairs lead to mirrored keys, to mirrored keys of every session and
to one confirmation tag. -/
theorem endpoints_agree
    (hcomm : ∀ a b, suite.scalarMult a (suite.scalarBase b) =
      suite.scalarMult b (suite.scalarBase a)) (daemon frontend : KxKeyPair suite) :
    let server := kxServerSessionKeys suite daemon.publicKey daemon.secretKey frontend.publicKey
    let client := kxClientSessionKeys suite frontend.publicKey frontend.secretKey daemon.publicKey
    (server.tx = client.rx ∧ server.rx = client.tx) ∧
      (∀ sid,
        (ratchetSessionKeys suite server sid true).tx =
            (ratchetSessionKeys suite client sid false).rx ∧
          (ratchetSessionKeys suite server sid true).rx =
            (ratchetSessionKeys suite client sid false).tx) ∧
      ∀ pairingId daemonId hostname,
        derivePairingConfirmationTag suite pairingId daemonId hostname daemon.publicKey
            frontend.publicKey server.tx server.rx =
          derivePairingConfirmationTag suite pairingId daemonId hostname daemon.publicKey
            frontend.publicKey client.tx client.rx := by
  intro server client
  have hmirror : server = client.mirror := kxServerSessionKeys_mirror_of_comm hcomm daemon frontend
  refine ⟨?_, ?_, ?_⟩
  · rw [hmirror]
    exact ⟨rfl, rfl⟩
  · intro sid
    have hratchet : ratchetSessionKeys suite server sid true =
        (ratchetSessionKeys suite client sid false).mirror := by
      rw [hmirror]
      exact ratchetSessionKeys_mirror client sid false
    rw [hratchet]
    exact ⟨rfl, rfl⟩
  · intro pairingId daemonId hostname
    rw [hmirror]
    exact derivePairingConfirmationTag_comm pairingId daemonId hostname daemon.publicKey
      frontend.publicKey client.rx client.tx

end Agreement

section Sample

/-- Key of the sample session under the label `a`. -/
def sampleSessionA : Key :=
  ⟨bytesOfNat 32 0xaeefd7fa6213539c8dda069e69a643adf43c5030c559ffdd004993a97031aed2, rfl⟩

/-- Key of the sample session under the label `b`. -/
def sampleSessionB : Key :=
  ⟨bytesOfNat 32 0x5976b418bb4ac5701b031fff352c9298cdc3b96aa883fb9f311815bfb8050426, rfl⟩

/-- The sample suite with the hashes of one session. -/
def ratchetSuite : CryptoSuite :=
  { sampleSuite with
    genericHash32 := fun input =>
      if input = ratchetInput sampleFirstHalf "s1" 97 then sampleSessionA
      else if input = ratchetInput sampleSecondHalf "s1" 98 then sampleSessionB
      else sampleHash32 input }

/-- The daemon's key pair of the sample. -/
def sampleDaemonPair : KxKeyPair ratchetSuite := ⟨sampleDaemonPublic, sampleDaemonSecret, rfl⟩

/-- The app's key pair of the sample. -/
def sampleAppPair : KxKeyPair ratchetSuite := ⟨sampleAppPublic, sampleAppSecret, rfl⟩

/-- The daemon's keys of the sample pairing. -/
def sampleServerKeys : SessionKeys :=
  kxServerSessionKeys ratchetSuite sampleDaemonPair.publicKey sampleDaemonPair.secretKey
    sampleAppPair.publicKey

/-- The app's keys of the sample pairing. -/
def sampleClientKeys : SessionKeys :=
  kxClientSessionKeys ratchetSuite sampleAppPair.publicKey sampleAppPair.secretKey
    sampleDaemonPair.publicKey

/-- The sample pairing and its session `s1`, with the keys both sides reach. -/
theorem endpoints_agree_sample :
    (sampleServerKeys.tx = sampleClientKeys.rx ∧ sampleServerKeys.tx = sampleFirstHalf) ∧
      (ratchetSessionKeys ratchetSuite sampleServerKeys "s1" true).tx =
        (ratchetSessionKeys ratchetSuite sampleClientKeys "s1" false).rx ∧
      ratchetSessionKeys ratchetSuite sampleServerKeys "s1" true =
        { rx := sampleSessionB, tx := sampleSessionA } := by
  have hcomm : ∀ a b, ratchetSuite.scalarMult a (ratchetSuite.scalarBase b) =
      ratchetSuite.scalarMult b (ratchetSuite.scalarBase a) := sampleSuite_lawful.scalarMult_comm
  obtain ⟨⟨hkeys, _⟩, hratchet, _⟩ := endpoints_agree hcomm sampleDaemonPair sampleAppPair
  exact ⟨⟨hkeys, by decide⟩, (hratchet "s1").1, by decide +kernel⟩

end Sample

section Readings

/-- Texts with the same bytes are the same. -/
theorem utf8_injective : Function.Injective utf8 := by
  intro s t h
  have hbytes : s.toByteArray = t.toByteArray := ByteArray.ext (Array.toList_inj.mp h)
  exact String.toByteArray_inj.mp hbytes

/-- A field of fixed size ends by itself. -/
theorem selfDelimiting_bytes (n : ℕ) :
    SelfDelimiting Set.univ (FixedBytes.bytes : FixedBytes n → Bytes) := by
  refine selfDelimiting_of_length (fun field _ => field.size) ?_
  rintro ⟨a, ha⟩ _ ⟨b, hb⟩ _ h
  cases h
  rfl

/-- The length byte tells lengths up to 255 apart. -/
theorem selfDelimiting_lengthByte :
    SelfDelimiting {n : ℕ | n ≤ 255} fun n => [UInt8.ofNat n] := by
  refine selfDelimiting_of_length (fun _ _ => rfl) ?_
  intro a ha b hb h
  have hvalue := congrArg UInt8.toNat (List.cons.inj h).1
  rw [UInt8.toNat_ofNat', UInt8.toNat_ofNat'] at hvalue
  have hle : a ≤ 255 := ha
  have hle' : b ≤ 255 := hb
  omega

/-- A text of at most 255 bytes behind its length ends by itself. -/
theorem selfDelimiting_pushLenPrefixed :
    SelfDelimiting {s : String | (utf8 s).length ≤ 255} fun s => pushLenPrefixed (utf8 s) := by
  refine (selfDelimiting_lengthByte.lengthPrefixed.comp utf8_injective).congr ?_
  intro s hs
  have hle : (utf8 s).length ≤ 255 := hs
  unfold pushLenPrefixed
  rw [Nat.min_eq_left hle, List.take_of_length_le hle]
  rfl

/-- The sorted pair determines the unordered one. -/
theorem eq_or_swap_of_sortKeys_eq {tx rx tx' rx' : Key} (h : sortKeys tx rx = sortKeys tx' rx') :
    (tx = tx' ∧ rx = rx') ∨ (tx = rx' ∧ rx = tx') := by
  unfold sortKeys at h
  split at h
  · split at h
    · exact Or.inl (Prod.mk.inj h)
    · exact Or.inr (Prod.mk.inj h)
  · split at h
    · exact Or.inr (Prod.mk.inj h).symm
    · exact Or.inl (Prod.mk.inj h).symm

/-- What goes into a confirmation tag. -/
structure TagFields where
  /-- Raw pairing id. -/
  pairingId : FixedBytes 16
  /-- The daemon's id. -/
  daemonId : String
  /-- The daemon's host name. -/
  hostname : String
  /-- Public key of the daemon. -/
  daemonPubKey : Key
  /-- Public key of the app. -/
  frontendPubKey : Key
  /-- Send key of the deriving side. -/
  tx : Key
  /-- Its receive key. -/
  rx : Key

/-- The text that is hashed. -/
def TagFields.input (fields : TagFields) : Bytes :=
  pctInput fields.pairingId fields.daemonId fields.hostname fields.daemonPubKey
    fields.frontendPubKey fields.tx fields.rx

/-- The two texts of the fields have at most 255 bytes. -/
def TagFields.Fit (fields : TagFields) : Prop :=
  (utf8 fields.daemonId).length ≤ 255 ∧ (utf8 fields.hostname).length ≤ 255

/-- The hashed text of a tag is read back up to the order of the two keys. -/
theorem TagFields.input_inj {fields others : TagFields} (hfields : fields.Fit)
    (hothers : others.Fit) (h : fields.input = others.input) :
    fields.pairingId = others.pairingId ∧ fields.daemonId = others.daemonId ∧
      fields.hostname = others.hostname ∧ fields.daemonPubKey = others.daemonPubKey ∧
      fields.frontendPubKey = others.frontendPubKey ∧
      ((fields.tx = others.tx ∧ fields.rx = others.rx) ∨
        (fields.tx = others.rx ∧ fields.rx = others.tx)) := by
  unfold TagFields.input pctInput at h
  simp only [List.append_assoc] at h
  have hkey := selfDelimiting_bytes 32
  have htext := selfDelimiting_pushLenPrefixed
  have h1 := List.append_cancel_left (List.append_cancel_left h)
  obtain ⟨hpairing, h2⟩ := selfDelimiting_bytes 16 _ trivial _ trivial _ _ h1
  obtain ⟨hdaemon, h3⟩ := htext _ hfields.1 _ hothers.1 _ _ h2
  obtain ⟨hhost, h4⟩ := htext _ hfields.2 _ hothers.2 _ _ h3
  obtain ⟨hdaemonKey, h5⟩ := hkey _ trivial _ trivial _ _ h4
  obtain ⟨hfrontendKey, h6⟩ := hkey _ trivial _ trivial _ _ h5
  obtain ⟨hsmaller, h7⟩ := hkey _ trivial _ trivial _ _ h6
  obtain ⟨hlarger, _⟩ := hkey _ trivial _ trivial [] [] (by simpa using h7)
  exact ⟨hpairing, hdaemon, hhost, hdaemonKey, hfrontendKey,
    eq_or_swap_of_sortKeys_eq (Prod.ext hsmaller hlarger)⟩

/-- The hashed text of a session key is read back. The id has no length in front
of it, but the text ends one byte after it. -/
theorem ratchetInput_inj {key key' : Key} {sid sid' : String} {label label' : UInt8}
    (h : ratchetInput key sid label = ratchetInput key' sid' label') :
    key = key' ∧ sid = sid' ∧ label = label' := by
  unfold ratchetInput at h
  obtain ⟨hfront, hlabel⟩ := List.append_inj' h rfl
  obtain ⟨hkey, hsid⟩ := selfDelimiting_bytes 32 key trivial key' trivial _ _ hfront
  exact ⟨hkey, utf8_injective hsid, (List.cons.inj hlabel).1⟩

/-- The texts that are hashed for tags and for session keys determine what goes
into them. -/
theorem hashed_texts_unambiguous :
    (∀ fields others : TagFields, fields.Fit → others.Fit → fields.input = others.input →
      fields.pairingId = others.pairingId ∧ fields.daemonId = others.daemonId ∧
        fields.hostname = others.hostname ∧ fields.daemonPubKey = others.daemonPubKey ∧
        fields.frontendPubKey = others.frontendPubKey ∧
        ((fields.tx = others.tx ∧ fields.rx = others.rx) ∨
          (fields.tx = others.rx ∧ fields.rx = others.tx))) ∧
      ∀ (key key' : Key) (sid sid' : String) (label label' : UInt8),
        ratchetInput key sid label = ratchetInput key' sid' label' →
          key = key' ∧ sid = sid' ∧ label = label' :=
  ⟨fun _ _ hfields hothers h => TagFields.input_inj hfields hothers h,
    fun _ _ _ _ _ _ h => ratchetInput_inj h⟩

/-- Fields of a tag over the keys of the sample, as the daemon holds them. -/
def sampleTagFields : TagFields where
  pairingId := ⟨bytesOfNat 16 0x000102030405060708090a0b0c0d0e0f, rfl⟩
  daemonId := "daemon-1"
  hostname := "host"
  daemonPubKey := sampleDaemonPublic
  frontendPubKey := sampleAppPublic
  tx := sampleFirstHalf
  rx := sampleSecondHalf

/-- The two sides of the sample hash one text, each with its own order of the
keys; the two labels of a session lead to two texts. -/
theorem hashed_texts_unambiguous_sample :
    let others := { sampleTagFields with tx := sampleSecondHalf, rx := sampleFirstHalf }
    sampleTagFields.input = others.input ∧
      ((sampleTagFields.tx = others.tx ∧ sampleTagFields.rx = others.rx) ∨
        (sampleTagFields.tx = others.rx ∧ sampleTagFields.rx = others.tx)) ∧
      ratchetInput sampleFirstHalf "s1" 97 ≠ ratchetInput sampleFirstHalf "s1" 98 := by
  intro others
  have hinput : sampleTagFields.input = others.input :=
    congrArg (fun sorted : Key × Key =>
      utf8 "tp-pairing-confirm" ++ [1] ++ sampleTagFields.pairingId.bytes ++
        pushLenPrefixed (utf8 "daemon-1") ++ pushLenPrefixed (utf8 "host") ++
        sampleDaemonPublic.bytes ++ sampleAppPublic.bytes ++ sorted.1.bytes ++ sorted.2.bytes)
      (sortKeys_comm sampleFirstHalf sampleSecondHalf)
  have hfit : sampleTagFields.Fit := by
    constructor
    · decide
    · decide
  obtain ⟨_, _, _, _, _, hkeys⟩ :=
    hashed_texts_unambiguous.1 sampleTagFields others hfit hfit hinput
  refine ⟨hinput, hkeys, fun h => ?_⟩
  have hlabel : (97 : UInt8) = 98 := (hashed_texts_unambiguous.2 _ _ _ _ _ _ h).2.2
  exact absurd hlabel (by decide)

end Readings
end Teleprompter.SessionRatchet
