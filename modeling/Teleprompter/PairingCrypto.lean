import Mathlib.Algebra.Order.Ring.Rat
import Mathlib.Data.List.Basic
import Mathlib.Data.Rat.Encodable
import Mathlib.Logic.Equiv.List

/-!
# Keys, envelopes and the confirmation tag of a pairing

Byte strings have a fixed length where the source has fixed-size arrays.
Scalar multiplication, the two hash sizes, the authenticated cipher, base64
and the JSON coding of a key-exchange payload come from libraries and are
fields of a suite; what the two sides rely on is collected in one structure
of laws. Envelopes, key schedules and the tag are built from them as in the
core crate.
-/

namespace Teleprompter.PairingCrypto

/-- Raw bytes. -/
abbrev Bytes := List UInt8

/-- A byte string of a fixed length. -/
structure FixedBytes (n : ℕ) where
  /-- The bytes themselves. -/
  bytes : Bytes
  /-- Their number. -/
  size : bytes.length = n
  deriving DecidableEq

/-- A byte string as a fixed-size one, when it has that size. -/
def FixedBytes.ofBytes (n : ℕ) (bytes : Bytes) : Option (FixedBytes n) :=
  if h : bytes.length = n then some ⟨bytes, h⟩ else none

/-- A fixed-size string is recovered from its bytes. -/
@[simp] theorem FixedBytes.ofBytes_bytes {n : ℕ} (b : FixedBytes n) :
    FixedBytes.ofBytes n b.bytes = some b := dif_pos b.size

/-- Keys, points, seeds and tags have 32 bytes. -/
abbrev Key := FixedBytes 32

/-- Nonces of the authenticated cipher have 24 bytes. -/
abbrev Nonce := FixedBytes 24

/-- The UTF-8 bytes of a text. -/
def utf8 (s : String) : Bytes := s.toUTF8.data.toList

/-- The fields of a key-exchange payload that a handler reads. -/
structure KxPayload where
  /-- Base64 of the sender's public key. -/
  pk : Option String
  /-- The sending frontend; a daemon sends none. -/
  frontendId : Option String
  /-- Advertised protocol version. -/
  v : Option ℚ
  deriving DecidableEq

/-- The library functions both sides call. -/
structure CryptoSuite where
  /-- X25519 of a secret and a point. -/
  scalarMult : Key → Key → Key
  /-- X25519 of a secret and the base point. -/
  scalarBase : Key → Key
  /-- Keyless BLAKE2b with 32 bytes of output. -/
  genericHash32 : Bytes → Key
  /-- Keyless BLAKE2b with 64 bytes of output, as two halves. -/
  blake2b512 : Bytes → Key × Key
  /-- XChaCha20-Poly1305: ciphertext followed by its tag. -/
  aeadEncrypt : Key → Nonce → Bytes → Bytes
  /-- The inverse, when the tag verifies. -/
  aeadDecrypt : Key → Nonce → Bytes → Option Bytes
  /-- Standard base64. -/
  toBase64 : Bytes → String
  /-- Standard base64 decoding. -/
  fromBase64 : String → Option Bytes
  /-- JSON text of a payload. -/
  encodeKx : KxPayload → Bytes
  /-- Payload of a JSON text. -/
  decodeKx : Bytes → Option KxPayload

/-- What the two sides rely on. -/
structure CryptoSuite.Lawful (suite : CryptoSuite) : Prop where
  /-- Both sides of an exchange reach the same point. -/
  scalarMult_comm : ∀ a b, suite.scalarMult a (suite.scalarBase b) =
    suite.scalarMult b (suite.scalarBase a)
  /-- A ciphertext opens under its own key and nonce. -/
  aead_round_trip : ∀ key nonce msg,
    suite.aeadDecrypt key nonce (suite.aeadEncrypt key nonce msg) = some msg
  /-- A ciphertext is its message and a 16-byte tag. -/
  aead_length : ∀ key nonce msg,
    (suite.aeadEncrypt key nonce msg).length = msg.length + 16
  /-- Base64 decodes what it encoded. -/
  base64_round_trip : ∀ bytes, suite.fromBase64 (suite.toBase64 bytes) = some bytes
  /-- The text of some bytes is not empty. -/
  base64_nonempty : ∀ bytes, bytes ≠ [] → suite.toBase64 bytes ≠ ""
  /-- A payload survives its JSON text. -/
  kx_round_trip : ∀ payload, suite.decodeKx (suite.encodeKx payload) = some payload

section Keys

variable (suite : CryptoSuite)

/-- A key-exchange key pair; the public key belongs to the secret. -/
structure KxKeyPair where
  /-- The point that is sent. -/
  publicKey : Key
  /-- The scalar that stays. -/
  secretKey : Key
  /-- The public key is the base multiple of the secret. -/
  consistent : publicKey = suite.scalarBase secretKey

/-- Receive and send key of one side. -/
structure SessionKeys where
  /-- Opens what the peer sent. -/
  rx : Key
  /-- Seals what the peer receives. -/
  tx : Key
  deriving DecidableEq

/-- The keys as the other side holds them. -/
def SessionKeys.mirror (keys : SessionKeys) : SessionKeys := ⟨keys.tx, keys.rx⟩

/-- Key pair of a seed: the secret is the hash of the seed. -/
def kxSeedKeypair (seed : Key) : KxKeyPair suite :=
  ⟨suite.scalarBase (suite.genericHash32 seed.bytes), suite.genericHash32 seed.bytes, rfl⟩

/-- Symmetric key of the key-exchange envelopes. -/
def deriveKxKey (pairingSecret : Bytes) : Key :=
  suite.genericHash32 (pairingSecret ++ utf8 "kx-envelope")

/-- Session-key schedule over the shared point and the two public keys. -/
def kxKdf (shared clientPk serverPk : Key) : Key × Key :=
  suite.blake2b512 (shared.bytes ++ clientPk.bytes ++ serverPk.bytes)

/-- Session keys of the server, which is the daemon. -/
def kxServerSessionKeys (pk sk peerPk : Key) : SessionKeys :=
  let keys := kxKdf suite (suite.scalarMult sk peerPk) peerPk pk
  { tx := keys.1, rx := keys.2 }

/-- Session keys of the client, which is the app. -/
def kxClientSessionKeys (pk sk peerPk : Key) : SessionKeys :=
  let keys := kxKdf suite (suite.scalarMult sk peerPk) pk peerPk
  { rx := keys.1, tx := keys.2 }

/-- Base64 of nonce, ciphertext and tag. -/
def sealBlob (plaintext : Bytes) (key : Key) (nonce : Nonce) : String :=
  suite.toBase64 (nonce.bytes ++ suite.aeadEncrypt key nonce plaintext)

/-- Open a sealed blob; it must hold at least a nonce and a tag. -/
def openBlob (encoded : String) (key : Key) : Option Bytes :=
  (suite.fromBase64 encoded).bind fun combined =>
    if combined.length < 40 then none
    else (FixedBytes.ofBytes 24 (combined.take 24)).bind fun nonce =>
      suite.aeadDecrypt key nonce (combined.drop 24)

/-- One byte of length, then at most 255 bytes. -/
def pushLenPrefixed (bytes : Bytes) : Bytes :=
  UInt8.ofNat (min bytes.length 255) :: bytes.take 255

/-- Session keys in lexicographic order. -/
def sortKeys (tx rx : Key) : Key × Key := if tx.bytes ≤ rx.bytes then (tx, rx) else (rx, tx)

/-- The text that the confirmation tag hashes. -/
def pctInput (pairingId : FixedBytes 16) (daemonId hostname : String)
    (daemonPubKey frontendPubKey tx rx : Key) : Bytes :=
  utf8 "tp-pairing-confirm" ++ [1] ++ pairingId.bytes ++ pushLenPrefixed (utf8 daemonId) ++
    pushLenPrefixed (utf8 hostname) ++ daemonPubKey.bytes ++ frontendPubKey.bytes ++
    (sortKeys tx rx).1.bytes ++ (sortKeys tx rx).2.bytes

/-- The pairing confirmation tag. -/
def derivePairingConfirmationTag (pairingId : FixedBytes 16) (daemonId hostname : String)
    (daemonPubKey frontendPubKey tx rx : Key) : Key :=
  suite.genericHash32 (pctInput pairingId daemonId hostname daemonPubKey frontendPubKey tx rx)

variable {suite}

/-- Both sides of an exchange derive the same keys, each with the directions
of the other swapped, whenever scalar multiplication commutes. -/
theorem kxServerSessionKeys_mirror_of_comm
    (hcomm : ∀ a b, suite.scalarMult a (suite.scalarBase b) =
      suite.scalarMult b (suite.scalarBase a)) (server client : KxKeyPair suite) :
    kxServerSessionKeys suite server.publicKey server.secretKey client.publicKey =
      (kxClientSessionKeys suite client.publicKey client.secretKey server.publicKey).mirror := by
  have hshared : suite.scalarMult server.secretKey client.publicKey =
      suite.scalarMult client.secretKey server.publicKey := by
    rw [client.consistent, server.consistent]
    exact hcomm server.secretKey client.secretKey
  unfold kxServerSessionKeys kxClientSessionKeys SessionKeys.mirror
  rw [hshared]

/-- Both sides of an exchange derive the same keys, each with the
directions of the other swapped. -/
theorem kxServerSessionKeys_mirror (laws : suite.Lawful) (server client : KxKeyPair suite) :
    kxServerSessionKeys suite server.publicKey server.secretKey client.publicKey =
      (kxClientSessionKeys suite client.publicKey client.secretKey server.publicKey).mirror :=
  kxServerSessionKeys_mirror_of_comm laws.scalarMult_comm server client

/-- Sorting forgets which side the keys came from. -/
theorem sortKeys_comm (tx rx : Key) : sortKeys tx rx = sortKeys rx tx := by
  unfold sortKeys
  split
  · next h =>
    split
    · next h' =>
      have heq : tx.bytes = rx.bytes := List.le_antisymm h h'
      cases tx
      cases rx
      cases heq
      rfl
    · rfl
  · next h =>
    rw [if_pos ((List.le_total tx.bytes rx.bytes).resolve_left h)]

/-- The tag does not depend on the side that derives it. -/
theorem derivePairingConfirmationTag_comm (pairingId : FixedBytes 16)
    (daemonId hostname : String) (daemonPubKey frontendPubKey tx rx : Key) :
    derivePairingConfirmationTag suite pairingId daemonId hostname daemonPubKey frontendPubKey
        tx rx =
      derivePairingConfirmationTag suite pairingId daemonId hostname daemonPubKey frontendPubKey
        rx tx := by
  unfold derivePairingConfirmationTag pctInput
  rw [sortKeys_comm tx rx]

/-- A blob opens to its plaintext when the cipher opens the ciphertext. -/
theorem openBlob_sealBlob_of {plaintext : Bytes} {key : Key} {nonce : Nonce}
    (hbase64 : ∀ bytes, suite.fromBase64 (suite.toBase64 bytes) = some bytes)
    (htagged : 16 ≤ (suite.aeadEncrypt key nonce plaintext).length)
    (hopens : suite.aeadDecrypt key nonce (suite.aeadEncrypt key nonce plaintext) =
      some plaintext) :
    openBlob suite (sealBlob suite plaintext key nonce) key = some plaintext := by
  have hsize := nonce.size
  unfold openBlob sealBlob
  rw [hbase64, Option.bind_some, if_neg (by rw [List.length_append]; omega),
    List.take_left' hsize, List.drop_left' hsize, FixedBytes.ofBytes_bytes, Option.bind_some]
  exact hopens

/-- A sealed blob opens to its plaintext. -/
theorem openBlob_sealBlob (laws : suite.Lawful) (plaintext : Bytes) (key : Key) (nonce : Nonce) :
    openBlob suite (sealBlob suite plaintext key nonce) key = some plaintext := by
  have hlength := laws.aead_length key nonce plaintext
  exact openBlob_sealBlob_of laws.base64_round_trip (by omega)
    (laws.aead_round_trip key nonce plaintext)

end Keys

section PairingIds

/-- Value of a hexadecimal digit in either case. -/
def hexDigit (c : Char) : Option ℕ :=
  if '0' ≤ c ∧ c ≤ '9' then some (c.toNat - 48)
  else if 'a' ≤ c ∧ c ≤ 'f' then some (c.toNat - 87)
  else if 'A' ≤ c ∧ c ≤ 'F' then some (c.toNat - 55)
  else none

/-- Bytes of a text of hexadecimal digit pairs. -/
def hexBytes : List Char → Option Bytes
  | [] => some []
  | [_] => none
  | hi :: lo :: rest =>
    match hexDigit hi, hexDigit lo, hexBytes rest with
    | some high, some low, some bytes => some (UInt8.ofNat (16 * high + low) :: bytes)
    | _, _, _ => none

/-- The daemon's reading of a pairing id: dashes anywhere are ignored. -/
def parseUuid16 (s : String) : Option (FixedBytes 16) :=
  let hexOnly := s.toList.filter fun c => c ≠ '-'
  if hexOnly.length ≠ 32 ∨ ¬hexOnly.all fun c => (hexDigit c).isSome then none
  else (hexBytes hexOnly).bind (FixedBytes.ofBytes 16)

/-- Dash-separated groups of hexadecimal digits of the given lengths. -/
def readGroups : List ℕ → List Char → Option (List Char)
  | [], _ => none
  | [n], s => if s.length = n ∧ s.all fun c => (hexDigit c).isSome then some s else none
  | n :: m :: lengths, s =>
    if (s.take n).length = n ∧ (s.take n).all fun c => (hexDigit c).isSome then
      match s.drop n with
      | '-' :: rest => (readGroups (m :: lengths) rest).map (s.take n ++ ·)
      | _ => none
    else none

/-- Group lengths of a canonical UUID text. -/
def uuidGroups : List ℕ := [8, 4, 4, 4, 12]

/-- The app's reading of a pairing id: canonical UUID text only. -/
def uuid16 (s : String) : Option (FixedBytes 16) :=
  ((readGroups uuidGroups s.toList).bind hexBytes).bind (FixedBytes.ofBytes 16)

/-- A pairing id as both sides store it: absent on legacy records, else a
canonical UUID text, which is the only form the generators produce. -/
structure PairingId where
  /-- The stored text. -/
  text : String
  /-- Absent or canonical. -/
  wellFormed : text = "" ∨ (readGroups uuidGroups text.toList).isSome

/-- A hexadecimal digit is not a dash. -/
theorem ne_dash_of_hexDigit {c : Char} (h : (hexDigit c).isSome) : c ≠ '-' := by
  rintro rfl
  revert h
  decide

/-- A text of hexadecimal digits has no dash to drop. -/
theorem filter_dash_of_hex {s : List Char} (h : s.all fun c => (hexDigit c).isSome) :
    s.filter (fun c => c ≠ '-') = s := by
  rw [List.filter_eq_self]
  intro c hc
  exact decide_eq_true (ne_dash_of_hexDigit (List.all_eq_true.mp h c hc))

/-- Group reading returns the text without its dashes. -/
theorem readGroups_spec {lengths : List ℕ} {s digits : List Char}
    (h : readGroups lengths s = some digits) :
    s.filter (fun c => c ≠ '-') = digits ∧ (digits.all fun c => (hexDigit c).isSome) ∧
      digits.length = lengths.foldr (· + ·) 0 := by
  induction lengths generalizing s digits with
  | nil => cases h
  | cons n lengths ih =>
    cases lengths with
    | nil =>
      simp only [readGroups] at h
      split at h
      · next hs =>
        cases h
        exact ⟨filter_dash_of_hex hs.2, hs.2, hs.1⟩
      · cases h
    | cons m lengths =>
      simp only [readGroups] at h
      split at h
      · next hs =>
        split at h
        · next rest hd =>
          obtain ⟨tail, htail, rfl⟩ := Option.map_eq_some_iff.mp h
          obtain ⟨hfilter, hhex, hlen⟩ := ih htail
          refine ⟨?_, ?_, ?_⟩
          · conv_lhs => rw [← List.take_append_drop n s, hd]
            rw [List.filter_append, filter_dash_of_hex hs.2,
              List.filter_cons_of_neg (by decide), hfilter]
          · rw [List.all_append, hs.2, hhex, Bool.and_true]
          · rw [List.length_append, hs.1, hlen]
            rfl
        · cases h
      · cases h

/-- A text of an even number of hexadecimal digits has half as many bytes. -/
theorem hexBytes_of_hex {k : ℕ} {digits : List Char} (hlen : digits.length = 2 * k)
    (hhex : digits.all fun c => (hexDigit c).isSome) :
    ∃ bytes, hexBytes digits = some bytes ∧ bytes.length = k := by
  induction k generalizing digits with
  | zero =>
    cases List.length_eq_zero_iff.mp hlen
    exact ⟨[], rfl, rfl⟩
  | succ k ih =>
    match digits, hlen, hhex with
    | hi :: lo :: rest, hlen, hhex =>
      rw [List.all_cons, List.all_cons, Bool.and_eq_true, Bool.and_eq_true] at hhex
      obtain ⟨hhi, hlo, hrest⟩ := hhex
      obtain ⟨high, hhigh⟩ := Option.isSome_iff_exists.mp hhi
      obtain ⟨low, hlow⟩ := Option.isSome_iff_exists.mp hlo
      have hlen' : rest.length = 2 * k := by
        simp only [List.length_cons] at hlen
        omega
      obtain ⟨bytes, hbytes, hsize⟩ := ih hlen' hrest
      refine ⟨UInt8.ofNat (16 * high + low) :: bytes, ?_, by rw [List.length_cons, hsize]⟩
      rw [hexBytes, hhigh, hlow, hbytes]

/-- Both readers agree on a canonical text, and read it. -/
theorem uuid16_eq_parseUuid16 {s : String} (h : (readGroups uuidGroups s.toList).isSome) :
    ∃ raw, uuid16 s = some raw ∧ parseUuid16 s = some raw := by
  obtain ⟨digits, hdigits⟩ := Option.isSome_iff_exists.mp h
  obtain ⟨hfilter, hhex, hlen⟩ := readGroups_spec hdigits
  obtain ⟨bytes, hbytes, hsize⟩ := hexBytes_of_hex (k := 16) hlen hhex
  refine ⟨⟨bytes, hsize⟩, ?_, ?_⟩
  · rw [uuid16, hdigits, Option.bind_some, hbytes, Option.bind_some]
    exact dif_pos hsize
  · unfold parseUuid16
    simp only [hfilter]
    rw [if_neg (by rw [hlen, hhex]; decide), hbytes, Option.bind_some]
    exact dif_pos hsize

end PairingIds

section Sample

/-- The last bytes of a number, most significant first. -/
def bytesOfNat : ℕ → ℕ → Bytes
  | 0, _ => []
  | len + 1, n => bytesOfNat len (n / 256) ++ [UInt8.ofNat (n % 256)]

/-- Secret of the sample pairing. -/
def samplePairingSecret : Bytes :=
  bytesOfNat 32 0x0102030405060708090a0b0c0d0e0f101112131415161718191a1b1c1d1e1f20

/-- The daemon's secret scalar. -/
def sampleDaemonSecret : Key :=
  ⟨bytesOfNat 32 0x2122232425262728292a2b2c2d2e2f303132333435363738393a3b3c3d3e3f40, rfl⟩

/-- Its base multiple. -/
def sampleDaemonPublic : Key :=
  ⟨bytesOfNat 32 0x5869aff450549732cbaaed5e5df9b30a6da31cb0e5742bad5ad4a1a768f1a67b, rfl⟩

/-- The seed the app draws. -/
def sampleSeed : Key :=
  ⟨bytesOfNat 32 0x0707070707070707070707070707070707070707070707070707070707070707, rfl⟩

/-- Hash of the seed. -/
def sampleAppSecret : Key :=
  ⟨bytesOfNat 32 0x17cdc7bca3f2a0bda60c6de5b96f82a36239b44bde397a3862d529ba8b3d7c62, rfl⟩

/-- Base multiple of the app's secret. -/
def sampleAppPublic : Key :=
  ⟨bytesOfNat 32 0x8db577f9b9c2744798987db557bf31ca48acd205a9db8c320e5d49f302a96474, rfl⟩

/-- The point both sides reach. -/
def sampleShared : Key :=
  ⟨bytesOfNat 32 0x256c10aec733ad2f99c75a2e84486f81803df4ef4887046513bc31ef6962d128, rfl⟩

/-- Envelope key of the pairing. -/
def sampleKxKey : Key :=
  ⟨bytesOfNat 32 0x602a8c5790e23dc04959009624e1c5f7f46d5b0df6d172b73d5d9b2f8201a048, rfl⟩

/-- First half of the session-key hash. -/
def sampleFirstHalf : Key :=
  ⟨bytesOfNat 32 0x46f5fb430d1de48b117aab79e71bc97003adb7af64f8c6d65d4324e28d968358, rfl⟩

/-- Second half of the session-key hash. -/
def sampleSecondHalf : Key :=
  ⟨bytesOfNat 32 0xec21f9ad359dd248074d748fd7a63d31109f2509f1aebea4840abb4c939d640a, rfl⟩

/-- Confirmation tag of the exchange. -/
def sampleTag : Key :=
  ⟨bytesOfNat 32 0x797b38c5b733f5b39810c283834e3d85bed05d523193789c99c69760e3fec141, rfl⟩

/-- Nonce of the daemon's envelope. -/
def sampleDaemonNonce : Nonce :=
  ⟨bytesOfNat 24 0x050505050505050505050505050505050505050505050505, rfl⟩

/-- Nonce of the app's envelope. -/
def sampleAppNonce : Nonce :=
  ⟨bytesOfNat 24 0x090909090909090909090909090909090909090909090909, rfl⟩

/-- JSON text of the daemon's payload. -/
def sampleDaemonJson : Bytes :=
  bytesOfNat 38 0x7b226c6162656c223a7b22736574223a66616c73657d2c22706b223a2257476d76394642556c ++
    bytesOfNat 38 0x7a4c4c7175316558666d7a436d326a484c446c644375745774536870326a78706e733d222c22 ++
    bytesOfNat 21 0x726f6c65223a226461656d6f6e222c2276223a337d

/-- JSON text of the app's payload. -/
def sampleAppJson : Bytes :=
  bytesOfNat 38 0x7b22706b223a226a6256332b626e43644565596d48323156373878796b697330675770323477 ++
    bytesOfNat 38 0x79446c314a38774b705a48513d222c2266726f6e74656e644964223a2266222c22726f6c6522 ++
    bytesOfNat 18 0x3a2266726f6e74656e64222c2276223a337d

/-- Ciphertext and tag of the daemon's envelope. -/
def sampleDaemonCt : Bytes :=
  bytesOfNat 38 0x09186504b06481a5510d8755715a53e09a621c86cc033ac70a65422807fc1e6351a224eb8a93 ++
    bytesOfNat 38 0x507e64498490ce0d7379ec899036f2c295dd6b70fbb9f8dd9c08aeb46d666c4d9d1074d67bc2 ++
    bytesOfNat 37 0xbd8c7bd27399e78d46cb96a7c0b17e086872955fbb67d050b03f9643453b855f53d1ec1e8a

/-- Ciphertext and tag of the app's envelope. -/
def sampleAppCt : Bytes :=
  bytesOfNat 38 0xb9eb49814350701437af9917be7838c3bbb91a451afa61191bd1f4a4fef58e42e5c0e5be818a ++
    bytesOfNat 38 0xb533c21bbbe93b88cfc348a21e85f64e6edd2cf1aabd7c8b4a226b42b66faece2411ad5da1ed ++
    bytesOfNat 34 0xbcc9595932648edfc8abb5132899ea45aa5dda6ed988f316bc5d2df8a5bac35333e7

/-- Base64 of the daemon's envelope. -/
def sampleDaemonBlob : String :=
  "BQUFBQUFBQUFBQUFBQUFBQUFBQUFBQUFCRhlBLBkgaVRDYdVcVpT4JpiHIbMAzrHCmVCKAf8HmNR" ++
    "oiTripNQfmRJhJDODXN57ImQNvLCld1rcPu5+N2cCK60bWZsTZ0QdNZ7wr2Me9JzmeeNRsuWp8Cx" ++
    "fghocpVfu2fQULA/lkNFO4VfU9HsHoo="

/-- Base64 of the app's envelope. -/
def sampleAppBlob : String :=
  "CQkJCQkJCQkJCQkJCQkJCQkJCQkJCQkJuetJgUNQcBQ3r5kXvng4w7u5GkUa+mEZG9H0pP71jkLl" ++
    "wOW+gYq1M8Ibu+k7iM/DSKIehfZObt0s8aq9fItKImtCtm+uziQRrV2h7bzJWVkyZI7fyKu1EyiZ" ++
    "6kWqXdpu2YjzFrxdLfilusNTM+c="

/-- Base64 of the daemon's public key. -/
def sampleDaemonPk : String := "WGmv9FBUlzLLqu1eXfmzCm2jHLDldCutWtShp2jxpns="

/-- Base64 of the app's public key. -/
def sampleAppPk : String := "jbV3+bnCdEeYmH21V78xykis0gWp24wyDl1J8wKpZHQ="

/-- Id of the sample pairing. -/
def samplePairingId : PairingId := ⟨"01020304-0506-0708-090a-0b0c0d0e0f10", Or.inr rfl⟩

/-- A key that is none of the sample. -/
def zeroKey : Key := ⟨List.replicate 32 0, rfl⟩

/-- Base multiple on the sample; other points stand for themselves. -/
def sampleScalarBase (a : Key) : Key :=
  if a = sampleDaemonSecret then sampleDaemonPublic
  else if a = sampleAppSecret then sampleAppPublic
  else a

/-- The scalar a sample point belongs to. -/
def sampleScalar (p : Key) : Key :=
  if p = sampleDaemonPublic then sampleDaemonSecret
  else if p = sampleAppPublic then sampleAppSecret
  else p

/-- Shared point of two scalars of the sample. -/
def sampleScalarMult (a p : Key) : Key :=
  if (sampleScalar a = sampleDaemonSecret ∧ sampleScalar p = sampleAppSecret) ∨
      (sampleScalar p = sampleDaemonSecret ∧ sampleScalar a = sampleAppSecret) then sampleShared
  else zeroKey

/-- The three hashes of the sample. -/
def sampleHash32 (input : Bytes) : Key :=
  if input = sampleSeed.bytes then sampleAppSecret
  else if input = samplePairingSecret ++ utf8 "kx-envelope" then sampleKxKey
  else if input = pctInput ⟨bytesOfNat 16 0x0102030405060708090a0b0c0d0e0f10, rfl⟩ "daemon-1" "host"
      sampleDaemonPublic sampleAppPublic sampleFirstHalf sampleSecondHalf then sampleTag
  else zeroKey

/-- The session-key hash of the sample. -/
def sampleHash64 (input : Bytes) : Key × Key :=
  if input = sampleShared.bytes ++ sampleAppPublic.bytes ++ sampleDaemonPublic.bytes then
    (sampleFirstHalf, sampleSecondHalf)
  else (zeroKey, zeroKey)

/-- The two ciphertexts of the sample; other messages get a tag of zeros. -/
def sampleEncrypt (key : Key) (nonce : Nonce) (msg : Bytes) : Bytes :=
  if key = sampleKxKey ∧ nonce = sampleDaemonNonce ∧ msg = sampleDaemonJson then sampleDaemonCt
  else if key = sampleKxKey ∧ nonce = sampleAppNonce ∧ msg = sampleAppJson then sampleAppCt
  else msg ++ List.replicate 16 0

/-- Opens the two ciphertexts of the sample, and tags of zeros. -/
def sampleDecrypt (key : Key) (nonce : Nonce) (ct : Bytes) : Option Bytes :=
  if ct.getLast? = some 0 then some (ct.take (ct.length - 16))
  else if key = sampleKxKey ∧ nonce = sampleDaemonNonce ∧ ct = sampleDaemonCt then
    some sampleDaemonJson
  else if key = sampleKxKey ∧ nonce = sampleAppNonce ∧ ct = sampleAppCt then some sampleAppJson
  else none

/-- The texts of the sample with their bytes. -/
def sampleTexts : List (Bytes × String) :=
  [(sampleDaemonPublic.bytes, sampleDaemonPk), (sampleAppPublic.bytes, sampleAppPk),
    (sampleTag.bytes, "eXs4xbcz9bOYEMKDg049hb7QXVIxk3icmcaXYOP+wUE="),
    (sampleDaemonNonce.bytes ++ sampleDaemonCt, sampleDaemonBlob),
    (sampleAppNonce.bytes ++ sampleAppCt, sampleAppBlob)]

/-- Base64 on the sample; other bytes are numbered. -/
def sampleToBase64 (bytes : Bytes) : String :=
  match sampleTexts.find? fun entry => entry.1 = bytes with
  | some entry => entry.2
  | none => String.ofList (List.replicate (Encodable.encode (bytes.map UInt8.toNat) + 1) '*')

/-- Base64 decoding on the sample and on numbered bytes. -/
def sampleFromBase64 (s : String) : Option Bytes :=
  if (utf8 s).head? = some 42 then
    ((Encodable.decode ((utf8 s).length - 1) : Option (List ℕ))).map fun codes =>
      codes.map UInt8.ofNat
  else (sampleTexts.find? fun entry => entry.2 = s).map Prod.fst

/-- A payload as numbers. -/
def payloadCode (payload : KxPayload) : Option (List ℕ) × Option (List ℕ) × Option ℚ :=
  (payload.pk.map fun s => s.toList.map Char.toNat,
    payload.frontendId.map fun s => s.toList.map Char.toNat, payload.v)

/-- The payload of its numbers. -/
def payloadOfCode (code : Option (List ℕ) × Option (List ℕ) × Option ℚ) : KxPayload :=
  ⟨code.1.map fun codes => String.ofList (codes.map Char.ofNat),
    code.2.1.map fun codes => String.ofList (codes.map Char.ofNat), code.2.2⟩

/-- The payloads of the sample with their texts. -/
def samplePayloads : List (KxPayload × Bytes) :=
  [(⟨some sampleDaemonPk, none, some 3⟩, sampleDaemonJson),
    (⟨some sampleAppPk, some "f", some 3⟩, sampleAppJson)]

/-- JSON on the sample; other payloads are numbered. -/
def sampleEncodeKx (payload : KxPayload) : Bytes :=
  match samplePayloads.find? fun entry => entry.1 = payload with
  | some entry => entry.2
  | none => List.replicate (Encodable.encode (payloadCode payload) + 1) 0

/-- JSON decoding on the sample and on numbered payloads. -/
def sampleDecodeKx (bytes : Bytes) : Option KxPayload :=
  if bytes.head? = some 0 then (Encodable.decode (bytes.length - 1)).map payloadOfCode
  else (samplePayloads.find? fun entry => entry.2 = bytes).map Prod.fst

/-- A suite with the values of the real primitives on one exchange. -/
def sampleSuite : CryptoSuite where
  scalarMult := sampleScalarMult
  scalarBase := sampleScalarBase
  genericHash32 := sampleHash32
  blake2b512 := sampleHash64
  aeadEncrypt := sampleEncrypt
  aeadDecrypt := sampleDecrypt
  toBase64 := sampleToBase64
  fromBase64 := sampleFromBase64
  encodeKx := sampleEncodeKx
  decodeKx := sampleDecodeKx

/-- A base multiple belongs to the scalar it was made from. -/
theorem sampleScalar_base (b : Key) : sampleScalar (sampleScalarBase b) = sampleScalar b := by
  unfold sampleScalarBase
  split
  · next h =>
    rw [h]
    decide
  · split
    · next h =>
      rw [h]
      decide
    · rfl

/-- The sample cipher opens what it sealed. -/
theorem sampleDecrypt_encrypt (key : Key) (nonce : Nonce) (msg : Bytes) :
    sampleDecrypt key nonce (sampleEncrypt key nonce msg) = some msg := by
  unfold sampleEncrypt
  split
  · next h =>
    obtain ⟨rfl, rfl, rfl⟩ := h
    decide
  · split
    · next h =>
      obtain ⟨rfl, rfl, rfl⟩ := h
      decide
    · have hlast : (msg ++ List.replicate 16 (0 : UInt8)).getLast? = some 0 := by
        rw [List.getLast?_append]
        rfl
      rw [sampleDecrypt, if_pos hlast, List.length_append, List.length_replicate,
        Nat.add_sub_cancel, List.take_left]

/-- A sample ciphertext is its message and a 16-byte tag. -/
theorem sampleEncrypt_length (key : Key) (nonce : Nonce) (msg : Bytes) :
    (sampleEncrypt key nonce msg).length = msg.length + 16 := by
  unfold sampleEncrypt
  split
  · next h =>
    rw [h.2.2]
    rfl
  · split
    · next h =>
      rw [h.2.2]
      rfl
    · rw [List.length_append, List.length_replicate]

/-- The bytes of a row of stars. -/
theorem utf8_stars (n : ℕ) :
    utf8 (String.ofList (List.replicate n '*')) = List.replicate n 42 := by
  have hbytes : ∀ l : List Char, utf8 (String.ofList l) = l.flatMap String.utf8EncodeChar := by
    intro l
    simp only [utf8, String.toUTF8_eq_toByteArray, String.toByteArray_ofList, List.utf8Encode,
      List.data_toByteArray]
  rw [hbytes]
  induction n with
  | zero => rfl
  | succ n ih =>
    rw [List.replicate_succ, List.flatMap_cons, ih]
    rfl

/-- The sample texts decode to their bytes. -/
theorem sampleFromBase64_toBase64 (bytes : Bytes) :
    sampleFromBase64 (sampleToBase64 bytes) = some bytes := by
  have htexts : ∀ entry ∈ sampleTexts, sampleFromBase64 entry.2 = some entry.1 := by
    decide +kernel
  unfold sampleToBase64
  split
  · next entry hfind =>
    rw [htexts entry (List.mem_of_find?_eq_some hfind)]
    simpa using List.find?_some hfind
  · have hcodes : (bytes.map UInt8.toNat).map UInt8.ofNat = bytes := by
      have hid : UInt8.ofNat ∘ UInt8.toNat = id := funext fun b => UInt8.ofNat_toNat
      rw [List.map_map, hid, List.map_id]
    have hhead : ∀ n, (List.replicate (n + 1) (42 : UInt8)).head? = some 42 := fun _ => rfl
    rw [sampleFromBase64, utf8_stars, if_pos (hhead _),
      List.length_replicate, Nat.add_sub_cancel, Encodable.encodek, Option.map_some, hcodes]

/-- The sample texts are not empty. -/
theorem sampleToBase64_ne (bytes : Bytes) : sampleToBase64 bytes ≠ "" := by
  have htexts : ∀ entry ∈ sampleTexts, entry.2 ≠ "" := by decide +kernel
  unfold sampleToBase64
  split
  · next entry hfind => exact htexts entry (List.mem_of_find?_eq_some hfind)
  · intro hempty
    have hbytes := congrArg (fun s => (utf8 s).length) hempty
    rw [utf8_stars, List.length_replicate] at hbytes
    cases hbytes

/-- A payload is recovered from its numbers. -/
theorem payloadOfCode_payloadCode (payload : KxPayload) :
    payloadOfCode (payloadCode payload) = payload := by
  have htext : ∀ s : String, String.ofList ((s.toList.map Char.toNat).map Char.ofNat) = s := by
    intro s
    have hid : Char.ofNat ∘ Char.toNat = id := funext Char.ofNat_toNat
    rw [List.map_map, hid, List.map_id, String.ofList_toList]
  obtain ⟨pk, frontendId, v⟩ := payload
  cases pk <;> cases frontendId <;> simp only [payloadOfCode, payloadCode, Option.map_some,
    Option.map_none, htext]

/-- The sample payloads decode from their texts. -/
theorem sampleDecodeKx_encodeKx (payload : KxPayload) :
    sampleDecodeKx (sampleEncodeKx payload) = some payload := by
  have hpayloads : ∀ entry ∈ samplePayloads, sampleDecodeKx entry.2 = some entry.1 := by decide
  unfold sampleEncodeKx
  split
  · next entry hfind =>
    rw [hpayloads entry (List.mem_of_find?_eq_some hfind)]
    simpa using List.find?_some hfind
  · have hhead : ∀ n, (List.replicate (n + 1) (0 : UInt8)).head? = some 0 := fun _ => rfl
    rw [sampleDecodeKx, if_pos (hhead _), List.length_replicate,
      Nat.add_sub_cancel, Encodable.encodek, Option.map_some, payloadOfCode_payloadCode]

/-- The sample suite meets the laws. -/
theorem sampleSuite_lawful : sampleSuite.Lawful where
  scalarMult_comm a b := by
    change sampleScalarMult a (sampleScalarBase b) = sampleScalarMult b (sampleScalarBase a)
    unfold sampleScalarMult
    rw [sampleScalar_base, sampleScalar_base]
    exact if_congr or_comm rfl rfl
  aead_round_trip := sampleDecrypt_encrypt
  aead_length := sampleEncrypt_length
  base64_round_trip := sampleFromBase64_toBase64
  base64_nonempty bytes _ := sampleToBase64_ne bytes
  kx_round_trip := sampleDecodeKx_encodeKx

end Sample

end Teleprompter.PairingCrypto
