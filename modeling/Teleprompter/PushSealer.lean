import Teleprompter.DaemonLock
import Teleprompter.PairingLink
import Teleprompter.RelayConn

/-!
# The push-token sealer of the relay

Device tokens are handed to daemons sealed, under a key of the relay's own
secret. A blob names the version of its key; after a rotation the secret before
the last one is kept for blobs of the version before. Keys are derived once per
version and cached. The key derivation and the cipher with associated data come
from libraries, and random bytes and the environment are inputs.
-/

namespace Teleprompter.PushSealer

open FiniteDictionary PairingCrypto PairingLink RelayConn DaemonLock

/-- The library functions the sealer calls. -/
structure SealSuite where
  /-- BLAKE2b of a secret, in the domain of push seals. -/
  derivePushSealKey : Bytes → Key
  /-- XChaCha20-Poly1305 with a key, a nonce and associated data. -/
  aeadEncrypt : Key → Nonce → Bytes → Bytes → Except String Bytes
  /-- The inverse, when the tag verifies. -/
  aeadDecrypt : Key → Nonce → Bytes → Bytes → Option Bytes
  /-- Standard base64. -/
  toBase64 : Bytes → String
  /-- Standard base64 decoding. -/
  fromBase64 : String → Option Bytes

section Envelopes

variable (suite : SealSuite)

/-- Base64 of the nonce and the ciphertext. -/
def sealWithAad (plaintext : Bytes) (key : Key) (aad : Bytes) (nonce : Nonce) : Except String String :=
  (suite.aeadEncrypt key nonce aad plaintext).map fun ct => suite.toBase64 (nonce.bytes ++ ct)

/-- The plaintext of base64 text; a text too short for a nonce and a tag has none. -/
def openWithAad (encoded : String) (key : Key) (aad : Bytes) : Option Bytes :=
  (suite.fromBase64 encoded).bind fun combined =>
    if combined.length < 24 + 16 then none
    else (FixedBytes.ofBytes 24 (combined.take 24)).bind fun nonce =>
      suite.aeadDecrypt key nonce aad (combined.drop 24)

end Envelopes

/-- First part of every blob. -/
def blobMagic : String := "tpps1."

/-- Fewest bytes of a configured secret. -/
def secretMinChars : ℕ := 32

/-- Version when none is configured. -/
def defaultVersion : UInt32 := 1

/-- What the sealer reads from the environment; an unset variable is empty. -/
structure SealEnv where
  /-- The current secret. -/
  secret : String
  /-- The secret before. -/
  secretPrev : String
  /-- The key version. -/
  version : String

/-- A sealer. The cache of its keys is kept apart. -/
structure Sealer where
  /-- Bytes of the current secret. -/
  currentSecret : Bytes
  /-- Bytes of the secret before. -/
  prevSecret : Option Bytes
  /-- Version of the current key. -/
  version : UInt32
  /-- The secret was drawn at random. -/
  ephemeral : Bool
  /-- No key has version zero. -/
  version_pos : 0 < version

/-- The version a sealer starts with. -/
def resolveVersion (version : Option UInt32) (envVersion : String) : UInt32 :=
  match version with
  | some v => if 0 < v then v else defaultVersion
  | none =>
    if envVersion = "" then defaultVersion
    else (((parseU32 envVersion.toList).map UInt32.ofNat).filter fun v => 0 < v).getD defaultVersion

theorem resolveVersion_pos (version : Option UInt32) (envVersion : String) :
    0 < resolveVersion version envVersion := by
  have hdefault : 0 < defaultVersion := by decide
  cases version with
  | some v =>
    rw [resolveVersion]
    split
    · assumption
    · exact hdefault
  | none =>
    rw [resolveVersion]
    split
    · exact hdefault
    · cases hparsed : ((parseU32 envVersion.toList).map UInt32.ofNat).filter fun v => 0 < v with
      | none => exact hdefault
      | some v => exact of_decide_eq_true (Option.filter_eq_some_iff.mp hparsed).2

/-- A sealer with explicit values before those of the environment; a secret that is
too short is replaced by random bytes, a previous one that is too short is dropped. -/
def Sealer.new (secret secretPrev : Option String) (version : Option UInt32) (env : SealEnv)
    (random : FixedBytes 32) : Sealer where
  currentSecret :=
    if secretMinChars ≤ (secret.getD env.secret).utf8ByteSize then utf8 (secret.getD env.secret)
    else random.bytes
  prevSecret :=
    ((secretPrev.or (if env.secretPrev = "" then none else some env.secretPrev)).filter fun raw =>
      secretMinChars ≤ raw.utf8ByteSize).map utf8
  version := resolveVersion version env.version
  ephemeral := !decide (secretMinChars ≤ (secret.getD env.secret).utf8ByteSize)
  version_pos := resolveVersion_pos version env.version

/-- Decimal text of a version. -/
def versionText (version : UInt32) : List Char := Nat.toDigits 10 version.toNat

/-- First part of the blobs of a version, which is also their associated data. -/
def blobPrefix (version : UInt32) : String := blobMagic ++ String.ofList (versionText version)

/-- Derived keys by version. -/
abbrev KeyCache := Dict UInt32 Key

section Operations

variable (suite : SealSuite) (sealer : Sealer)

/-- The secret of a version, if it is covered. -/
def rawSecret (version : UInt32) : Option Bytes :=
  if version = sealer.version then some sealer.currentSecret
  else if version = sealer.version - 1 ∧ 0 < sealer.version ∧ sealer.prevSecret.isSome then
    sealer.prevSecret
  else none

/-- The key of a version, from the cache or derived and cached. -/
def getKey (cache : KeyCache) (version : UInt32) : KeyCache × Option Key :=
  match cache.lookup version with
  | some key => (cache, some key)
  | none =>
    match rawSecret sealer version with
    | none => (cache, none)
    | some raw =>
      (cache.insert version (suite.derivePushSealKey raw), some (suite.derivePushSealKey raw))

/-- The result of sealing under a key that was looked up. -/
def sealResult (key : Option Key) (token : String) (nonce : Nonce) : Except String String :=
  match key with
  | none => .error "PushSealer: could not derive current key"
  | some key =>
    match sealWithAad suite (utf8 token) key (utf8 (blobPrefix sealer.version)) nonce with
    | .error e => .error ("PushSealer: seal_with_aad failed: " ++ e)
    | .ok b64 => .ok (blobPrefix sealer.version ++ "." ++ b64)

/-- Seal a token. -/
def sealToken (cache : KeyCache) (token : String) (nonce : Nonce) : KeyCache × Except String String :=
  let looked := getKey suite sealer cache sealer.version
  (looked.1, sealResult suite sealer looked.2 token nonce)

/-- A version text, if it is the decimal text of a version. -/
def parseVersion (versionStr : List Char) : Option UInt32 :=
  ((parseU32 versionStr).map UInt32.ofNat).filter fun version => versionText version = versionStr

/-- Version and payload of what follows the magic. -/
def parseBlob (afterMagic : List Char) : Option (UInt32 × String) :=
  (splitOnce '.' afterMagic).bind fun parts =>
    (parseVersion parts.1).map fun version => (version, String.ofList parts.2)

/-- The token of opened bytes. -/
def tokenOf : Option Bytes → UnsealResult
  | none => .unsealFailed
  | some plaintext =>
    match String.fromUTF8? ⟨plaintext.toArray⟩ with
    | some token => .ok token
    | none => .unsealFailed

/-- The result of unsealing under a key that was looked up. -/
def unsealResult (key : Option Key) (version : UInt32) (b64 : String) : UnsealResult :=
  match key with
  | none => .unsealFailed
  | some key => tokenOf (openWithAad suite b64 key (utf8 (blobPrefix version)))

/-- Unseal a blob. -/
def unsealToken (cache : KeyCache) (blob : String) : KeyCache × UnsealResult :=
  if ¬blobMagic.toList <+: blob.toList then (cache, .legacy)
  else
    match parseBlob (blob.toList.drop blobMagic.length) with
    | none => (cache, .parseError)
    | some (version, b64) =>
      let looked := getKey suite sealer cache version
      (looked.1, unsealResult suite looked.2 version b64)

end Operations

section Texts

theorem versionText_inj {version version' : UInt32} (h : versionText version = versionText version') :
    version = version' := by
  have hnat : version.toNat = version'.toNat := by
    rw [← Nat.ofDigitChars_ten_toDigits (n := version.toNat), ← versionText, h, versionText,
      Nat.ofDigitChars_ten_toDigits]
  exact UInt32.toNat_inj.mp hnat

theorem isDigit_of_mem_versionText {version : UInt32} {c : Char} (h : c ∈ versionText version) :
    c.isDigit := Nat.isDigit_of_mem_toDigits (by decide) (by decide) h

theorem parseU32_versionText (version : UInt32) :
    parseU32 (versionText version) = some version.toNat := by
  have hne : versionText version ≠ [] := Nat.toDigits_ne_nil
  have hdecimal : decimal (versionText version) = some version.toNat := by
    rw [decimal, if_pos ⟨hne, List.all_eq_true.mpr fun c hc => isDigit_of_mem_versionText hc⟩,
      versionText, Nat.ofDigitChars_ten_toDigits]
  rw [parseU32, hdecimal, Option.filter_some, if_pos (decide_eq_true version.toNat_lt)]
  intro digits hsign
  exact absurd (isDigit_of_mem_versionText (hsign ▸ List.mem_cons_self : '+' ∈ versionText version))
    (by decide)

/-- A version is read from its decimal text and from no other. -/
theorem parseVersion_eq_some_iff {versionStr : List Char} {version : UInt32} :
    parseVersion versionStr = some version ↔ versionStr = versionText version := by
  constructor
  · intro h
    exact (of_decide_eq_true (Option.filter_eq_some_iff.mp h).2).symm
  · rintro rfl
    rw [parseVersion, parseU32_versionText, Option.map_some, UInt32.ofNat_toNat, Option.filter_some,
      if_pos (decide_eq_true rfl)]

theorem splitOnce_eq_some_iff {c : Char} {s front rest : List Char} :
    splitOnce c s = some (front, rest) ↔ s = front ++ c :: rest ∧ c ∉ front := by
  constructor
  · intro h
    have hcut := List.takeWhile_append_dropWhile (p := fun x => decide (x ≠ c)) (l := s)
    rw [splitOnce] at h
    split at h
    · cases h
    · rename_i head tail hdrop
      obtain ⟨rfl, rfl⟩ := Prod.mk.inj (Option.some_inj.mp h)
      have hhead : head = c := by
        have hfirst := List.head?_dropWhile_not (fun x => decide (x ≠ c)) s
        rw [hdrop] at hfirst
        simpa using hfirst
      rw [hdrop, hhead] at hcut
      exact ⟨hcut.symm, fun hmem => by simpa using List.mem_takeWhile_imp hmem⟩
  · rintro ⟨rfl, hnot⟩
    refine splitOnce_append (fun x hx => ?_) rest
    rintro rfl
    exact hnot hx

/-- What follows the magic is a version, a dot and a payload, in one way. -/
theorem parseBlob_eq_some_iff {afterMagic : List Char} {version : UInt32} {b64 : String} :
    parseBlob afterMagic = some (version, b64) ↔
      afterMagic = versionText version ++ '.' :: b64.toList := by
  constructor
  · intro h
    obtain ⟨⟨front, rest⟩, hsplit, hmap⟩ := Option.bind_eq_some_iff.mp h
    obtain ⟨version', hversion, hpair⟩ := Option.map_eq_some_iff.mp hmap
    obtain ⟨rfl, rfl⟩ := Prod.mk.inj hpair
    have hfront : front = versionText version' := parseVersion_eq_some_iff.mp hversion
    rw [(splitOnce_eq_some_iff.mp hsplit).1, hfront, String.toList_ofList]
  · rintro rfl
    have hdot : '.' ∉ versionText version := fun hmem =>
      absurd (isDigit_of_mem_versionText hmem) (by decide)
    rw [parseBlob, splitOnce_eq_some_iff.mpr ⟨rfl, hdot⟩, Option.bind_some,
      parseVersion_eq_some_iff.mpr rfl, Option.map_some, String.ofList_toList]

/-- The text of a blob. -/
def blobText (version : UInt32) (b64 : String) : String := blobPrefix version ++ "." ++ b64

theorem toList_blobText (version : UInt32) (b64 : String) :
    (blobText version b64).toList = blobMagic.toList ++ (versionText version ++ '.' :: b64.toList) := by
  rw [blobText, String.toList_append, String.toList_append, blobPrefix, String.toList_append,
    String.toList_ofList, List.append_assoc, List.append_assoc]
  rfl

/-- A blob is parsed exactly when it is the text of its version and payload. -/
theorem parseBlob_drop_iff {blob : String} (hmagic : blobMagic.toList <+: blob.toList)
    {version : UInt32} {b64 : String} :
    parseBlob (blob.toList.drop blobMagic.length) = some (version, b64) ↔
      blob = blobText version b64 := by
  obtain ⟨rest, hrest⟩ := hmagic
  have hdrop : blob.toList.drop blobMagic.length = rest := by
    rw [← hrest, ← String.length_toList, List.drop_left]
  rw [hdrop, parseBlob_eq_some_iff, ← String.toList_inj, ← hrest, toList_blobText,
    List.append_right_inj]

theorem tokenOf_utf8 (token : String) : tokenOf (some (utf8 token)) = .ok token := by
  have hbytes : (⟨(utf8 token).toArray⟩ : ByteArray) = token.toByteArray := by
    rw [utf8, Array.toArray_toList]
    rfl
  have hvalid : String.fromUTF8? token.toByteArray = some token := dif_pos token.isValidUTF8
  rw [tokenOf, hbytes, hvalid]

end Texts

section Caching

variable (suite : SealSuite) (sealer : Sealer)

/-- A call of the sealer; the nonce of a seal is drawn at random. -/
inductive SealerCall where
  | sealCall (token : String) (nonce : Nonce)
  | unsealCall (blob : String)

/-- The answer to a call. -/
inductive SealerAnswer where
  | sealAnswer (result : Except String String)
  | unsealAnswer (result : UnsealResult)

/-- A call on a cache. -/
def callOn (cache : KeyCache) : SealerCall → KeyCache × SealerAnswer
  | .sealCall token nonce =>
    ((sealToken suite sealer cache token nonce).1, .sealAnswer (sealToken suite sealer cache token nonce).2)
  | .unsealCall blob =>
    ((unsealToken suite sealer cache blob).1, .unsealAnswer (unsealToken suite sealer cache blob).2)

/-- The answers to a sequence of calls. -/
def answers : KeyCache → List SealerCall → List SealerAnswer
  | _, [] => []
  | cache, call :: calls =>
    (callOn suite sealer cache call).2 :: answers (callOn suite sealer cache call).1 calls

/-- Sealing, with nothing cached. -/
def sealed (token : String) (nonce : Nonce) : Except String String :=
  (sealToken suite sealer ∅ token nonce).2

/-- Unsealing, with nothing cached. -/
def unsealed (blob : String) : UnsealResult := (unsealToken suite sealer ∅ blob).2

/-- The answer to a call, with nothing cached. -/
def freshAnswer : SealerCall → SealerAnswer
  | .sealCall token nonce => .sealAnswer (sealed suite sealer token nonce)
  | .unsealCall blob => .unsealAnswer (unsealed suite sealer blob)

/-- The key that is derived for a version. -/
def keyOf (version : UInt32) : Option Key := (rawSecret sealer version).map suite.derivePushSealKey

/-- What is cached are the derived keys. -/
def Cached (cache : KeyCache) : Prop :=
  ∀ version key, cache.lookup version = some key → keyOf suite sealer version = some key

variable {suite sealer} {cache : KeyCache}

theorem cached_empty : Cached suite sealer ∅ := by
  intro version key hkey
  rw [AList.lookup_empty] at hkey
  cases hkey

/-- A looked-up key is the derived one, and stays cached as such. -/
theorem Cached.getKey (h : Cached suite sealer cache) (version : UInt32) :
    Cached suite sealer (getKey suite sealer cache version).1 ∧
      (getKey suite sealer cache version).2 = keyOf suite sealer version := by
  rw [PushSealer.getKey]
  cases hlookup : cache.lookup version with
  | some key => exact ⟨h, (h version key hlookup).symm⟩
  | none =>
    dsimp only
    cases hraw : rawSecret sealer version with
    | none => exact ⟨h, by rw [keyOf, hraw, Option.map_none]⟩
    | some raw =>
      have hkey : keyOf suite sealer version = some (suite.derivePushSealKey raw) := by
        rw [keyOf, hraw, Option.map_some]
      refine ⟨fun version' key hlookup' => ?_, hkey.symm⟩
      dsimp only at hlookup'
      rw [lookup_insert_eq] at hlookup'
      split at hlookup'
      · rename_i hsame
        rw [hsame, hkey, hlookup']
      · exact h version' key hlookup'

theorem Cached.sealToken (h : Cached suite sealer cache) (token : String) (nonce : Nonce) :
    Cached suite sealer (sealToken suite sealer cache token nonce).1 ∧
      (sealToken suite sealer cache token nonce).2 =
        sealResult suite sealer (keyOf suite sealer sealer.version) token nonce := by
  obtain ⟨hcached, hkey⟩ := h.getKey sealer.version
  rw [PushSealer.sealToken]
  exact ⟨hcached, by rw [hkey]⟩

theorem Cached.unsealToken (h : Cached suite sealer cache) (blob : String) :
    Cached suite sealer (unsealToken suite sealer cache blob).1 ∧
      (unsealToken suite sealer cache blob).2 =
        if ¬blobMagic.toList <+: blob.toList then .legacy
        else match parseBlob (blob.toList.drop blobMagic.length) with
          | none => .parseError
          | some (version, b64) => unsealResult suite (keyOf suite sealer version) version b64 := by
  rw [PushSealer.unsealToken]
  split
  · exact ⟨h, rfl⟩
  · cases hparsed : parseBlob (blob.toList.drop blobMagic.length) with
    | none => exact ⟨h, rfl⟩
    | some parsed =>
      obtain ⟨hcached, hkey⟩ := h.getKey parsed.1
      exact ⟨hcached, congrArg (fun key => unsealResult suite key parsed.1 parsed.2) hkey⟩

theorem sealed_eq (token : String) (nonce : Nonce) : sealed suite sealer token nonce =
    sealResult suite sealer (keyOf suite sealer sealer.version) token nonce :=
  (cached_empty.sealToken token nonce).2

theorem unsealed_eq (blob : String) : unsealed suite sealer blob =
    if ¬blobMagic.toList <+: blob.toList then .legacy
    else match parseBlob (blob.toList.drop blobMagic.length) with
      | none => .parseError
      | some (version, b64) => unsealResult suite (keyOf suite sealer version) version b64 :=
  (cached_empty.unsealToken blob).2

/-- Whatever was called before, the answers are those without a cache. -/
theorem answers_eq (h : Cached suite sealer cache) (calls : List SealerCall) :
    answers suite sealer cache calls = calls.map (freshAnswer suite sealer) := by
  induction calls generalizing cache with
  | nil => rfl
  | cons call calls ih =>
    rw [answers, List.map_cons]
    cases call with
    | sealCall token nonce =>
      obtain ⟨hcached, hresult⟩ := h.sealToken token nonce
      rw [callOn, ih hcached, hresult, freshAnswer, sealed_eq]
    | unsealCall blob =>
      obtain ⟨hcached, hresult⟩ := h.unsealToken blob
      rw [callOn, ih hcached, hresult, freshAnswer, unsealed_eq]

end Caching

section Rotation

/-- A seal that took place. -/
structure PerformedSeal where
  /-- The sealer. -/
  sealer : Sealer
  /-- What was sealed. -/
  token : String
  /-- The nonce that was drawn. -/
  nonce : Nonce

variable (suite : SealSuite)

/-- The key of a seal. -/
def PerformedSeal.key (call : PerformedSeal) : Key :=
  suite.derivePushSealKey call.sealer.currentSecret

/-- The associated data of a seal. -/
def PerformedSeal.aad (call : PerformedSeal) : Bytes := utf8 (blobPrefix call.sealer.version)

/-- What the cipher made of it. -/
def PerformedSeal.ciphertext (call : PerformedSeal) : Except String Bytes :=
  suite.aeadEncrypt (call.key suite) call.nonce call.aad (utf8 call.token)

/-- The cipher is correct for the seals that took place, and under a key of the
sealer nothing else opens. Base64 is canonical. -/
structure Authentic (made : Set PerformedSeal) : Prop where
  /-- A text decodes to some bytes exactly when it is their text. -/
  base64_iff : ∀ text bytes, suite.fromBase64 text = some bytes ↔ suite.toBase64 bytes = text
  /-- What was encrypted opens. -/
  correct : ∀ call ∈ made, ∀ ct, call.ciphertext suite = .ok ct →
    suite.aeadDecrypt (call.key suite) call.nonce call.aad ct = some (utf8 call.token)
  /-- A ciphertext has its tag. -/
  tagged : ∀ call ∈ made, ∀ ct, call.ciphertext suite = .ok ct → 16 ≤ ct.length
  /-- What opens was encrypted so. -/
  authentic : ∀ secret nonce aad ct plaintext,
    suite.aeadDecrypt (suite.derivePushSealKey secret) nonce aad ct = some plaintext →
    ∃ call ∈ made, call.key suite = suite.derivePushSealKey secret ∧ call.nonce = nonce ∧
      call.aad = aad ∧ utf8 call.token = plaintext ∧ call.ciphertext suite = .ok ct

/-- The sealer has the key of the seal, as its current one or as the one before. -/
def CoveredBy (sealer : Sealer) (call : PerformedSeal) : Prop :=
  (call.sealer.version = sealer.version ∧
    call.key suite = suite.derivePushSealKey sealer.currentSecret) ∨
  (call.sealer.version.toNat + 1 = sealer.version.toNat ∧
    ∃ prev, sealer.prevSecret = some prev ∧ call.key suite = suite.derivePushSealKey prev)

/-- The blob that a seal returned. -/
def PerformedSeal.blob (call : PerformedSeal) : Except String String :=
  sealed suite call.sealer call.token call.nonce

/-- How a sealer answers, across rotations. -/
structure Rotates (made : Set PerformedSeal) (sealer : Sealer) : Prop where
  /-- The cache never changes an answer. -/
  cacheFree : ∀ calls, answers suite sealer ∅ calls = calls.map (freshAnswer suite sealer)
  /-- A token is sealed unless the cipher refuses it. -/
  sealing : ∀ token nonce ct, suite.aeadEncrypt (suite.derivePushSealKey sealer.currentSecret) nonce
    (utf8 (blobPrefix sealer.version)) (utf8 token) = .ok ct →
    sealed suite sealer token nonce = .ok (blobText sealer.version (suite.toBase64 (nonce.bytes ++ ct)))
  /-- What was sealed unseals. -/
  roundTrip : ∀ token nonce blob, ⟨sealer, token, nonce⟩ ∈ made →
    sealed suite sealer token nonce = .ok blob → unsealed suite sealer blob = .ok token
  /-- It still does after a rotation that keeps its secret as the previous one. -/
  rotated : ∀ next : Sealer, next.version.toNat = sealer.version.toNat + 1 →
    next.prevSecret = some sealer.currentSecret → ∀ token nonce blob, ⟨sealer, token, nonce⟩ ∈ made →
    sealed suite sealer token nonce = .ok blob → unsealed suite next blob = .ok token
  /-- After a second rotation it does not. -/
  rotatedOut : ∀ later : Sealer, later.version.toNat = sealer.version.toNat + 2 →
    ∀ token nonce blob, sealed suite sealer token nonce = .ok blob →
    unsealed suite later blob = .unsealFailed
  /-- Whatever else begins like a blob is refused. -/
  others : ∀ text : String, blobMagic.toList <+: text.toList →
    (¬∃ call ∈ made, CoveredBy suite sealer call ∧ call.blob suite = .ok text) →
    unsealed suite sealer text = .parseError ∨ unsealed suite sealer text = .unsealFailed
  /-- Whatever does not is a token of old. -/
  legacy : ∀ text : String, ¬blobMagic.toList <+: text.toList → unsealed suite sealer text = .legacy

variable {suite} {made : Set PerformedSeal} {sealer : Sealer}

theorem openWithAad_eq_some_iff (laws : Authentic suite made) {encoded : String} {key : Key} {aad plaintext : Bytes} :
    openWithAad suite encoded key aad = some plaintext ↔
      ∃ nonce : Nonce, ∃ ct, encoded = suite.toBase64 (nonce.bytes ++ ct) ∧ 16 ≤ ct.length ∧
        suite.aeadDecrypt key nonce aad ct = some plaintext := by
  constructor
  · intro h
    obtain ⟨combined, hdecode, hopen⟩ := Option.bind_eq_some_iff.mp h
    split at hopen
    · cases hopen
    · rename_i hlong
      obtain ⟨nonce, hnonce, hopened⟩ := Option.bind_eq_some_iff.mp hopen
      rw [FixedBytes.ofBytes] at hnonce
      split at hnonce
      · have hbytes : nonce.bytes = combined.take 24 := by rw [← Option.some_inj.mp hnonce]
        refine ⟨nonce, combined.drop 24, ?_, ?_, hopened⟩
        · rw [hbytes, List.take_append_drop]
          exact ((laws.base64_iff encoded combined).mp hdecode).symm
        · rw [List.length_drop]
          omega
      · cases hnonce
  · rintro ⟨nonce, ct, rfl, hlong, hopened⟩
    have hsize := nonce.size
    have hdecode : suite.fromBase64 (suite.toBase64 (nonce.bytes ++ ct)) =
        some (nonce.bytes ++ ct) := (laws.base64_iff _ _).mpr rfl
    rw [openWithAad, hdecode, Option.bind_some, if_neg (by rw [List.length_append]; omega),
      List.take_left' hsize, List.drop_left' hsize, FixedBytes.ofBytes_bytes, Option.bind_some]
    exact hopened

theorem utf8_inj {s t : String} (h : utf8 s = utf8 t) : s = t := by
  have hok := fromUtf8_utf8 s
  rw [h, fromUtf8_utf8] at hok
  exact (Except.ok.inj hok).symm

theorem blobPrefix_inj {version version' : UInt32} (h : blobPrefix version = blobPrefix version') :
    version = version' := by
  rw [blobPrefix, blobPrefix, ← String.toList_inj, String.toList_append, String.toList_append,
    List.append_right_inj, String.toList_ofList, String.toList_ofList] at h
  exact versionText_inj h

theorem toNat_sub_one {version : UInt32} (h : 0 < version) :
    (version - 1).toNat + 1 = version.toNat := by
  have hpos : 0 < version.toNat := UInt32.lt_iff_toNat_lt.mp h
  have hone : (1 : UInt32) ≤ version := UInt32.le_iff_toNat_le.mpr hpos
  rw [UInt32.toNat_sub_of_le _ _ hone]
  exact Nat.sub_add_cancel hpos

/-- A version is covered as the current one or as the one before. -/
theorem keyOf_eq_some_iff {version : UInt32} {key : Key} : keyOf suite sealer version = some key ↔
    (version = sealer.version ∧ key = suite.derivePushSealKey sealer.currentSecret) ∨
    (version.toNat + 1 = sealer.version.toNat ∧
      ∃ prev, sealer.prevSecret = some prev ∧ key = suite.derivePushSealKey prev) := by
  have hbefore : version = sealer.version - 1 ↔ version.toNat + 1 = sealer.version.toNat := by
    rw [← toNat_sub_one sealer.version_pos, Nat.add_right_cancel_iff, UInt32.toNat_inj]
  rw [keyOf, rawSecret]
  by_cases hcurrent : version = sealer.version
  · have hnot : ¬version.toNat + 1 = sealer.version.toNat := by
      rw [hcurrent]
      omega
    rw [if_pos hcurrent, Option.map_some, Option.some_inj]
    constructor
    · exact fun h => .inl ⟨hcurrent, h.symm⟩
    · rintro (⟨-, h⟩ | ⟨h, -⟩)
      · exact h.symm
      · exact absurd h hnot
  · rw [if_neg hcurrent]
    constructor
    · intro h
      split at h
      · rename_i hprev
        obtain ⟨prev, hsecret, hkey⟩ := Option.map_eq_some_iff.mp h
        exact .inr ⟨hbefore.mp hprev.1, prev, hsecret, hkey.symm⟩
      · cases h
    · rintro (⟨h, -⟩ | ⟨hversion, prev, hprev, hkey⟩)
      · exact absurd h hcurrent
      · rw [if_pos ⟨hbefore.mpr hversion, sealer.version_pos, by rw [hprev]; rfl⟩, hprev,
          Option.map_some, hkey]

theorem coveredBy_iff {call : PerformedSeal} : CoveredBy suite sealer call ↔
    keyOf suite sealer call.sealer.version = some (call.key suite) := keyOf_eq_some_iff.symm

/-- Sealing under the derived key. -/
theorem sealed_eq_ok_iff {token blob : String} {nonce : Nonce} :
    sealed suite sealer token nonce = .ok blob ↔
      ∃ ct, PerformedSeal.ciphertext suite ⟨sealer, token, nonce⟩ = .ok ct ∧
        blob = blobText sealer.version (suite.toBase64 (nonce.bytes ++ ct)) := by
  have hkey : keyOf suite sealer sealer.version =
      some (suite.derivePushSealKey sealer.currentSecret) := keyOf_eq_some_iff.mpr (.inl ⟨rfl, rfl⟩)
  rw [sealed_eq, hkey, sealResult]
  rw [sealWithAad]
  have hcipher : PerformedSeal.ciphertext suite ⟨sealer, token, nonce⟩ =
      suite.aeadEncrypt (suite.derivePushSealKey sealer.currentSecret) nonce
        (utf8 (blobPrefix sealer.version)) (utf8 token) := rfl
  rw [hcipher]
  cases suite.aeadEncrypt (suite.derivePushSealKey sealer.currentSecret) nonce
      (utf8 (blobPrefix sealer.version)) (utf8 token) with
  | error e =>
    constructor
    · intro h
      cases h
    · rintro ⟨ct, hct, -⟩
      cases hct
  | ok ct =>
    constructor
    · intro h
      exact ⟨ct, rfl, (Except.ok.inj h).symm⟩
    · rintro ⟨ct', hct, rfl⟩
      rw [← Except.ok.inj hct]
      rfl

/-- A text unseals exactly when it is the blob of a seal whose key the sealer has. -/
theorem unsealed_eq_ok_iff (laws : Authentic suite made) {text token : String} :
    unsealed suite sealer text = .ok token ↔
      ∃ call ∈ made, CoveredBy suite sealer call ∧ call.blob suite = .ok text ∧ call.token = token := by
  rw [unsealed_eq]
  constructor
  · intro h
    split at h
    · cases h
    · rename_i hmagic
      rw [not_not] at hmagic
      cases hparsed : parseBlob (text.toList.drop blobMagic.length) with
      | none =>
        rw [hparsed] at h
        cases h
      | some parsed =>
        obtain ⟨version, b64⟩ := parsed
        rw [hparsed] at h
        dsimp only at h
        cases hkey : keyOf suite sealer version with
        | none =>
          rw [hkey] at h
          cases h
        | some key =>
          rw [hkey, unsealResult] at h
          cases hopen : openWithAad suite b64 key (utf8 (blobPrefix version)) with
          | none =>
            rw [hopen] at h
            cases h
          | some plaintext =>
            obtain ⟨nonce, ct, rfl, -, hdecrypt⟩ := (openWithAad_eq_some_iff laws).mp hopen
            obtain ⟨raw, -, rfl⟩ := Option.map_eq_some_iff.mp hkey
            obtain ⟨call, hmade, hcall, rfl, haad, rfl, hct⟩ := laws.authentic raw nonce _ ct _ hdecrypt
            have hversion : call.sealer.version = version := blobPrefix_inj (utf8_inj haad)
            rw [hopen, tokenOf_utf8] at h
            refine ⟨call, hmade, coveredBy_iff.mpr ?_, sealed_eq_ok_iff.mpr ⟨ct, hct, ?_⟩,
              UnsealResult.ok.inj h⟩
            · rw [hversion, hkey, hcall]
            · rw [hversion]
              exact (parseBlob_drop_iff hmagic).mp hparsed
  · rintro ⟨call, hmade, hcovered, hblob, rfl⟩
    obtain ⟨ct, hct, rfl⟩ := sealed_eq_ok_iff.mp hblob
    have hmagic : blobMagic.toList <+:
        (blobText call.sealer.version (suite.toBase64 (call.nonce.bytes ++ ct))).toList :=
      ⟨_, (toList_blobText _ _).symm⟩
    have hopen : openWithAad suite (suite.toBase64 (call.nonce.bytes ++ ct)) (call.key suite)
        (utf8 (blobPrefix call.sealer.version)) = some (utf8 call.token) :=
      (openWithAad_eq_some_iff laws).mpr
        ⟨call.nonce, ct, rfl, laws.tagged call hmade ct hct, laws.correct call hmade ct hct⟩
    rw [if_neg (not_not.mpr hmagic), (parseBlob_drop_iff hmagic).mpr rfl]
    dsimp only
    rw [coveredBy_iff.mp hcovered, unsealResult]
    rw [hopen, tokenOf_utf8]

theorem unsealResult_ne_legacy (key : Option Key) (version : UInt32) (b64 : String) :
    unsealResult suite key version b64 ≠ .legacy := by
  cases key with
  | none =>
    intro h
    cases h
  | some key =>
    rw [unsealResult]
    cases openWithAad suite b64 key (utf8 (blobPrefix version)) with
    | none =>
      intro h
      cases h
    | some plaintext =>
      rw [tokenOf]
      split
      · intro h
        cases h
      · intro h
        cases h

/-- Only texts without the magic are taken for tokens of old. -/
theorem unsealed_eq_legacy_iff {text : String} :
    unsealed suite sealer text = .legacy ↔ ¬blobMagic.toList <+: text.toList := by
  rw [unsealed_eq]
  constructor
  · intro h hmagic
    rw [if_neg (not_not.mpr hmagic)] at h
    split at h
    · cases h
    · exact unsealResult_ne_legacy _ _ _ h
  · exact fun hmagic => if_pos hmagic

/-- A blob of a version that is not covered fails to unseal. -/
theorem unsealed_of_uncovered {version : UInt32} (h : keyOf suite sealer version = none)
    (b64 : String) : unsealed suite sealer (blobText version b64) = .unsealFailed := by
  have hmagic : blobMagic.toList <+: (blobText version b64).toList :=
    ⟨_, (toList_blobText version b64).symm⟩
  rw [unsealed_eq, if_neg (not_not.mpr hmagic), (parseBlob_drop_iff hmagic).mpr rfl]
  dsimp only
  rw [h, unsealResult]

/-- Sealing and unsealing across rotations, with any cipher that is correct and
authentic for the seals that took place. -/
theorem seal_rotation (laws : Authentic suite made) (sealer : Sealer) : Rotates suite made sealer where
  cacheFree := answers_eq cached_empty
  sealing token nonce ct hct := sealed_eq_ok_iff.mpr ⟨ct, hct, rfl⟩
  roundTrip token nonce blob hmade hblob :=
    (unsealed_eq_ok_iff laws).mpr ⟨_, hmade, .inl ⟨rfl, rfl⟩, hblob, rfl⟩
  rotated next hversion hprev token nonce blob hmade hblob :=
    (unsealed_eq_ok_iff laws).mpr
      ⟨_, hmade, .inr ⟨hversion.symm, sealer.currentSecret, hprev, rfl⟩, hblob, rfl⟩
  rotatedOut later hversion token nonce blob hblob := by
    obtain ⟨ct, -, rfl⟩ := sealed_eq_ok_iff.mp hblob
    refine unsealed_of_uncovered (Option.eq_none_iff_forall_ne_some.mpr fun key hkey => ?_) _
    rcases keyOf_eq_some_iff.mp hkey with ⟨hsame, -⟩ | ⟨hbefore, -⟩
    · rw [hsame] at hversion
      omega
    · omega
  others text hmagic hother := by
    cases hresult : unsealed suite sealer text with
    | ok token =>
      obtain ⟨call, hmade, hcovered, hblob, -⟩ := (unsealed_eq_ok_iff laws).mp hresult
      exact absurd ⟨call, hmade, hcovered, hblob⟩ hother
    | legacy => exact absurd hmagic (unsealed_eq_legacy_iff.mp hresult)
    | parseError => exact .inl rfl
    | unsealFailed => exact .inr rfl
  legacy text hmagic := unsealed_eq_legacy_iff.mpr hmagic

/-- A sealer of the first version. -/
def sampleSealer : Sealer := ⟨List.replicate 32 97, none, 1, false, by decide⟩

/-- The sealer after a rotation. -/
def rotatedSealer : Sealer := ⟨List.replicate 32 98, some (List.replicate 32 97), 2, false, by decide⟩

/-- A seal of the first version. -/
def sampleSeal : PerformedSeal := ⟨sampleSealer, "tok", sampleAppNonce⟩

/-- The key of the first version. -/
def sampleSealKey : Key :=
  ⟨bytesOfNat 32 0x2544768a14963f9519f04aecca29a0fbeef3dbb2c3f09ee117ddc2ca6b284345, rfl⟩

/-- What the cipher makes of the sample. -/
def sampleSealCt : Bytes := bytesOfNat 19 0x4d87dc935075196b50d00b1cbffb0d7ba05c2e

/-- The key and the ciphertext of the sample; nothing else opens. -/
def sampleSealSuite : SealSuite where
  derivePushSealKey secret := if secret = sampleSealer.currentSecret then sampleSealKey else zeroKey
  aeadEncrypt key nonce aad plaintext :=
    if (key, nonce, aad, plaintext) = (sampleSealKey, sampleAppNonce, sampleSeal.aad, utf8 "tok") then
      .ok sampleSealCt
    else .ok (plaintext ++ List.replicate 16 0)
  aeadDecrypt key nonce aad ct :=
    if (key, nonce, aad, ct) = (sampleSealKey, sampleAppNonce, sampleSeal.aad, sampleSealCt) then
      some (utf8 "tok")
    else none
  toBase64 := Base64.encode
  fromBase64 := Base64.decode

theorem sampleSeal_key : sampleSeal.key sampleSealSuite = sampleSealKey := by
  simp [PerformedSeal.key, sampleSealSuite, sampleSeal]

theorem sampleSeal_ciphertext : sampleSeal.ciphertext sampleSealSuite = .ok sampleSealCt := by
  rw [PerformedSeal.ciphertext, sampleSeal_key]
  simp [sampleSealSuite, sampleSeal]

theorem sampleSealSuite_aeadDecrypt (key : Key) (nonce : Nonce) (aad ct : Bytes) :
    sampleSealSuite.aeadDecrypt key nonce aad ct =
      if (key, nonce, aad, ct) = (sampleSealKey, sampleAppNonce, sampleSeal.aad, sampleSealCt) then
        some (utf8 "tok")
      else none := rfl

theorem sampleSealSuite_authentic : Authentic sampleSealSuite {sampleSeal} where
  base64_iff := Base64.decode_eq_some_iff
  correct := by
    rintro call rfl ct hct
    rw [sampleSeal_ciphertext] at hct
    rw [sampleSeal_key, ← Except.ok.inj hct]
    simp [sampleSealSuite, sampleSeal]
  tagged := by
    rintro call rfl ct hct
    rw [sampleSeal_ciphertext] at hct
    rw [← Except.ok.inj hct]
    decide
  authentic := by
    intro secret nonce aad ct plaintext hopen
    rw [sampleSealSuite_aeadDecrypt] at hopen
    split at hopen
    · rename_i hsample
      obtain ⟨hkey, rfl, rfl, rfl⟩ : sampleSealSuite.derivePushSealKey secret = sampleSealKey ∧
          nonce = sampleAppNonce ∧ aad = sampleSeal.aad ∧ ct = sampleSealCt := by simpa using hsample
      exact ⟨sampleSeal, rfl, sampleSeal_key.trans hkey.symm, rfl, rfl, Option.some_inj.mp hopen,
        sampleSeal_ciphertext⟩
    · cases hopen

/-- After one rotation the blob of the sample unseals. -/
theorem seal_rotation_sample : unsealed sampleSealSuite rotatedSealer
    "tpps1.1.CQkJCQkJCQkJCQkJCQkJCQkJCQkJCQkJTYfck1B1GWtQ0Ascv/sNe6BcLg==" = .ok "tok" := by
  have hsealed : sealed sampleSealSuite sampleSealer "tok" sampleAppNonce =
      .ok "tpps1.1.CQkJCQkJCQkJCQkJCQkJCQkJCQkJCQkJTYfck1B1GWtQ0Ascv/sNe6BcLg==" :=
    sealed_eq_ok_iff.mpr ⟨sampleSealCt, sampleSeal_ciphertext, by decide +kernel⟩
  exact (seal_rotation sampleSealSuite_authentic sampleSealer).rotated rotatedSealer rfl rfl "tok"
    sampleAppNonce _ rfl hsealed

end Rotation

end Teleprompter.PushSealer
