import Teleprompter.FrameCodec
import Teleprompter.PairingCrypto
import Teleprompter.RecordReplay
import Mathlib.Data.List.DropRight
import Mathlib.Tactic.IntervalCases

/-!
# Pairing links

The deep link of a pairing holds one binary record in url-safe base64: magic
and version, the daemon id without its fixed beginning, the relay address
unless it is the default one, two keys, the pairing id and the host name.
The encoder checks every bound that the decoder relies on, so every link
reads back as the normal form of the bundle it was made from.
-/

namespace Teleprompter.PairingLink

open FrameCodec (TpError)
open FramedStreams PairingCrypto SessionRecords RecordReplay

section Checks

variable {ε α β : Type}

/-- Fails unless a condition holds. -/
def ensure (p : Prop) [Decidable p] (e : ε) : Except ε Unit := if p then .ok () else .error e

theorem ensure_eq_ok {p : Prop} [Decidable p] {e : ε} {u : Unit} :
    ensure p e = .ok u ↔ p := by
  rw [ensure]
  split <;> simp_all

/-- A computation succeeds when its first part and the rest do. -/
theorem bind_ok {x : Except ε α} {f : α → Except ε β} {a : α} {r : β} (hx : x = .ok a)
    (hf : f a = .ok r) : (x >>= f) = .ok r := by
  rw [hx]
  exact hf

/-- A check that holds is passed. -/
theorem ensure_bind {p : Prop} [Decidable p] {e : ε} {f : Unit → Except ε β} {r : β} (hp : p)
    (hf : f () = .ok r) : (ensure p e >>= f) = .ok r :=
  bind_ok (ensure_eq_ok.mpr hp) hf

/-- A computation that succeeded did so in both parts. -/
theorem of_bind_ok {x : Except ε α} {f : α → Except ε β} {r : β} (h : (x >>= f) = .ok r) :
    ∃ a, x = .ok a ∧ f a = .ok r := by
  cases x with
  | error e => cases h
  | ok a => exact ⟨a, rfl, h⟩

end Checks

/-- The path of every pairing link. -/
def pairingUrlScheme : String := "tp://p"

/-- Largest payload that is decoded. -/
def maxPairingB64Len : ℕ := 2048

/-- The first bytes of the record: `tp`. -/
def pairingBinaryMagic : Bytes := [116, 112]

/-- The version that is written. -/
def pairingBinaryVersion : UInt8 := 4

/-- What every daemon id starts with. -/
def daemonIdPrefix : String := "daemon-"

/-- The relay that an empty address stands for. -/
def defaultPairingRelayUrl : String := "wss://relay.tpmt.dev"

/-- The contents of a pairing link. -/
structure PairingData where
  /-- Pairing secret in base64. -/
  ps : String
  /-- Public key of the daemon in base64. -/
  pk : String
  /-- Relay address. -/
  relay : String
  /-- Daemon id with its fixed beginning. -/
  did : String
  /-- Version of the record. -/
  v : UInt8
  /-- Pairing id, empty before version 4. -/
  pairingId : String
  /-- Host name of the daemon, empty before version 4. -/
  hostname : String
  deriving DecidableEq

/-- How reading a link may fail. -/
inductive Fault where
  /-- A reported error. -/
  | error (e : TpError)
  /-- An index out of bounds. -/
  | panic
  deriving DecidableEq

/-- White space as Unicode has it. -/
def isWhitespace (c : Char) : Bool :=
  (9 ≤ c.toNat && c.toNat ≤ 13) || (0x2000 ≤ c.toNat && c.toNat ≤ 0x200a) ||
    [0x20, 0x85, 0xa0, 0x1680, 0x2028, 0x2029, 0x202f, 0x205f, 0x3000].contains c.toNat

/-- A text without the white space at both ends. -/
def trim (s : List Char) : List Char := (s.dropWhile isWhitespace).rdropWhile isWhitespace

section Encoding

variable (codec : Base64Codec) (toLowercase : String → String)

/-- A relay address as it is compared with the default one. -/
def normalizeRelayForDefaultMatch (url : String) : String :=
  toLowercase (String.ofList ((trim url.toList).rdropWhile fun c => c = '/'))

/-- Bytes of a standard base64 text. -/
def b64StdDecode (s : String) : Except TpError Bytes :=
  match codec.decode s with
  | some bytes => .ok bytes
  | none => .error (.pairing "Invalid pairing data format")

/-- Replaces one character throughout a text. -/
def replaceChar (old new : Char) (s : List Char) : List Char :=
  s.map fun c => if c = old then new else c

/-- Url-safe text of a byte string, without padding. -/
def b64urlEncode (bytes : Bytes) : String :=
  String.ofList ((replaceChar '/' '_' (replaceChar '+' '-'
    (codec.encode bytes).toList)).rdropWhile fun c => c = '=')

/-- Bytes of a url-safe text. -/
def b64urlDecode (b64url : String) : Except TpError Bytes :=
  let padLen := (4 - b64url.utf8ByteSize % 4) % 4
  let b64 := replaceChar '_' '/' (replaceChar '-' '+' b64url.toList)
  b64StdDecode codec (String.ofList (b64 ++ List.replicate padLen '='))

/-- The sixteen bytes of a pairing id; dashes anywhere are ignored. -/
def parseUuidBytes (s : String) : Except TpError (FixedBytes 16) :=
  match parseUuid16 s with
  | some raw => .ok raw
  | none => .error (.pairing "pairing id must be a 16-byte UUID")

/-- The binary record, version 4. -/
def pairingRecord (did relay ps pk pairingId hostname : Bytes) : Bytes :=
  pairingBinaryMagic ++ [pairingBinaryVersion] ++ [UInt8.ofNat did.length] ++ did ++
    [UInt8.ofNat relay.length] ++ relay ++ ps ++ pk ++ pairingId ++
    [UInt8.ofNat hostname.length] ++ hostname

/-- The link of a bundle. -/
def encodePairingData (data : PairingData) : Except TpError String := do
  ensure (daemonIdPrefix.toList <+: data.did.toList)
    (.pairing "daemon id must start with \"daemon-\"")
  let wireDid := String.ofList (data.did.toList.drop daemonIdPrefix.length)
  let did := utf8 wireDid
  let useDefault := normalizeRelayForDefaultMatch toLowercase data.relay =
    normalizeRelayForDefaultMatch toLowercase defaultPairingRelayUrl
  let relay := if useDefault then [] else utf8 data.relay
  let ps ← b64StdDecode codec data.ps
  let pk ← b64StdDecode codec data.pk
  let pairingId ← parseUuidBytes data.pairingId
  let hostname := utf8 data.hostname
  ensure (did ≠ []) (.pairing "daemon id suffix must not be empty")
  ensure (did.length ≤ 255) (.pairing "daemon id exceeds 255 bytes")
  ensure (relay.length ≤ 255) (.pairing "relay url exceeds 255 bytes")
  ensure (hostname.length ≤ 255) (.pairing "hostname exceeds 255 bytes")
  ensure (ps.length = 32) (.pairing "pairing secret must be 32 bytes")
  ensure (pk.length = 32) (.pairing "daemon public key must be 32 bytes")
  let buf := pairingRecord did relay ps pk pairingId.bytes hostname
  return pairingUrlScheme ++ "?d=" ++ b64urlEncode codec buf

end Encoding

section Decoding

variable (codec : Base64Codec)

/-- The one error of the decoder. -/
def err : Fault := .error (.pairing "Invalid pairing data format")

/-- One byte of the record. -/
def byteAt (buf : Bytes) (o : ℕ) : Except Fault UInt8 :=
  match buf[o]? with
  | some b => .ok b
  | none => .error .panic

/-- The text of UTF-8 bytes. -/
def fromUtf8 (bytes : Bytes) : Except Fault String :=
  match String.fromUTF8? ⟨bytes.toArray⟩ with
  | some s => .ok s
  | none => .error err

/-- Lower-case hexadecimal digit of a four-bit value. -/
def hexChar (n : ℕ) : Char := "0123456789abcdef".toList.getD n '0'

/-- Lower-case hexadecimal text of a byte string. -/
def hexEncode (bytes : Bytes) : List Char :=
  bytes.flatMap fun b => [hexChar (b.toNat / 16), hexChar (b.toNat % 16)]

/-- Digits in groups of 8, 4, 4, 4 and 12, with dashes between them. -/
def dashed (h : List Char) : String :=
  String.ofList (slice h 0 8 ++ '-' :: slice h 8 12 ++ '-' :: slice h 12 16 ++
    '-' :: slice h 16 20 ++ '-' :: slice h 20 32)

/-- Canonical text of a pairing id. -/
def formatUuid (raw : FixedBytes 16) : String := dashed (hexEncode raw.bytes)

/-- Pairing id and host name, which stand behind the keys in version 4. A
trailing label of version 2 is checked and dropped. -/
def decodeTrailing (version : UInt8) (buf : Bytes) (o : ℕ) : Except Fault (String × String) :=
  if version = 2 then do
    ensure (o < buf.length) err
    let labelLen ← byteAt buf o
    let o := o + 1
    ensure (o + labelLen.toNat ≤ buf.length) err
    return ("", "")
  else if version = 3 then return ("", "")
  else if version = 4 then do
    ensure (o + 16 + 1 ≤ buf.length) err
    let some raw := FixedBytes.ofBytes 16 (slice buf o (o + 16)) | throw .panic
    let o := o + 16
    let hostLen ← byteAt buf o
    let o := o + 1
    ensure (o + hostLen.toNat ≤ buf.length) err
    let hostname ← fromUtf8 (slice buf o (o + hostLen.toNat))
    return (formatUuid raw, hostname)
  else throw err

/-- The bundle of a payload. -/
def decodeBinaryPairing (b64 : String) : Except Fault PairingData := do
  ensure (b64.utf8ByteSize ≤ maxPairingB64Len) err
  let buf ← (b64urlDecode codec b64).mapError .error
  ensure (2 + 1 + 1 + 1 + 32 + 32 ≤ buf.length) err
  let o := 0
  ensure (slice buf 0 2 = pairingBinaryMagic) err
  let o := o + 2
  let version ← byteAt buf o
  let o := o + 1
  ensure (2 ≤ version ∧ version ≤ 4) err
  let didLen ← byteAt buf o
  let o := o + 1
  ensure (didLen ≠ 0 ∧ o + didLen.toNat ≤ buf.length) err
  let wireDid ← fromUtf8 (slice buf o (o + didLen.toNat))
  let o := o + didLen.toNat
  let did := if version = 2 then wireDid else daemonIdPrefix ++ wireDid
  let relayLen ← byteAt buf o
  let o := o + 1
  ensure (o + relayLen.toNat ≤ buf.length) err
  let relay ← (if relayLen = 0 then pure defaultPairingRelayUrl
    else fromUtf8 (slice buf o (o + relayLen.toNat)))
  let o := o + relayLen.toNat
  ensure (o + 32 + 32 ≤ buf.length) err
  let ps := slice buf o (o + 32)
  let o := o + 32
  let pk := slice buf o (o + 32)
  let o := o + 32
  let (pairingId, hostname) ← decodeTrailing version buf o
  return { ps := codec.encode ps, pk := codec.encode pk, relay, did, v := version, pairingId,
           hostname }

/-- A text cut at the first occurrence of a character. -/
def splitOnce (c : Char) (s : List Char) : Option (List Char × List Char) :=
  match s.dropWhile fun x => x ≠ c with
  | [] => none
  | _ :: rest => some (s.takeWhile fun x => x ≠ c, rest)

/-- The bundle of a link. -/
def decodePairingData (raw : String) : Except Fault PairingData := do
  let trimmed := (trim raw.toList).dropWhile fun c => c.toNat = 0xfeff
  ensure (pairingUrlScheme.toList <+: trimmed) err
  let some (_, query) := splitOnce '?' trimmed | throw err
  let pairs := (query.splitOn '&').filterMap (splitOnce '=')
  let some (_, d) := pairs.find? fun kv => kv.1 = ['d'] | throw err
  decodeBinaryPairing codec (String.ofList d)

end Decoding

section UrlText

/-- Digits in the url-safe alphabet. -/
def urlBody (body : List Char) : List Char := replaceChar '/' '_' (replaceChar '+' '-' body)

/-- A url-safe digit is no separator, no white space and one byte long, and
the digit it stands for can be recovered. -/
structure UrlDigit (c : Char) : Prop where
  /-- No padding and no end of a key. -/
  ne_pad : c ≠ '='
  /-- No separator of parameters. -/
  ne_amp : c ≠ '&'
  /-- Not trimmed. -/
  visible : isWhitespace c = false
  /-- One byte. -/
  size : c.utf8Size = 1

theorem urlBody_cons (c : Char) (body : List Char) :
    urlBody (c :: body) = urlBody [c] ++ urlBody body := rfl

/-- Every url-safe digit is good. -/
theorem urlDigit_of_mem {body : List Char} (h : ∀ c ∈ body, c ∈ Base64.alphabet) :
    ∀ c ∈ urlBody body, UrlDigit c := by
  have hall : ∀ d ∈ Base64.alphabet.flatMap fun c => urlBody [c],
      d ≠ '=' ∧ d ≠ '&' ∧ isWhitespace d = false ∧ d.utf8Size = 1 := by
    rw [Base64.alphabet_eq]
    exact List.all_iff_forall_prop.mp (by decide +kernel)
  intro c hc
  induction body with
  | nil => cases hc
  | cons b body ih =>
    rw [urlBody_cons] at hc
    rcases List.mem_append.mp hc with hhead | htail
    · obtain ⟨hpad, hamp, hvisible, hsize⟩ :=
        hall c (List.mem_flatMap.mpr ⟨b, h b List.mem_cons_self, hhead⟩)
      exact ⟨hpad, hamp, hvisible, hsize⟩
    · exact ih (fun c hc => h c (List.mem_cons_of_mem b hc)) htail

/-- The decoder's replacements undo those of the encoder. -/
theorem replaceChar_urlBody {body : List Char} (h : ∀ c ∈ body, c ∈ Base64.alphabet) :
    replaceChar '_' '/' (replaceChar '-' '+' (urlBody body)) = body := by
  have hall : ∀ c ∈ Base64.alphabet,
      replaceChar '_' '/' (replaceChar '-' '+' (urlBody [c])) = [c] := by
    rw [Base64.alphabet_eq]
    exact List.all_iff_forall_prop.mp (by decide +kernel)
  induction body with
  | nil => rfl
  | cons b body ih =>
    have hhead := hall b (h b List.mem_cons_self)
    have htail := ih fun c hc => h c (List.mem_cons_of_mem b hc)
    rw [urlBody_cons]
    simp only [replaceChar, List.map_append] at hhead htail ⊢
    rw [hhead, htail, List.singleton_append]

/-- Padding is cut off, and nothing else. -/
theorem rdropWhile_pads {body : List Char} (h : ∀ c ∈ body, c ≠ '=') (pads : ℕ) :
    (body ++ List.replicate pads '=').rdropWhile (fun c => c = '=') = body := by
  induction pads with
  | zero =>
    rw [List.replicate_zero, List.append_nil, List.rdropWhile_eq_self_iff]
    intro hne hlast
    exact h _ (List.getLast_mem hne) (of_decide_eq_true hlast)
  | succ pads ih =>
    rw [List.replicate_succ', ← List.append_assoc, List.rdropWhile_concat]
    simpa using ih

variable {codec : Base64Codec}

/-- The url-safe text of a byte string: good digits only, at most four for
every three bytes, and it reads back. -/
theorem b64urlEncode_spec (std : StandardText codec) (bytes : Bytes) :
    (∀ c ∈ (b64urlEncode codec bytes).toList, UrlDigit c) ∧
      (b64urlEncode codec bytes).utf8ByteSize ≤ 4 * ((bytes.length + 2) / 3) ∧
      b64urlDecode codec (b64urlEncode codec bytes) = .ok bytes := by
  obtain ⟨body, pads, hform⟩ := std.form bytes
  have hurl := urlDigit_of_mem hform.digits
  have hpads : ∀ n, replaceChar '/' '_' (replaceChar '+' '-' (List.replicate n '=')) =
      List.replicate n '=' := by
    intro n
    simp [replaceChar]
  have htext : (b64urlEncode codec bytes).toList = urlBody body := by
    have hsplit : replaceChar '/' '_' (replaceChar '+' '-' (codec.encode bytes).toList) =
        urlBody body ++ List.replicate pads '=' := by
      rw [hform.split, ← hpads pads]
      simp only [urlBody, replaceChar, List.map_append]
      rfl
    rw [b64urlEncode, hsplit, rdropWhile_pads (fun c hc => (hurl c hc).ne_pad),
      String.toList_ofList]
  have hurlLength : (urlBody body).length = body.length := by simp [urlBody, replaceChar]
  have hsize : (b64urlEncode codec bytes).utf8ByteSize = body.length := by
    rw [← String.ofList_toList (s := b64urlEncode codec bytes), htext,
      Base64.utf8ByteSize_ofList (fun c hc => (hurl c hc).size), hurlLength]
  have hpadLen : (4 - body.length % 4) % 4 = pads := by
    have hlength := hform.length
    have hfew := hform.few
    omega
  have hlength := hform.length
  refine ⟨by rw [htext]; exact hurl, by omega, ?_⟩
  have hback : String.ofList (body ++ List.replicate pads '=') = codec.encode bytes := by
    have hsplit : (codec.encode bytes).toList = body ++ List.replicate pads '=' := hform.split
    rw [← hsplit, String.ofList_toList]
  have hdecode : codec.decode (codec.encode bytes) = some bytes := (std.decode_iff _ _).mpr rfl
  rw [b64urlDecode, hsize, hpadLen, htext, replaceChar_urlBody hform.digits, hback, b64StdDecode, hdecode]

end UrlText

section Uuids

/-- A hexadecimal digit is below sixteen, and its lower-case form is written
for it. -/
theorem hexChar_of_hexDigit {c : Char} {n : ℕ} (h : hexDigit c = some n) :
    n < 16 ∧ hexChar n = c.toLower := by
  have hall : ∀ k < 128, ∀ n ∈ hexDigit (Char.ofNat k),
      n < 16 ∧ hexChar n = (Char.ofNat k).toLower := by decide +kernel
  have hascii : c.toNat < 128 := by
    rw [hexDigit] at h
    simp only [Char.le_def, UInt32.le_iff_toNat_le] at h
    rw [Char.toNat]
    split_ifs at h with hdec hlow hup
    · exact Nat.lt_of_le_of_lt hdec.2 (by decide)
    · exact Nat.lt_of_le_of_lt hlow.2 (by decide)
    · exact Nat.lt_of_le_of_lt hup.2 (by decide)
  have hback := hall c.toNat hascii
  rw [Char.ofNat_toNat] at hback
  exact hback n h

/-- Bytes read from hexadecimal digits are written as the same digits in
lower case. -/
theorem hexEncode_of_hexBytes {digits : List Char} {bytes : Bytes}
    (h : hexBytes digits = some bytes) : hexEncode bytes = digits.map Char.toLower := by
  induction digits using hexBytes.induct generalizing bytes with
  | case1 =>
    cases h
    rfl
  | case2 c => cases h
  | case3 hi lo rest high low tail htail hlow hhigh ih =>
    obtain ⟨hhighLt, hhighChar⟩ := hexChar_of_hexDigit hhigh
    obtain ⟨hlowLt, hlowChar⟩ := hexChar_of_hexDigit hlow
    have hbyte : (UInt8.ofNat (16 * high + low)).toNat = 16 * high + low := by
      rw [UInt8.toNat_ofNat']
      omega
    have hdiv : (16 * high + low) / 16 = high := by omega
    have hmod : (16 * high + low) % 16 = low := by omega
    rw [hexBytes, hhigh, hlow, htail] at h
    cases h
    rw [hexEncode, List.flatMap_cons, hbyte, hdiv, hmod, hhighChar, hlowChar, ← hexEncode,
      ih htail]
    rfl
  | case4 hi lo rest hnone =>
    rw [hexBytes] at h
    split at h
    · rename_i high low tail hhigh hlow htail
      exact absurd htail (hnone high low tail hhigh hlow)
    · cases h

/-- The canonical form of a pairing id: its digits in lower case, in groups
of 8, 4, 4, 4 and 12. -/
def canonicalUuid (s : String) : String :=
  dashed ((s.toList.filter fun c => c ≠ '-').map Char.toLower)

/-- What is read of a pairing id is written in its canonical form. -/
theorem formatUuid_of_parse {s : String} {raw : FixedBytes 16}
    (h : parseUuidBytes s = .ok raw) : formatUuid raw = canonicalUuid s := by
  have hparse : parseUuid16 s = some raw := by
    rw [parseUuidBytes] at h
    split at h
    · rename_i found hfound
      cases h
      exact hfound
    · cases h
  rw [parseUuid16] at hparse
  split at hparse
  · cases hparse
  · obtain ⟨bytes, hbytes, hfixed⟩ := Option.bind_eq_some_iff.mp hparse
    rw [FixedBytes.ofBytes] at hfixed
    split at hfixed
    · cases hfixed
      rw [formatUuid, hexEncode_of_hexBytes hbytes, canonicalUuid]
    · cases hfixed

end Uuids

section Reading

/-- Text survives its UTF-8 bytes. -/
theorem fromUtf8_utf8 (s : String) : fromUtf8 (utf8 s) = .ok s := by
  have hbytes : (⟨(utf8 s).toArray⟩ : ByteArray) = s.toByteArray := by
    rw [utf8, Array.toArray_toList]
    rfl
  have hvalid : String.fromUTF8? s.toByteArray = some s := dif_pos s.isValidUTF8
  rw [fromUtf8, hbytes, hvalid]

/-- The bytes of the record from a cursor on. -/
structure Ahead (buf : Bytes) (o : ℕ) (rest : Bytes) : Prop where
  /-- What is left of the record. -/
  drop_eq : buf.drop o = rest
  /-- The cursor is not behind the end. -/
  le : o ≤ buf.length

variable {buf part rest : Bytes} {o n : ℕ}

/-- Cursor and rest make up the record. -/
theorem Ahead.length_eq (h : Ahead buf o rest) : buf.length = o + rest.length := by
  have hlength := congrArg List.length h.drop_eq
  rw [List.length_drop] at hlength
  have hle := h.le
  omega

/-- The field at the cursor. -/
theorem Ahead.slice_eq (h : Ahead buf o (part ++ rest)) (hn : n = part.length) :
    slice buf o (o + n) = part := by
  rw [slice, h.drop_eq, Nat.add_sub_cancel_left, hn, List.take_left]

/-- The cursor moves over a field. -/
theorem Ahead.skip (h : Ahead buf o (part ++ rest)) (hn : n = part.length) :
    Ahead buf (o + n) rest := by
  have hlength := h.length_eq
  rw [List.length_append] at hlength
  refine ⟨?_, by omega⟩
  rw [← List.drop_drop, h.drop_eq, hn, List.drop_left]

/-- The byte at the cursor. -/
theorem Ahead.byteAt_eq {b : UInt8} (h : Ahead buf o (b :: rest)) : byteAt buf o = .ok b := by
  have hget : buf[o]? = some b := by
    rw [← List.head?_drop, h.drop_eq, List.head?_cons]
  rw [byteAt, hget]

/-- The cursor moves over a byte. -/
theorem Ahead.next {b : UInt8} (h : Ahead buf o (b :: rest)) : Ahead buf (o + 1) rest := by
  have hfield : Ahead buf o ([b] ++ rest) := h
  exact hfield.skip rfl

/-- A length byte holds every admissible length. -/
theorem lengthByte_toNat (h : n ≤ 255) : (UInt8.ofNat n).toNat = n := by
  rw [UInt8.toNat_ofNat']
  omega

/-- Pairing id and host name of version 4 read back. -/
theorem decodeTrailing_eq {pairingId : FixedBytes 16} {hostname : String}
    (h : Ahead buf o (pairingId.bytes ++
      UInt8.ofNat (utf8 hostname).length :: (utf8 hostname ++ [])))
    (hhostLen : (utf8 hostname).length ≤ 255) :
    decodeTrailing 4 buf o = .ok (formatUuid pairingId, hostname) := by
  have hhostByte := lengthByte_toNat hhostLen
  have hlength := h.length_eq
  rw [List.length_append, pairingId.size, List.length_cons] at hlength
  have hhostLenAt := h.skip pairingId.size.symm
  have hhostAt := hhostLenAt.next
  have hhostEnd := hhostAt.length_eq
  rw [List.length_append, List.length_nil, Nat.add_zero] at hhostEnd
  rw [decodeTrailing, if_neg (by decide), if_neg (by decide), if_pos rfl]
  refine ensure_bind (by omega) ?_
  rw [h.slice_eq pairingId.size.symm, FixedBytes.ofBytes_bytes]
  refine bind_ok hhostLenAt.byteAt_eq ?_
  refine ensure_bind (by rw [hhostByte]; omega) ?_
  rw [hhostAt.slice_eq hhostByte, fromUtf8_utf8]
  rfl

variable {codec : Base64Codec} {relay ps pk : Bytes} {pairingId : FixedBytes 16}
  {b64 wireDid relayText hostname : String}

/-- A record of admissible fields reads back field by field. -/
theorem decodeBinaryPairing_record (hsize : b64.utf8ByteSize ≤ maxPairingB64Len)
    (hbuf : b64urlDecode codec b64 =
      .ok (pairingRecord (utf8 wireDid) relay ps pk pairingId.bytes (utf8 hostname)))
    (hdid : utf8 wireDid ≠ []) (hdidLen : (utf8 wireDid).length ≤ 255)
    (hrelayLen : relay.length ≤ 255) (hhostLen : (utf8 hostname).length ≤ 255)
    (hps : ps.length = 32) (hpk : pk.length = 32)
    (hrelay : relay = [] ∧ relayText = defaultPairingRelayUrl ∨
      relay ≠ [] ∧ relay = utf8 relayText) :
    decodeBinaryPairing codec b64 =
      .ok { ps := codec.encode ps, pk := codec.encode pk, relay := relayText,
            did := daemonIdPrefix ++ wireDid, v := 4, pairingId := formatUuid pairingId,
            hostname } := by
  have hdidByte := lengthByte_toNat hdidLen
  have hrelayByte := lengthByte_toNat hrelayLen
  have hdidPos := List.length_pos_iff.mpr hdid
  generalize hrecord : pairingRecord (utf8 wireDid) relay ps pk pairingId.bytes
    (utf8 hostname) = buf at hbuf
  have hmagicAt : Ahead buf 0 (pairingBinaryMagic ++ 4 :: UInt8.ofNat (utf8 wireDid).length ::
      (utf8 wireDid ++ UInt8.ofNat relay.length :: (relay ++ (ps ++ (pk ++ (pairingId.bytes ++
        UInt8.ofNat (utf8 hostname).length :: (utf8 hostname ++ []))))))) := by
    refine ⟨?_, Nat.zero_le _⟩
    rw [← hrecord]
    simp [pairingRecord, pairingBinaryVersion]
  have hversionAt : Ahead buf 2 _ := hmagicAt.skip rfl
  have hdidLenAt := hversionAt.next
  have hdidAt := hdidLenAt.next
  have hrelayLenAt := hdidAt.skip hdidByte
  have hrelayAt := hrelayLenAt.next
  have hpsAt := hrelayAt.skip hrelayByte
  have hpkAt := hpsAt.skip hps.symm
  have htrailingAt := hpkAt.skip hpk.symm
  have hend := htrailingAt.length_eq
  refine ensure_bind hsize ?_
  refine bind_ok (a := buf) (by rw [hbuf]; rfl) ?_
  refine ensure_bind (by omega) ?_
  refine ensure_bind (hmagicAt.slice_eq rfl) ?_
  refine bind_ok hversionAt.byteAt_eq ?_
  refine ensure_bind (by decide) ?_
  refine bind_ok hdidLenAt.byteAt_eq ?_
  refine ensure_bind ⟨?_, by omega⟩ ?_
  · intro hzero
    rw [hzero] at hdidByte
    exact absurd hdidByte.symm (Nat.ne_of_gt hdidPos)
  refine bind_ok (a := wireDid) (by rw [hdidAt.slice_eq hdidByte, fromUtf8_utf8]) ?_
  refine bind_ok hrelayLenAt.byteAt_eq ?_
  refine ensure_bind (by omega) ?_
  refine bind_ok (a := relayText) ?_ ?_
  · rcases hrelay with ⟨hempty, htext⟩ | ⟨hne, htext⟩
    · rw [hempty, htext]
      rfl
    · have hpos := List.length_pos_iff.mpr hne
      rw [if_neg (fun hzero => hpos.ne (by rw [← hrelayByte, hzero]; rfl)),
        hrelayAt.slice_eq hrelayByte, htext, fromUtf8_utf8]
  refine ensure_bind (by omega) ?_
  refine bind_ok (decodeTrailing_eq htrailingAt hhostLen) ?_
  dsimp only
  rw [hpsAt.slice_eq hps.symm, hpkAt.slice_eq hpk.symm]
  rfl

end Reading

section Links

/-- A text without white space is not trimmed. -/
theorem trim_eq_self {s : List Char} (h : ∀ c ∈ s, isWhitespace c = false) : trim s = s := by
  have hfront : s.dropWhile isWhitespace = s := by
    cases s with
    | nil => rfl
    | cons c s => rw [List.dropWhile_cons, if_neg (by rw [h c List.mem_cons_self]; decide)]
  rw [trim, hfront, List.rdropWhile_eq_self_iff]
  intro hne
  rw [h _ (List.getLast_mem hne)]
  decide

/-- A text is cut at the first occurrence. -/
theorem splitOnce_append {c : Char} {front : List Char} (h : ∀ x ∈ front, x ≠ c)
    (rest : List Char) : splitOnce c (front ++ c :: rest) = some (front, rest) := by
  have hpass : ∀ x ∈ front, decide (x ≠ c) = true := fun x hx => decide_eq_true (h x hx)
  rw [splitOnce, List.dropWhile_append_of_pos hpass, List.takeWhile_append_of_pos hpass]
  simp

/-- The payload of a link is what stands behind its only parameter. -/
theorem decodePairingData_link {codec : Base64Codec} {payload : String}
    (h : ∀ c ∈ payload.toList, UrlDigit c) :
    decodePairingData codec (pairingUrlScheme ++ "?d=" ++ payload) =
      decodeBinaryPairing codec payload := by
  have htext : (pairingUrlScheme ++ "?d=" ++ payload).toList =
      pairingUrlScheme.toList ++ '?' :: ('d' :: '=' :: payload.toList) := by
    rw [String.toList_append]
    rfl
  have hvisible : ∀ c ∈ pairingUrlScheme.toList ++ '?' :: ('d' :: '=' :: payload.toList),
      isWhitespace c = false := by
    have hfixed : ∀ c ∈ "tp://p?d=".toList, isWhitespace c = false :=
      List.all_iff_forall_prop.mp (by decide +kernel)
    intro c hc
    have hsplit : c ∈ "tp://p?d=".toList ++ payload.toList := hc
    rcases List.mem_append.mp hsplit with hhead | htail
    · exact hfixed c hhead
    · exact (h c htail).visible
  have hbom : (pairingUrlScheme.toList ++ '?' :: ('d' :: '=' :: payload.toList)).dropWhile
      (fun c => c.toNat = 0xfeff) =
        pairingUrlScheme.toList ++ '?' :: ('d' :: '=' :: payload.toList) := rfl
  have hquery : splitOnce '?' (pairingUrlScheme.toList ++ '?' :: ('d' :: '=' :: payload.toList)) =
      some (pairingUrlScheme.toList, 'd' :: '=' :: payload.toList) :=
    splitOnce_append (List.all_iff_forall_prop.mp (by decide +kernel)) _
  have hparams : ('d' :: '=' :: payload.toList).splitOn '&' = ['d' :: '=' :: payload.toList] := by
    refine List.splitOn_eq_singleton ?_
    intro hmem
    rcases List.mem_cons.mp hmem with hd | hmem
    · exact absurd hd (by decide)
    rcases List.mem_cons.mp hmem with heq | hmem
    · exact absurd heq (by decide)
    · exact (h _ hmem).ne_amp rfl
  have hpair : splitOnce '=' ('d' :: '=' :: payload.toList) = some (['d'], payload.toList) := by
    have hfront : ∀ x ∈ ['d'], x ≠ '=' := List.forall_mem_singleton.mpr (by decide)
    exact splitOnce_append hfront payload.toList
  have hfind : ((('d' :: '=' :: payload.toList).splitOn '&').filterMap (splitOnce '=')).find?
      (fun kv => kv.1 = ['d']) = some (['d'], payload.toList) := by
    rw [hparams, List.filterMap_cons, hpair]
    rfl
  have hscheme : pairingUrlScheme.toList <+:
      pairingUrlScheme.toList ++ '?' :: ('d' :: '=' :: payload.toList) := List.prefix_append _ _
  rw [decodePairingData, htext, trim_eq_self hvisible, hbom, ensure, if_pos hscheme, hquery]
  dsimp only [bind, Except.bind]
  rw [hfind]
  dsimp only
  rw [String.ofList_toList]

end Links

section RoundTrip

variable (codec : Base64Codec) (toLowercase : String → String)

/-- A bundle as it comes back: version 4, the pairing id in canonical form,
and the default relay for an empty address or one that matches it. -/
def normalForm (data : PairingData) : PairingData :=
  { data with
    relay := if data.relay = "" ∨ normalizeRelayForDefaultMatch toLowercase data.relay =
        normalizeRelayForDefaultMatch toLowercase defaultPairingRelayUrl
      then defaultPairingRelayUrl else data.relay
    v := 4
    pairingId := canonicalUuid data.pairingId }

variable {codec toLowercase}

/-- Bytes of a base64 text that was accepted. -/
theorem encode_of_b64StdDecode (std : StandardText codec) {s : String} {bytes : Bytes}
    (h : b64StdDecode codec s = .ok bytes) : codec.encode bytes = s := by
  rw [b64StdDecode] at h
  split at h
  · rename_i found hfound
    cases h
    exact (std.decode_iff _ _).mp hfound
  · cases h

/-- Only the empty text has no bytes. -/
theorem utf8_eq_nil_iff (s : String) : utf8 s = [] ↔ s = "" := by
  have hsize : (utf8 s).length = s.utf8ByteSize := rfl
  rw [← String.utf8ByteSize_eq_zero_iff, ← hsize, List.length_eq_zero_iff]

/-- A daemon id is its fixed beginning and the part that is written. -/
theorem daemonIdPrefix_append {did : String} (h : daemonIdPrefix.toList <+: did.toList) :
    daemonIdPrefix ++ String.ofList (did.toList.drop daemonIdPrefix.length) = did := by
  obtain ⟨rest, hrest⟩ := h
  have hdrop : did.toList.drop daemonIdPrefix.length = rest := by
    rw [← hrest]
    exact List.drop_left' String.length_toList
  have hback : daemonIdPrefix ++ String.ofList rest =
      String.ofList (daemonIdPrefix.toList ++ rest) := by
    rw [String.ofList_append, String.ofList_toList]
  rw [hdrop, hback, hrest, String.ofList_toList]

/-- The relay field is empty exactly when the default comes back. -/
theorem relay_field (data : PairingData) {relay : Bytes}
    (hrelay : relay = if normalizeRelayForDefaultMatch toLowercase data.relay =
      normalizeRelayForDefaultMatch toLowercase defaultPairingRelayUrl
        then [] else utf8 data.relay) :
    relay = [] ∧ (normalForm toLowercase data).relay = defaultPairingRelayUrl ∨
      relay ≠ [] ∧ relay = utf8 (normalForm toLowercase data).relay := by
  by_cases hdefault : normalizeRelayForDefaultMatch toLowercase data.relay =
      normalizeRelayForDefaultMatch toLowercase defaultPairingRelayUrl
  · rw [if_pos hdefault] at hrelay
    exact .inl ⟨hrelay, if_pos (.inr hdefault)⟩
  · rw [if_neg hdefault] at hrelay
    by_cases hempty : data.relay = ""
    · exact .inl ⟨hrelay.trans ((utf8_eq_nil_iff _).mpr hempty), if_pos (.inl hempty)⟩
    · have hkept : (normalForm toLowercase data).relay = data.relay :=
        if_neg (not_or.mpr ⟨hempty, hdefault⟩)
      refine .inr ⟨?_, by rw [hkept, hrelay]⟩
      rw [hrelay]
      exact fun hnil => hempty ((utf8_eq_nil_iff _).mp hnil)

/-- A record of admissible fields is short enough. -/
theorem pairingRecord_length_le {did relay ps pk hostname : Bytes} (pairingId : FixedBytes 16)
    (hdid : did.length ≤ 255) (hrelay : relay.length ≤ 255) (hps : ps.length = 32)
    (hpk : pk.length = 32) (hhost : hostname.length ≤ 255) :
    (pairingRecord did relay ps pk pairingId.bytes hostname).length ≤ 851 := by
  have hmagic : pairingBinaryMagic.length = 2 := rfl
  simp only [pairingRecord, List.length_append, List.length_singleton, hps, hpk, pairingId.size,
    hmagic]
  omega

/-- A link that was made is the scheme with a payload that the decoder takes
and reads as the normal form of the bundle. -/
theorem encodePairingData_spec (std : StandardText codec) {data : PairingData} {link : String}
    (h : encodePairingData codec toLowercase data = .ok link) :
    ∃ payload : String, link = pairingUrlScheme ++ "?d=" ++ payload ∧
      payload.utf8ByteSize ≤ maxPairingB64Len ∧
      decodePairingData codec link = .ok (normalForm toLowercase data) := by
  obtain ⟨_, hprefix, h⟩ := of_bind_ok h
  obtain ⟨ps, hps, h⟩ := of_bind_ok h
  obtain ⟨pk, hpk, h⟩ := of_bind_ok h
  obtain ⟨pairingId, hpairingId, h⟩ := of_bind_ok h
  obtain ⟨_, hdid, h⟩ := of_bind_ok h
  obtain ⟨_, hdidLen, h⟩ := of_bind_ok h
  obtain ⟨_, hrelayLen, h⟩ := of_bind_ok h
  obtain ⟨_, hhostLen, h⟩ := of_bind_ok h
  obtain ⟨_, hpsLen, h⟩ := of_bind_ok h
  obtain ⟨_, hpkLen, h⟩ := of_bind_ok h
  rw [ensure_eq_ok] at hprefix hdid hdidLen hrelayLen hhostLen hpsLen hpkLen
  cases h
  set relay := if normalizeRelayForDefaultMatch toLowercase data.relay =
    normalizeRelayForDefaultMatch toLowercase defaultPairingRelayUrl
      then [] else utf8 data.relay with hrelay
  set buf := pairingRecord (utf8 (String.ofList (data.did.toList.drop daemonIdPrefix.length)))
    relay ps pk pairingId.bytes (utf8 data.hostname) with hbuf
  obtain ⟨hurl, hurlSize, hdecode⟩ := b64urlEncode_spec std buf
  have hrecord : buf.length ≤ 851 :=
    pairingRecord_length_le pairingId hdidLen hrelayLen hpsLen hpkLen hhostLen
  have hsize : (b64urlEncode codec buf).utf8ByteSize ≤ maxPairingB64Len := by
    rw [maxPairingB64Len]
    omega
  refine ⟨b64urlEncode codec buf, rfl, hsize, ?_⟩
  rw [decodePairingData_link hurl,
    decodeBinaryPairing_record hsize hdecode hdid hdidLen hrelayLen hhostLen hpsLen hpkLen
      (relay_field data hrelay),
    encode_of_b64StdDecode std hps, encode_of_b64StdDecode std hpk, daemonIdPrefix_append hprefix,
    formatUuid_of_parse hpairingId]
  rfl

/-- Every link that the encoder makes carries a payload within the decoder's
bound and reads back as the normal form of its bundle; bundles with different
normal forms have different links. -/
theorem pairing_link_round_trip (std : StandardText codec) {data : PairingData} {link : String}
    (h : encodePairingData codec toLowercase data = .ok link) :
    (∃ payload : String, link = pairingUrlScheme ++ "?d=" ++ payload ∧
      payload.utf8ByteSize ≤ maxPairingB64Len) ∧
    decodePairingData codec link = .ok (normalForm toLowercase data) ∧
    ∀ other otherLink, encodePairingData codec toLowercase other = .ok otherLink →
      normalForm toLowercase other ≠ normalForm toLowercase data → otherLink ≠ link := by
  obtain ⟨payload, hlink, hsize, hdecode⟩ := encodePairingData_spec std h
  refine ⟨⟨payload, hlink, hsize⟩, hdecode, ?_⟩
  rintro other otherLink hother hne rfl
  obtain ⟨_, _, _, hotherDecode⟩ := encodePairingData_spec std hother
  rw [hdecode] at hotherDecode
  exact hne (Except.ok.inj hotherDecode).symm

/-- Lower-casing of ASCII letters. -/
def asciiLowercase (s : String) : String := String.ofList (s.toList.map Char.toLower)

/-- A bundle with the default relay in other letters and a pairing id without
dashes. -/
def sampleBundle : PairingData where
  ps := Base64.encode (List.replicate 32 7)
  pk := Base64.encode (List.replicate 32 255)
  relay := " WSS://Relay.tpmt.dev/"
  did := "daemon-m1"
  v := 3
  pairingId := "00112233445566778899AABBCCDDEEFF"
  hostname := "höst"

/-- The sample bundle comes back in normal form. -/
theorem sampleBundle_round_trip : ∃ link,
    encodePairingData standardCodec asciiLowercase sampleBundle = .ok link ∧
    decodePairingData standardCodec link =
      .ok (normalForm asciiLowercase sampleBundle) ∧
    (normalForm asciiLowercase sampleBundle).relay = defaultPairingRelayUrl ∧
    (normalForm asciiLowercase sampleBundle).pairingId =
      "00112233-4455-6677-8899-aabbccddeeff" := by
  cases hlink : encodePairingData standardCodec asciiLowercase sampleBundle with
  | error e =>
    have hok : (encodePairingData standardCodec asciiLowercase sampleBundle).isOk =
        true := by decide +kernel
    rw [hlink] at hok
    exact absurd hok Bool.false_ne_true
  | ok link =>
    exact ⟨link, rfl, (pairing_link_round_trip standardCodec_standardText hlink).2.1,
      by decide +kernel, by decide +kernel⟩

end RoundTrip

end Teleprompter.PairingLink
