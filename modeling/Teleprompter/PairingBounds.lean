import Teleprompter.PairingLink

/-!
# Reading a pairing link within bounds

The decoder of pairing links with every index and every range of the record checked, as
the language does it. All ranges and all bytes but one are behind a check of the record's
length; the length byte of the relay is read without one.
-/

namespace Teleprompter.PairingBounds

open FrameCodec (TpError)
open FramedStreams PairingCrypto SessionRecords RecordReplay
open PairingLink hiding decodeTrailing decodeBinaryPairing decodePairingData

section Decoding

variable (codec : Base64Codec)

/-- The bytes of a range. -/
def bytesAt (buf : Bytes) (start stop : ℕ) : Except Fault Bytes :=
  if start ≤ stop ∧ stop ≤ buf.length then .ok (slice buf start stop) else .error .panic

/-- What stands behind the keys. -/
def decodeTrailing (version : UInt8) (buf : Bytes) (o : ℕ) : Except Fault (String × String) :=
  if version = 2 then do
    ensure (o < buf.length) err
    let labelLen ← byteAt buf o
    let o := o + 1
    ensure (o + labelLen.toNat ≤ buf.length) err
    return ("", "")
  else if version = 3 then return ("", "")
  else if version = 4 then do
    ensure (o + 16 + 1 ≤ buf.length) err
    let raw ← bytesAt buf o (o + 16)
    let some raw := FixedBytes.ofBytes 16 raw | throw .panic
    let o := o + 16
    let hostLen ← byteAt buf o
    let o := o + 1
    ensure (o + hostLen.toNat ≤ buf.length) err
    let hostname ← bytesAt buf o (o + hostLen.toNat)
    let hostname ← fromUtf8 hostname
    return (formatUuid raw, hostname)
  else throw err

/-- What stands behind the daemon id. -/
def decodeBehindDid (version : UInt8) (did : String) (buf : Bytes) (o : ℕ) :
    Except Fault PairingData := do
  let relayLen ← byteAt buf o
  let o := o + 1
  ensure (o + relayLen.toNat ≤ buf.length) err
  let relay ← (if relayLen = 0 then pure defaultPairingRelayUrl
    else do
      let relay ← bytesAt buf o (o + relayLen.toNat)
      fromUtf8 relay)
  let o := o + relayLen.toNat
  ensure (o + 32 + 32 ≤ buf.length) err
  let ps ← bytesAt buf o (o + 32)
  let o := o + 32
  let pk ← bytesAt buf o (o + 32)
  let o := o + 32
  let (pairingId, hostname) ← decodeTrailing version buf o
  return { ps := codec.encode ps, pk := codec.encode pk, relay, did, v := version, pairingId,
           hostname }

/-- The bundle of a record. -/
def decodeRecord (buf : Bytes) : Except Fault PairingData := do
  ensure (2 + 1 + 1 + 1 + 32 + 32 ≤ buf.length) err
  let o := 0
  let magic ← bytesAt buf 0 2
  ensure (magic = pairingBinaryMagic) err
  let o := o + 2
  let version ← byteAt buf o
  let o := o + 1
  ensure (2 ≤ version ∧ version ≤ 4) err
  let didLen ← byteAt buf o
  let o := o + 1
  ensure (didLen ≠ 0 ∧ o + didLen.toNat ≤ buf.length) err
  let wireDid ← bytesAt buf o (o + didLen.toNat)
  let wireDid ← fromUtf8 wireDid
  let o := o + didLen.toNat
  let did := if version = 2 then wireDid else daemonIdPrefix ++ wireDid
  decodeBehindDid codec version did buf o

/-- The bundle of a payload. -/
def decodeBinaryPairing (b64 : String) : Except Fault PairingData := do
  ensure (b64.utf8ByteSize ≤ maxPairingB64Len) err
  let buf ← (b64urlDecode codec b64).mapError .error
  decodeRecord codec buf

/-- The payload of a link: the value of its first parameter `d`. -/
def payload (raw : String) : Option String :=
  let trimmed := (trim raw.toList).dropWhile fun c => c.toNat = 0xfeff
  if pairingUrlScheme.toList <+: trimmed then
    match splitOnce '?' trimmed with
    | some (_, query) =>
      (((query.splitOn '&').filterMap (splitOnce '=')).find? fun kv => kv.1 = ['d']).map
        fun kv => String.ofList kv.2
    | none => none
  else none

/-- The bundle of a link. -/
def decodePairingData (raw : String) : Except Fault PairingData :=
  match payload raw with
  | some b64 => decodeBinaryPairing codec b64
  | none => .error err

end Decoding

section Panics

variable {α β : Type} {buf : Bytes} {o start stop : ℕ}

theorem err_ne_panic : err ≠ .panic := by
  intro h
  cases h

theorem ensure_bind_panics {p : Prop} [Decidable p] {f : Unit → Except Fault β} :
    (ensure p err >>= f) = .error .panic ↔ p ∧ f () = .error .panic := by
  rw [ensure]
  split
  · rename_i hp
    exact ⟨fun h => ⟨hp, h⟩, And.right⟩
  · rename_i hp
    refine ⟨fun h => ?_, fun h => absurd h.1 hp⟩
    exact absurd (Except.error.inj h) err_ne_panic

theorem byteAt_bind_panics {f : UInt8 → Except Fault β} :
    (byteAt buf o >>= f) = .error .panic ↔
      buf.length ≤ o ∨ ∃ b, buf[o]? = some b ∧ f b = .error .panic := by
  rw [byteAt]
  split
  · rename_i b hb
    have hlt : ¬buf.length ≤ o := fun hle => by
      rw [List.getElem?_eq_none hle] at hb
      cases hb
    refine ⟨fun h => .inr ⟨b, hb, h⟩, ?_⟩
    rintro (hle | ⟨b', hb', h⟩)
    · exact absurd hle hlt
    · exact Option.some.inj (hb'.symm.trans hb) ▸ h
  · rename_i hnone
    exact ⟨fun _ => .inl (List.getElem?_eq_none_iff.mp hnone), fun _ => rfl⟩

theorem fromUtf8_bind_panics {bytes : Bytes} {f : String → Except Fault β} :
    (fromUtf8 bytes >>= f) = .error .panic ↔
      ∃ text, fromUtf8 bytes = .ok text ∧ f text = .error .panic := by
  rw [fromUtf8]
  split
  · rename_i text _
    refine ⟨fun h => ⟨text, rfl, h⟩, ?_⟩
    rintro ⟨text', htext, h⟩
    cases htext
    exact h
  · constructor
    · intro h
      exact absurd (Except.error.inj h) err_ne_panic
    · rintro ⟨_, h, _⟩
      cases h

/-- A range within the record is read. -/
theorem bytesAt_of_le (h : start ≤ stop ∧ stop ≤ buf.length) :
    bytesAt buf start stop = .ok (slice buf start stop) :=
  if_pos h

theorem bytesAt_bind {f : Bytes → Except Fault β} (h : start ≤ stop ∧ stop ≤ buf.length) :
    (bytesAt buf start stop >>= f) = f (slice buf start stop) := by
  rw [bytesAt_of_le h]
  rfl

/-- Behind a check two computations agree when they agree under it. -/
theorem ensure_bind_congr {p : Prop} [Decidable p] {e : Fault} {f g : Unit → Except Fault β}
    (h : p → f () = g ()) : (ensure p e >>= f) = (ensure p e >>= g) := by
  rw [ensure]
  split
  · rename_i hp
    exact h hp
  · rfl

end Panics

section Bounds

variable {codec : Base64Codec} {version : UInt8} {did : String} {buf : Bytes} {o : ℕ}

theorem slice_length {start stop : ℕ} (h : stop ≤ buf.length) :
    (slice buf start stop).length = stop - start := by
  rw [slice, List.length_take, List.length_drop]
  omega

/-- The sixteen bytes of a pairing id are there. -/
theorem ofBytes_slice (h : o + 16 ≤ buf.length) :
    ∃ raw, FixedBytes.ofBytes 16 (slice buf o (o + 16)) = some raw := by
  have hsize : (slice buf o (o + 16)).length = 16 := by
    rw [slice_length h, Nat.add_sub_cancel_left]
  exact ⟨⟨slice buf o (o + 16), hsize⟩, dif_pos hsize⟩

/-- Everything behind the keys is read behind a check. -/
theorem decodeTrailing_within : decodeTrailing version buf o ≠ .error .panic := by
  rw [decodeTrailing]
  split
  · rw [ne_eq, ensure_bind_panics, byteAt_bind_panics]
    rintro ⟨hlt, hle | ⟨labelLen, -, h⟩⟩
    · exact absurd hlt (Nat.not_lt.mpr hle)
    · exact nomatch (ensure_bind_panics.mp h).2
  · split
    · nofun
    · split
      · rw [ne_eq, ensure_bind_panics]
        rintro ⟨hle, h⟩
        obtain ⟨raw, hraw⟩ : ∃ raw, FixedBytes.ofBytes 16 (slice buf o (o + 16)) = some raw :=
          ofBytes_slice (by omega)
        rw [bytesAt_of_le (by omega)] at h
        dsimp only [bind, Except.bind] at h
        rw [hraw] at h
        obtain hend | ⟨hostLen, -, h⟩ := byteAt_bind_panics.mp h
        · omega
        · obtain ⟨hhost, h⟩ := ensure_bind_panics.mp h
          rw [bytesAt_of_le ⟨Nat.le_add_right _ _, hhost⟩] at h
          obtain ⟨hostname, -, h⟩ := fromUtf8_bind_panics.mp h
          cases h
      · exact fun h => err_ne_panic (Except.error.inj h)

/-- Behind a length byte that is there, everything is read behind a check. -/
theorem decodeBehindDid_within (hlt : o < buf.length) :
    decodeBehindDid codec version did buf o ≠ .error .panic := by
  rw [decodeBehindDid, ne_eq, byteAt_bind_panics]
  rintro (hle | ⟨relayLen, -, h⟩)
  · omega
  obtain ⟨hrelay, h⟩ := ensure_bind_panics.mp h
  have hkeys : ∀ relay, ¬(do
      ensure (o + 1 + relayLen.toNat + 32 + 32 ≤ buf.length) err
      let ps ← bytesAt buf (o + 1 + relayLen.toNat) (o + 1 + relayLen.toNat + 32)
      let pk ← bytesAt buf (o + 1 + relayLen.toNat + 32) (o + 1 + relayLen.toNat + 32 + 32)
      let (pairingId, hostname) ← decodeTrailing version buf (o + 1 + relayLen.toNat + 32 + 32)
      return { ps := codec.encode ps, pk := codec.encode pk, relay, did, v := version, pairingId,
               hostname : PairingData }) = .error .panic := by
    intro relay h
    obtain ⟨hle, h⟩ := ensure_bind_panics.mp h
    rw [bytesAt_of_le (by omega), bytesAt_of_le (by omega)] at h
    dsimp only [bind, Except.bind] at h
    split at h
    · rename_i fault hfault
      rw [Except.error.inj h] at hfault
      exact decodeTrailing_within hfault
    · cases h
  by_cases hdefault : relayLen = 0
  · rw [if_pos hdefault] at h
    exact hkeys _ h
  · rw [if_neg hdefault, bytesAt_of_le ⟨Nat.le_add_right _ _, hrelay⟩] at h
    obtain ⟨relay, -, h⟩ := fromUtf8_bind_panics.mp h
    exact hkeys relay h

/-- The record ends with its daemon id: nothing stands where the length byte of the relay
is read. -/
def EndsInDaemonId (buf : Bytes) : Prop :=
  ∃ version didLen did, buf = pairingBinaryMagic ++ version :: didLen :: did ∧
    (2 ≤ version ∧ version ≤ 4) ∧ 65 ≤ did.length ∧ did.length = didLen.toNat ∧
    ∃ text, fromUtf8 did = .ok text

/-- Where the reading of a record leaves its bounds. -/
theorem decodeRecord_cons_panics_iff {a b version didLen : UInt8} {did : Bytes} :
    decodeRecord codec (a :: b :: version :: didLen :: did) = .error .panic ↔
      [a, b] = pairingBinaryMagic ∧ (2 ≤ version ∧ version ≤ 4) ∧ 65 ≤ did.length ∧
        did.length = didLen.toNat ∧ ∃ text, fromUtf8 did = .ok text := by
  have hlength : (a :: b :: version :: didLen :: did).length = did.length + 4 := rfl
  have hversion : byteAt (a :: b :: version :: didLen :: did) (0 + 2) = .ok version := rfl
  have hdidLen : byteAt (a :: b :: version :: didLen :: did) (0 + 2 + 1) = .ok didLen := rfl
  have hmagic : bytesAt (a :: b :: version :: didLen :: did) 0 2 = .ok [a, b] := by
    rw [bytesAt_of_le ⟨by decide, by rw [hlength]; omega⟩]
    rfl
  have hslice : slice (a :: b :: version :: didLen :: did) (0 + 2 + 1 + 1)
      (0 + 2 + 1 + 1 + didLen.toNat) = did.take didLen.toNat := by
    rw [slice, Nat.add_sub_cancel_left]
    rfl
  rw [decodeRecord, ensure_bind_panics, hmagic, hlength]
  dsimp only [bind, Except.bind]
  constructor
  · rintro ⟨hlen, h⟩
    obtain ⟨hab, h⟩ := ensure_bind_panics.mp h
    rw [hversion] at h
    obtain ⟨hsupported, h⟩ := ensure_bind_panics.mp h
    rw [hdidLen] at h
    obtain ⟨⟨-, hdid⟩, h⟩ := ensure_bind_panics.mp h
    rw [bytesAt_of_le ⟨Nat.le_add_right _ _, by rw [hlength]; exact hdid⟩, hslice] at h
    obtain ⟨text, htext, h⟩ := fromUtf8_bind_panics.mp h
    have hend : did.length = didLen.toNat := by
      by_contra hne
      exact decodeBehindDid_within (by rw [hlength]; omega) h
    rw [← hend, List.take_length] at htext
    exact ⟨hab, hsupported, by omega, hend, text, htext⟩
  · rintro ⟨hab, hsupported, hlen, hend, text, htext⟩
    have hne : didLen ≠ 0 := by
      rintro rfl
      rw [hend] at hlen
      exact absurd hlen (by decide)
    have hdid : 0 + 2 + 1 + 1 + didLen.toNat ≤ (a :: b :: version :: didLen :: did).length := by
      rw [hlength]
      omega
    refine ⟨by omega, ensure_bind_panics.mpr ⟨hab, ?_⟩⟩
    rw [hversion]
    refine ensure_bind_panics.mpr ⟨hsupported, ?_⟩
    rw [hdidLen]
    refine ensure_bind_panics.mpr ⟨⟨hne, hdid⟩, ?_⟩
    rw [bytesAt_of_le ⟨Nat.le_add_right _ _, hdid⟩, hslice, ← hend, List.take_length]
    refine fromUtf8_bind_panics.mpr ⟨text, htext, ?_⟩
    refine byteAt_bind_panics.mpr (.inl ?_)
    rw [hlength]
    omega

theorem decodeRecord_panics_iff :
    decodeRecord codec buf = .error .panic ↔ EndsInDaemonId buf := by
  constructor
  · intro h
    match buf with
    | a :: b :: version :: didLen :: did =>
      obtain ⟨hab, hrest⟩ := decodeRecord_cons_panics_iff.mp h
      refine ⟨version, didLen, did, ?_, hrest⟩
      rw [← hab]
      rfl
    | [] => exact absurd (ensure_bind_panics.mp h).1 (by decide)
    | [_] => exact absurd (ensure_bind_panics.mp h).1 (by simp)
    | [_, _] => exact absurd (ensure_bind_panics.mp h).1 (by simp)
    | [_, _, _] => exact absurd (ensure_bind_panics.mp h).1 (by simp)
  · rintro ⟨version, didLen, did, rfl, hrest⟩
    exact decodeRecord_cons_panics_iff.mpr ⟨rfl, hrest⟩

end Bounds

section Agreement

variable {codec : Base64Codec} {buf : Bytes}

theorem decodeTrailing_eq (version : UInt8) (buf : Bytes) (o : ℕ) :
    decodeTrailing version buf o = PairingLink.decodeTrailing version buf o := by
  rw [decodeTrailing, PairingLink.decodeTrailing]
  refine if_congr Iff.rfl rfl (if_congr Iff.rfl rfl (if_congr Iff.rfl ?_ rfl))
  refine ensure_bind_congr fun hle => ?_
  obtain ⟨raw, hraw⟩ : ∃ raw, FixedBytes.ofBytes 16 (slice buf o (o + 16)) = some raw :=
    ofBytes_slice (by omega)
  rw [bytesAt_bind (by omega), hraw]
  refine bind_congr fun hostLen => ensure_bind_congr fun hhost => ?_
  rw [bytesAt_bind ⟨Nat.le_add_right _ _, hhost⟩]

/-- No range that is read leaves the record, so reading it as far as it goes is the same. -/
theorem decodeBinaryPairing_eq (codec : Base64Codec) (b64 : String) :
    decodeBinaryPairing codec b64 = PairingLink.decodeBinaryPairing codec b64 := by
  rw [decodeBinaryPairing, PairingLink.decodeBinaryPairing]
  refine ensure_bind_congr fun _ => bind_congr fun buf => ?_
  rw [decodeRecord]
  refine ensure_bind_congr fun hlen => ?_
  rw [bytesAt_bind ⟨Nat.zero_le 2, by omega⟩]
  dsimp only
  refine ensure_bind_congr fun _ => ?_
  refine bind_congr fun version => ?_
  refine ensure_bind_congr fun _ => ?_
  refine bind_congr fun didLen => ?_
  refine ensure_bind_congr fun hdid => ?_
  rw [bytesAt_bind ⟨Nat.le_add_right _ _, hdid.2⟩]
  refine bind_congr fun wireDid => ?_
  rw [decodeBehindDid]
  dsimp only
  refine bind_congr fun relayLen => ?_
  refine ensure_bind_congr fun hrelay => ?_
  rw [bytesAt_bind ⟨Nat.le_add_right _ _, hrelay⟩]
  refine bind_congr fun relay => ?_
  refine ensure_bind_congr fun hkeys => ?_
  rw [bytesAt_bind (by omega), bytesAt_bind (by omega)]
  rw [decodeTrailing_eq]

theorem decodePairingData_eq (codec : Base64Codec) (raw : String) :
    decodePairingData codec raw = PairingLink.decodePairingData codec raw := by
  rw [decodePairingData, payload, PairingLink.decodePairingData]
  dsimp only
  by_cases hscheme : pairingUrlScheme.toList <+:
      (trim raw.toList).dropWhile fun c => c.toNat = 0xfeff
  · rw [if_pos hscheme, ensure, if_pos hscheme]
    rcases splitOnce '?' ((trim raw.toList).dropWhile fun c => c.toNat = 0xfeff) with
      _ | ⟨-, query⟩
    · rfl
    · dsimp only [bind, Except.bind]
      generalize List.find? _ ((query.splitOn '&').filterMap (splitOnce '=')) = found
      rcases found with _ | kv
      · rfl
      · exact decodeBinaryPairing_eq codec _
  · rw [if_neg hscheme, ensure, if_neg hscheme]
    rfl

end Agreement

section Results

/-- The payload of a link is a record that ends with its daemon id. -/
def Truncated (codec : Base64Codec) (raw : String) : Prop :=
  ∃ b64 buf, payload raw = some b64 ∧ b64.utf8ByteSize ≤ maxPairingB64Len ∧
    b64urlDecode codec b64 = .ok buf ∧ EndsInDaemonId buf

theorem decodeBinaryPairing_panics_iff (codec : Base64Codec) (b64 : String) :
    decodeBinaryPairing codec b64 = .error .panic ↔
      b64.utf8ByteSize ≤ maxPairingB64Len ∧
        ∃ buf, b64urlDecode codec b64 = .ok buf ∧ EndsInDaemonId buf := by
  rw [decodeBinaryPairing, ensure_bind_panics]
  refine and_congr_right fun _ => ?_
  cases hbuf : b64urlDecode codec b64 with
  | error e =>
    refine ⟨nofun, ?_⟩
    rintro ⟨buf, hbuf', -⟩
    cases hbuf'
  | ok buf =>
    refine decodeRecord_panics_iff.trans ⟨fun h => ⟨buf, rfl, h⟩, ?_⟩
    rintro ⟨buf', ⟨⟩, h⟩
    exact h

/-- A link is read without leaving the bounds of its record exactly when its payload is
not a record that ends with its daemon id. -/
theorem within_bounds_iff (codec : Base64Codec) (raw : String) :
    decodePairingData codec raw ≠ .error .panic ↔ ¬Truncated codec raw := by
  refine not_congr ?_
  rw [decodePairingData, Truncated]
  cases payload raw with
  | none =>
    refine ⟨fun h => absurd (Except.error.inj h) err_ne_panic, ?_⟩
    rintro ⟨b64, buf, hnone, -⟩
    cases hnone
  | some b64 =>
    refine (decodeBinaryPairing_panics_iff codec b64).trans ?_
    constructor
    · rintro ⟨hsize, buf, hbuf, hends⟩
      exact ⟨b64, buf, rfl, hsize, hbuf, hends⟩
    · rintro ⟨_, buf, ⟨⟩, hsize, hbuf, hends⟩
      exact ⟨hsize, buf, hbuf, hends⟩

/-- Version 4, a daemon id of 65 letters, and nothing behind it. -/
def truncatedRecord : Bytes := pairingBinaryMagic ++ 4 :: 65 :: List.replicate 65 97

/-- That record as a payload. -/
def truncatedPayload : String :=
  "dHAEQWFhYWFhYWFhYWFhYWFhYWFhYWFhYWFhYWFhYWFhYWFhYWFhYWFhYWFhYWFhYWFhYWFhYWFhYWFhYWFhYWFhYWFh"

/-- The relay's length byte is read behind the end of that record. -/
theorem truncated_link_panics : ¬∀ codec raw, decodePairingData codec raw ≠ .error .panic := by
  intro h
  refine (within_bounds_iff standardCodec ("tp://p?d=" ++ truncatedPayload)).mp (h _ _)
    ⟨truncatedPayload, truncatedRecord, by decide +kernel, by decide +kernel, by decide +kernel, ?_⟩
  have htext : utf8 (String.ofList (List.replicate 65 'a')) = List.replicate 65 97 := by
    decide +kernel
  refine ⟨4, 65, List.replicate 65 97, rfl, by decide, by decide, by decide, ?_⟩
  exact ⟨String.ofList (List.replicate 65 'a'), htext ▸ fromUtf8_utf8 _⟩

end Results

end Teleprompter.PairingBounds
