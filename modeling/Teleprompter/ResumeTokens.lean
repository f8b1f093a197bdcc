import Mathlib.Data.List.Infix
import Teleprompter.Base64
import Teleprompter.FrameCodec
import Teleprompter.RelayConn

/-!
# Resume tokens

A token is the url-safe text of a binary payload, a dot and the url-safe text
of the payload's keyed hash. The payload ends with the time at which the token
expires. The library for these texts is a parameter, and so is the keyed hash, of
which nothing is assumed: whatever it is, a token that verifies at all verifies as a payload with the expiry it
was issued with. A decoder whose accepted texts are not prefixes of each other rejects
what was cut off and what was added to.
-/

namespace Teleprompter.ResumeTokens

open Base64 FrameCodec RelayConn

section Decoders

variable {α γ : Type}

/-- No accepted text is a strict prefix of another. -/
def PrefixFreeDomain (decode : List γ → Option α) : Prop :=
  ∀ front back, (decode front).isSome → (decode (front ++ back)).isSome → back = []

variable {decode : List γ → Option α} {text front back : List γ}

/-- An accepted text that was cut off is rejected. -/
theorem PrefixFreeDomain.eq_none_of_prefix (h : PrefixFreeDomain decode)
    (htext : (decode text).isSome) (hfront : front <+: text) (hne : front ≠ text) :
    decode front = none := by
  obtain ⟨rest, rfl⟩ := hfront
  refine Option.not_isSome_iff_eq_none.mp fun hsome => ?_
  have hempty : rest = [] := h front rest hsome htext
  rw [hempty, List.append_nil] at hne
  exact hne rfl

/-- An accepted text that was added to is rejected. -/
theorem PrefixFreeDomain.append_eq_none (h : PrefixFreeDomain decode)
    (htext : (decode text).isSome) (hback : back ≠ []) : decode (text ++ back) = none :=
  Option.not_isSome_iff_eq_none.mp fun hsome => hback (h text back htext hsome)

end Decoders

/-- Payload version. -/
def version : UInt8 := 2

/-- Default lifetime of a token, one hour in milliseconds. -/
def defaultTtlMs : ℕ := 60 * 60000

/-- Role byte of a daemon. -/
def roleDaemon : UInt8 := 0

/-- Role byte of a frontend. -/
def roleFrontend : UInt8 := 1

/-- Times are 64-bit numbers. -/
def timeBound : ℕ := 18446744073709551616

/-- A payload with another expiry. -/
def withExpiry (expiresAt : ℕ) : ResumePayload → ResumePayload
  | .daemon daemonId _ => .daemon daemonId expiresAt
  | .frontend daemonId frontendId _ => .frontend daemonId frontendId expiresAt

/-- Issues and verifies tokens. -/
structure ResumeTokenSigner where
  /-- The library for url-safe text. -/
  base64 : UrlCodec
  /-- The keyed hash under the signer's secret. -/
  keyedHash : Bytes → Bytes
  /-- Lifetime of a token in milliseconds. -/
  ttlMs : ℕ

/-- The UTF-8 bytes of a text. -/
def utf8 (s : String) : Bytes := s.toUTF8.data.toList

/-- The eight bytes of a 64-bit number, most significant first. -/
def toBeBytes64 (n : ℕ) : Bytes := toBeBytes (n / 4294967296) ++ toBeBytes (n % 4294967296)

/-- The number of eight bytes, most significant first. -/
def fromBeBytes64 (b : Bytes) : ℕ :=
  fromBeBytes (b.take 4) * 4294967296 + fromBeBytes (b.drop 4)

/-- A text behind its length, which is cut to 32 bits. -/
def writeLpString (s : String) : Bytes :=
  toBeBytes ((utf8 s).length % 4294967296) ++ utf8 s

/-- The binary form of a payload; a daemon's frontend id is the empty text. -/
def encodePayload : ResumePayload → Bytes
  | .daemon daemonId expiresAt =>
    [version, roleDaemon] ++ writeLpString daemonId ++ writeLpString "" ++ toBeBytes64 expiresAt
  | .frontend daemonId frontendId expiresAt =>
    [version, roleFrontend] ++ writeLpString daemonId ++ writeLpString frontendId ++
      toBeBytes64 expiresAt

/-- The text behind its length at an offset, and the offset after it. -/
def readLpString (b : Bytes) (offset : ℕ) : Option (String × ℕ) :=
  if b.length < offset + 4 then none
  else
    let start := offset + 4
    let stop := start + fromBeBytes ((b.drop offset).take 4)
    if b.length < stop then none
    else (String.fromUTF8? ⟨((b.drop start).take (stop - start)).toArray⟩).map (·, stop)

/-- The payload of its binary form. -/
def decodePayload (b : Bytes) : Option ResumePayload := do
  let versionByte ← b[0]?
  if versionByte ≠ version then none
  else
    let roleByte ← b[1]?
    let (daemonId, cur) ← readLpString b 2
    let (frontendId, cur) ← readLpString b cur
    if cur + 8 ≠ b.length then none
    else
      let expiresAt := fromBeBytes64 ((b.drop cur).take 8)
      if roleByte = roleDaemon then some (.daemon daemonId expiresAt)
      else if roleByte = roleFrontend then some (.frontend daemonId frontendId expiresAt)
      else none

/-- Issue a token: the token and its expiry. The sum of the time and the
lifetime is taken in 64 bits. -/
def ResumeTokenSigner.issue (signer : ResumeTokenSigner) (payload : ResumePayload) (nowMs : ℕ)
    (expiresAtOverride : Option ℕ) : String × ℕ :=
  let expiresAt := expiresAtOverride.getD ((nowMs + signer.ttlMs) % timeBound)
  let body := encodePayload (withExpiry expiresAt payload)
  (String.ofList (signer.base64.encode body ++ '.' :: signer.base64.encode (signer.keyedHash body)),
    expiresAt)

/-- The two parts of a token around its last dot; the first is not empty. -/
def splitToken (token : String) : Option (List Char × List Char) :=
  match token.toList.reverse.span (· ≠ '.') with
  | (_, []) => none
  | (sig, _ :: body) => if body = [] then none else some (body.reverse, sig.reverse)

/-- Verify a token. -/
def ResumeTokenSigner.verify (signer : ResumeTokenSigner) (token : String) (nowMs : ℕ) :
    Option ResumePayload := do
  let (bodyText, sigText) ← splitToken token
  let body ← signer.base64.decode bodyText
  let sig ← signer.base64.decode sigText
  let expected := signer.keyedHash body
  if sig.length ≠ expected.length then none
  else if sig ≠ expected then none
  else
    let payload ← decodePayload body
    if payload.expiresAt ≤ nowMs then none
    else if payload.daemonId = "" then none
    else
      match payload with
      | .frontend _ "" _ => none
      | _ => some payload

@[simp] theorem expiresAt_withExpiry (expiresAt : ℕ) (payload : ResumePayload) :
    (withExpiry expiresAt payload).expiresAt = expiresAt := by
  cases payload with
  | daemon daemonId old => rfl
  | frontend daemonId frontendId old => rfl

/-- A 64-bit number is read back from its bytes. -/
theorem fromBeBytes64_toBeBytes64 {n : ℕ} (h : n < timeBound) :
    fromBeBytes64 (toBeBytes64 n) = n := by
  have hhigh : n / 4294967296 < 4294967296 := by
    rw [timeBound] at h
    omega
  have hlow : n % 4294967296 < 4294967296 := Nat.mod_lt n (by decide)
  have hfour : (toBeBytes (n / 4294967296)).length = 4 := toBeBytes_length _
  rw [fromBeBytes64, toBeBytes64, List.take_left' hfour, List.drop_left' hfour,
    fromBeBytes_toBeBytes hhigh, fromBeBytes_toBeBytes hlow]
  omega

/-- The last eight bytes of a payload are its expiry. -/
theorem encodePayload_split (payload : ResumePayload) :
    ∃ front, encodePayload payload = front ++ toBeBytes64 payload.expiresAt := by
  cases payload with
  | daemon daemonId expiresAt => exact ⟨_, rfl⟩
  | frontend daemonId frontendId expiresAt => exact ⟨_, rfl⟩

/-- A payload that is read ends with its expiry, however its texts are read. -/
theorem expiresAt_of_decodePayload {front : Bytes} {n : ℕ} {payload : ResumePayload}
    (hn : n < timeBound) (h : decodePayload (front ++ toBeBytes64 n) = some payload) :
    payload.expiresAt = n := by
  unfold decodePayload at h
  simp only [Option.bind_eq_bind, Option.bind_eq_some_iff, Option.ite_none_left_eq_some] at h
  obtain ⟨_, _, _, _, _, ⟨daemonId, cur⟩, _, ⟨frontendId, stop⟩, _, hstop, hpayload⟩ := h
  have hcur : stop = front.length := by
    have hlength : (front ++ toBeBytes64 n).length = front.length + 8 := List.length_append
    dsimp only at hstop
    omega
  have hbytes : ((front ++ toBeBytes64 n).drop stop).take 8 = toBeBytes64 n := by
    rw [hcur, List.drop_left]
    exact List.take_of_length_le (le_refl 8)
  simp only [hbytes, fromBeBytes64_toBeBytes64 hn] at hpayload
  split at hpayload
  · rw [← Option.some.inj hpayload]
    rfl
  · rw [Option.ite_none_right_eq_some] at hpayload
    rw [← Option.some.inj hpayload.2]
    rfl

/-- A text around a dot is split there when no dot follows. -/
theorem splitToken_of_dot {front sig : List Char} (h : '.' ∉ sig) :
    splitToken (String.ofList (front ++ '.' :: sig)) =
      if front = [] then none else some (front, sig) := by
  have hspan : (sig.reverse ++ '.' :: front.reverse).span (· ≠ '.') =
      (sig.reverse, '.' :: front.reverse) := by
    have hall : ∀ c ∈ sig.reverse, decide (c ≠ '.') = true := fun c hc =>
      decide_eq_true fun heq => h (heq ▸ List.mem_reverse.mp hc)
    rw [List.span_eq_takeWhile_dropWhile, List.takeWhile_append_of_pos hall,
      List.dropWhile_append_of_pos hall, List.takeWhile_cons_of_neg (by decide),
      List.dropWhile_cons_of_neg (by decide), List.append_nil]
  have hreverse : (front ++ '.' :: sig).reverse = sig.reverse ++ '.' :: front.reverse := by simp
  rw [splitToken, String.toList_ofList, hreverse, hspan]
  simp only [List.reverse_eq_nil_iff, List.reverse_reverse]

/-- What a token verifies as has the expiry it was issued with, and a token is
rejected from that time on. -/
theorem ResumeTokenSigner.expiresAt_of_verify_issue (signer : ResumeTokenSigner)
    {payload found : ResumePayload} {nowMs laterMs : ℕ}
    (h : signer.verify (signer.issue payload nowMs none).1 laterMs = some found) :
    found.expiresAt = (nowMs + signer.ttlMs) % timeBound ∧ laterMs < found.expiresAt := by
  have hbound : (nowMs + signer.ttlMs) % timeBound < timeBound := Nat.mod_lt _ (by decide)
  unfold ResumeTokenSigner.verify ResumeTokenSigner.issue at h
  rw [splitToken_of_dot (signer.base64.dot_notMem _)] at h
  simp only [Option.bind_eq_bind, Option.bind_eq_some_iff, Option.ite_none_left_eq_some] at h
  obtain ⟨⟨bodyText, sigText⟩, ⟨_, hsplit⟩, body, hbody, _, _, _, _, q, hdecode, hlater, _, hfound⟩ := h
  obtain ⟨rfl, rfl⟩ := Prod.mk.inj (Option.some.inj hsplit)
  rw [signer.base64.decode_encode] at hbody
  obtain rfl := Option.some.inj hbody
  obtain ⟨front, hfront⟩ := encodePayload_split (withExpiry ((nowMs + signer.ttlMs) % timeBound) payload)
  have hsame : found = q := by
    split at hfound
    · cases hfound
    · exact (Option.some.inj hfound).symm
  rw [expiresAt_withExpiry] at hfront
  have hexpiry : q.expiresAt = (nowMs + signer.ttlMs) % timeBound :=
    expiresAt_of_decodePayload hbound (hfront ▸ hdecode)
  rw [hsame]
  exact ⟨hexpiry, Nat.lt_of_not_le hlater⟩

/-- A token is rejected once its lifetime is over. -/
theorem ResumeTokenSigner.verify_issue_of_le (signer : ResumeTokenSigner) (payload : ResumePayload)
    {nowMs laterMs : ℕ} (h : nowMs + signer.ttlMs ≤ laterMs) :
    signer.verify (signer.issue payload nowMs none).1 laterMs = none := by
  cases hverify : signer.verify (signer.issue payload nowMs none).1 laterMs with
  | none => rfl
  | some found =>
    obtain ⟨hexpiry, hlater⟩ := signer.expiresAt_of_verify_issue hverify
    have hle : (nowMs + signer.ttlMs) % timeBound ≤ nowMs + signer.ttlMs := Nat.mod_le _ _
    omega

section Codec

variable {b front more : Bytes} {s : String} {payload : ResumePayload}

/-- The ids of a payload have lengths that fit their prefixes. -/
def IdsFit : ResumePayload → Prop
  | .daemon daemonId _ => (utf8 daemonId).length < 4294967296
  | .frontend daemonId frontendId _ =>
    (utf8 daemonId).length < 4294967296 ∧ (utf8 frontendId).length < 4294967296

/-- A frontend's payload names the frontend. -/
def frontendNamed : ResumePayload → Bool
  | .daemon _ _ => true
  | .frontend _ frontendId _ => frontendId ≠ ""

/-- A text is read back at the offset it was written to. -/
theorem readLpString_writeLpString (hs : (utf8 s).length < 4294967296) :
    readLpString (front ++ (writeLpString s ++ more)) front.length =
      some (s, front.length + (writeLpString s).length) := by
  have hwritten : (writeLpString s).length = 4 + (utf8 s).length := List.length_append
  have hlength : (front ++ (writeLpString s ++ more)).length =
      front.length + (4 + (utf8 s).length + more.length) := by
    rw [List.length_append, List.length_append, hwritten]
  have hhead : ((front ++ (writeLpString s ++ more)).drop front.length).take 4 =
      toBeBytes ((utf8 s).length % 4294967296) := by
    rw [List.drop_left, writeLpString, List.append_assoc]
    exact List.take_left' (toBeBytes_length _)
  have htext : ((front ++ (writeLpString s ++ more)).drop (front.length + 4)).take
      (utf8 s).length = utf8 s := by
    rw [← List.drop_drop, List.drop_left, writeLpString, List.append_assoc,
      List.drop_left' (toBeBytes_length _), List.take_left]
  have hdecoded : String.fromUTF8? ⟨(utf8 s).toArray⟩ = some s := dif_pos s.isValidUTF8
  unfold readLpString
  rw [if_neg (by omega), hhead, Nat.mod_eq_of_lt hs, fromBeBytes_toBeBytes hs]
  dsimp only
  rw [if_neg (by omega), Nat.add_sub_cancel_left, htext, hdecoded, hwritten]
  simp only [Option.map_some, Nat.add_assoc]

/-- What a reader finds does not depend on what comes later. -/
theorem readLpString_append {offset : ℕ} {found : String × ℕ}
    (h : readLpString b offset = some found) : readLpString (b ++ more) offset = some found := by
  unfold readLpString at h ⊢
  dsimp only at h ⊢
  split at h
  · cases h
  · next hfour =>
    have hhead : ((b ++ more).drop offset).take 4 = (b.drop offset).take 4 := by
      rw [List.drop_append_of_le_length (by omega),
        List.take_append_of_le_length (by rw [List.length_drop]; omega)]
    split at h
    · cases h
    · next hstop =>
      rw [hhead, if_neg (by rw [List.length_append]; omega),
        if_neg (by rw [List.length_append]; omega), List.drop_append_of_le_length (by omega),
        List.take_append_of_le_length (by rw [List.length_drop]; omega)]
      exact h

/-- An accepted payload has two texts and eight more bytes. -/
theorem parts_of_decodePayload (h : (decodePayload b).isSome) :
    ∃ daemonId cur frontendId stop, readLpString b 2 = some (daemonId, cur) ∧
      readLpString b cur = some (frontendId, stop) ∧ stop + 8 = b.length := by
  obtain ⟨payload, hpayload⟩ := Option.isSome_iff_exists.mp h
  unfold decodePayload at hpayload
  simp only [Option.bind_eq_bind, Option.bind_eq_some_iff, Option.ite_none_left_eq_some,
    Decidable.not_not] at hpayload
  obtain ⟨_, _, _, _, _, ⟨daemonId, cur⟩, hdaemon, ⟨frontendId, stop⟩, hfrontend, hstop, _⟩ :=
    hpayload
  exact ⟨daemonId, cur, frontendId, stop, hdaemon, hfrontend, hstop⟩

/-- The two texts settle where a payload ends. -/
theorem prefixFreeDomain_decodePayload : PrefixFreeDomain decodePayload := by
  intro front back hfront hwhole
  obtain ⟨daemonId, cur, frontendId, stop, hdaemon, hfrontend, hstop⟩ :=
    parts_of_decodePayload hfront
  obtain ⟨daemonId', cur', frontendId', stop', hdaemon', hfrontend', hstop'⟩ :=
    parts_of_decodePayload hwhole
  have hcur : (daemonId', cur') = (daemonId, cur) :=
    Option.some.inj (hdaemon'.symm.trans (readLpString_append hdaemon))
  obtain ⟨rfl, rfl⟩ := Prod.mk.inj hcur
  have hend : (frontendId', stop') = (frontendId, stop) :=
    Option.some.inj (hfrontend'.symm.trans (readLpString_append hfrontend))
  obtain ⟨rfl, rfl⟩ := Prod.mk.inj hend
  rw [List.length_append] at hstop'
  exact List.length_eq_zero_iff.mp (by omega)

/-- What a payload's binary form is read as, by its role byte. -/
theorem decodePayload_record {role : UInt8} {daemonId frontendId : String} {expiresAt : ℕ}
    (hdaemon : (utf8 daemonId).length < 4294967296)
    (hfrontend : (utf8 frontendId).length < 4294967296) (hexpiry : expiresAt < timeBound) :
    decodePayload ([version, role] ++ writeLpString daemonId ++ writeLpString frontendId ++
        toBeBytes64 expiresAt) =
      if role = roleDaemon then some (.daemon daemonId expiresAt)
      else if role = roleFrontend then some (.frontend daemonId frontendId expiresAt)
      else none := by
  have hfirst : readLpString ([version, role] ++ writeLpString daemonId ++
      writeLpString frontendId ++ toBeBytes64 expiresAt) 2 =
      some (daemonId, 2 + (writeLpString daemonId).length) := by
    rw [List.append_assoc, List.append_assoc]
    exact readLpString_writeLpString hdaemon
  have hcur : ([version, role] ++ writeLpString daemonId).length =
      2 + (writeLpString daemonId).length := List.length_append
  have hsecond : readLpString ([version, role] ++ writeLpString daemonId ++
      writeLpString frontendId ++ toBeBytes64 expiresAt) (2 + (writeLpString daemonId).length) =
      some (frontendId,
        2 + (writeLpString daemonId).length + (writeLpString frontendId).length) := by
    rw [List.append_assoc, ← hcur]
    exact readLpString_writeLpString hfrontend
  have hstop : ([version, role] ++ writeLpString daemonId ++ writeLpString frontendId).length =
      2 + (writeLpString daemonId).length + (writeLpString frontendId).length := by
    rw [List.length_append, hcur]
  have htime : (([version, role] ++ writeLpString daemonId ++ writeLpString frontendId ++
      toBeBytes64 expiresAt).drop
        (2 + (writeLpString daemonId).length + (writeLpString frontendId).length)).take 8 =
      toBeBytes64 expiresAt := by
    rw [List.drop_left' hstop]
    exact List.take_of_length_le (le_refl 8)
  have hlength : ([version, role] ++ writeLpString daemonId ++ writeLpString frontendId ++
      toBeBytes64 expiresAt).length =
      2 + (writeLpString daemonId).length + (writeLpString frontendId).length + 8 := by
    rw [List.length_append, hstop]
    rfl
  have hversion : ([version, role] ++ writeLpString daemonId ++ writeLpString frontendId ++
      toBeBytes64 expiresAt)[0]? = some version := rfl
  have hrole : ([version, role] ++ writeLpString daemonId ++ writeLpString frontendId ++
      toBeBytes64 expiresAt)[1]? = some role := rfl
  unfold decodePayload
  simp only [Option.bind_eq_bind, hversion, hrole, hfirst, hsecond, Option.bind_some, hlength,
    htime, fromBeBytes64_toBeBytes64 hexpiry]
  rw [if_neg (not_not.mpr rfl), if_neg (not_not.mpr rfl)]

/-- A payload survives its binary form. -/
theorem decodePayload_encodePayload (hids : IdsFit payload)
    (hexpiry : payload.expiresAt < timeBound) :
    decodePayload (encodePayload payload) = some payload := by
  cases payload with
  | daemon daemonId expiresAt => exact decodePayload_record hids (by decide) hexpiry
  | frontend daemonId frontendId expiresAt =>
    exact decodePayload_record hids.1 hids.2 hexpiry

/-- A binary form starts with its version. -/
theorem encodePayload_ne_nil (payload : ResumePayload) : encodePayload payload ≠ [] := by
  cases payload with
  | daemon daemonId expiresAt => exact List.cons_ne_nil _ _
  | frontend daemonId frontendId expiresAt => exact List.cons_ne_nil _ _

/-- Another expiry leaves the ids alone. -/
theorem idsFit_withExpiry {expiresAt : ℕ} (h : IdsFit payload) :
    IdsFit (withExpiry expiresAt payload) := by
  cases payload with
  | daemon daemonId old => exact h
  | frontend daemonId frontendId old => exact h

@[simp] theorem daemonId_withExpiry (expiresAt : ℕ) (payload : ResumePayload) :
    (withExpiry expiresAt payload).daemonId = payload.daemonId := by
  cases payload with
  | daemon daemonId old => rfl
  | frontend daemonId frontendId old => rfl

@[simp] theorem frontendNamed_withExpiry (expiresAt : ℕ) (payload : ResumePayload) :
    frontendNamed (withExpiry expiresAt payload) = frontendNamed payload := by
  cases payload with
  | daemon daemonId old => rfl
  | frontend daemonId frontendId old => rfl

/-- A signer verifies the text it made of some bytes as what these bytes decode to,
if that has not expired and names its sender. -/
theorem ResumeTokenSigner.verify_of_decodePayload (signer : ResumeTokenSigner) {body : Bytes}
    (hbody : body ≠ []) (h : decodePayload body = some payload) (laterMs : ℕ) :
    signer.verify (String.ofList (signer.base64.encode body ++
        '.' :: signer.base64.encode (signer.keyedHash body))) laterMs =
      if laterMs < payload.expiresAt ∧ payload.daemonId ≠ "" ∧ frontendNamed payload then
        some payload
      else none := by
  have hsplit : splitToken (String.ofList (signer.base64.encode body ++
      '.' :: signer.base64.encode (signer.keyedHash body))) =
      some (signer.base64.encode body, signer.base64.encode (signer.keyedHash body)) := by
    rw [splitToken_of_dot (signer.base64.dot_notMem _), if_neg (signer.base64.encode_ne_nil hbody)]
  unfold ResumeTokenSigner.verify
  rw [hsplit]
  simp only [Option.bind_eq_bind, Option.bind_some, signer.base64.decode_encode, h]
  rw [if_neg (not_not.mpr rfl), if_neg (not_not.mpr rfl)]
  by_cases hexpired : payload.expiresAt ≤ laterMs
  · rw [if_pos hexpired, if_neg fun hall => absurd hall.1 (Nat.not_lt_of_le hexpired)]
  · rw [if_neg hexpired]
    by_cases hempty : payload.daemonId = ""
    · rw [if_pos hempty, if_neg fun hall => hall.2.1 hempty]
    · rw [if_neg hempty]
      have hlater : laterMs < payload.expiresAt := Nat.lt_of_not_le hexpired
      cases payload with
      | daemon daemonId expiresAt => rw [if_pos ⟨hlater, hempty, rfl⟩]
      | frontend daemonId frontendId expiresAt =>
        by_cases hfrontend : frontendId = ""
        · subst hfrontend
          have hunnamed : frontendNamed (.frontend daemonId "" expiresAt) = false := rfl
          rw [if_neg fun hall => absurd (hunnamed.symm.trans hall.2.2) (by decide)]
          rfl
        · rw [if_pos ⟨hlater, hempty, decide_eq_true hfrontend⟩]
          split
          · next hname =>
            cases hname
            exact absurd rfl hfrontend
          · rfl

/-- An issued token ends with the expiry that is reported for it, and that is a
64-bit number. -/
theorem ResumeTokenSigner.issue_expiry_lt (signer : ResumeTokenSigner) (payload : ResumePayload)
    (nowMs : ℕ) {expiresAtOverride : Option ℕ} (h : ∀ t ∈ expiresAtOverride, t < timeBound) :
    (signer.issue payload nowMs expiresAtOverride).2 < timeBound := by
  cases expiresAtOverride with
  | none => exact Nat.mod_lt _ (by decide)
  | some t => exact h t rfl

/-- Issued tokens verify as what was issued, exactly while they last and name
their sender; binary forms are read back, and what was cut off or added to is
not read. -/
theorem ResumeTokenSigner.token_codec (signer : ResumeTokenSigner) :
    (∀ payload nowMs expiresAtOverride laterMs, IdsFit payload →
      (∀ t ∈ expiresAtOverride, t < timeBound) →
        signer.verify (signer.issue payload nowMs expiresAtOverride).1 laterMs =
          if laterMs < (signer.issue payload nowMs expiresAtOverride).2 ∧
              payload.daemonId ≠ "" ∧ frontendNamed payload then
            some (withExpiry (signer.issue payload nowMs expiresAtOverride).2 payload)
          else none) ∧
      ∀ payload, IdsFit payload → payload.expiresAt < timeBound →
        decodePayload (encodePayload payload) = some payload ∧
          (∀ front, front <+: encodePayload payload → front ≠ encodePayload payload →
            decodePayload front = none) ∧
          ∀ back, back ≠ [] → decodePayload (encodePayload payload ++ back) = none := by
  constructor
  · intro payload nowMs expiresAtOverride laterMs hids htime
    have hexpiry := signer.issue_expiry_lt payload nowMs htime
    obtain ⟨expiresAt, hissued⟩ :
        ∃ expiresAt, (signer.issue payload nowMs expiresAtOverride).2 = expiresAt := ⟨_, rfl⟩
    have htoken : (signer.issue payload nowMs expiresAtOverride).1 =
        String.ofList (signer.base64.encode (encodePayload (withExpiry expiresAt payload)) ++ '.' ::
          signer.base64.encode (signer.keyedHash (encodePayload (withExpiry expiresAt payload)))) := by
      rw [← hissued]
      rfl
    rw [hissued] at hexpiry ⊢
    have hdecoded : decodePayload (encodePayload (withExpiry expiresAt payload)) =
        some (withExpiry expiresAt payload) :=
      decodePayload_encodePayload (idsFit_withExpiry hids)
        (by rw [expiresAt_withExpiry]; exact hexpiry)
    rw [htoken, signer.verify_of_decodePayload (encodePayload_ne_nil _) hdecoded,
      expiresAt_withExpiry, daemonId_withExpiry, frontendNamed_withExpiry]
  · intro payload hids hexpiry
    have hdecoded := decodePayload_encodePayload hids hexpiry
    have haccepted : (decodePayload (encodePayload payload)).isSome :=
      Option.isSome_iff_exists.mpr ⟨payload, hdecoded⟩
    exact ⟨hdecoded,
      fun _ hfront hne => prefixFreeDomain_decodePayload.eq_none_of_prefix haccepted hfront hne,
      fun _ hback => prefixFreeDomain_decodePayload.append_eq_none haccepted hback⟩

/-- The keyed hash under a key of 32 times the letter s, where it is needed: the
token of frontend f of daemon d that expires at time 5000. -/
def frontendTokenHash (body : Bytes) : Bytes :=
  if body = [2, 1, 0, 0, 0, 1, 100, 0, 0, 0, 1, 102, 0, 0, 0, 0, 0, 0, 19, 136] then
    [37, 129, 65, 168, 155, 47, 52, 15, 83, 148, 10, 134, 65, 80, 147, 153, 63, 250, 202, 10, 149,
      31, 203, 24, 188, 135, 1, 111, 158, 46, 105, 90]
  else List.replicate 32 0

/-- A signer with that hash and the default lifetime. -/
def frontendTokenSigner : ResumeTokenSigner := ⟨urlSafe, frontendTokenHash, defaultTtlMs⟩

/-- A token that expires at 5000 is good at 4999 and not at 5000; its payload is
read back, but not without its last byte and not with one more. -/
theorem ResumeTokenSigner.token_codec_frontend :
    let token := (frontendTokenSigner.issue (.frontend "d" "f" 0) 1000 (some 5000)).1
    let body := encodePayload (.frontend "d" "f" 5000)
    frontendTokenSigner.verify token 4999 = some (.frontend "d" "f" 5000) ∧
      frontendTokenSigner.verify token 5000 = none ∧
      decodePayload body = some (.frontend "d" "f" 5000) ∧
      decodePayload (body.take 19) = none ∧ decodePayload (body ++ [0]) = none := by
  intro token body
  have hids : ∀ expiresAt, IdsFit (.frontend "d" "f" expiresAt) := fun _ =>
    ⟨by decide, by decide⟩
  have hverify := fun laterMs => frontendTokenSigner.token_codec.1 (.frontend "d" "f" 0) 1000 (some 5000)
    laterMs (hids 0) fun t ht => Option.some.inj ht ▸ (by decide : 5000 < timeBound)
  obtain ⟨hdecoded, hhead, hlonger⟩ := frontendTokenSigner.token_codec.2 (.frontend "d" "f" 5000)
    (hids 5000) (by decide)
  exact ⟨hverify 4999, hverify 5000, hdecoded, hhead _ (List.take_prefix 19 body) (by decide),
    hlonger [0] (by decide)⟩

end Codec

end Teleprompter.ResumeTokens
