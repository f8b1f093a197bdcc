import Teleprompter.ByteReaders
import Teleprompter.FrameChunks

/-!
# The blocking frame reader of the command line

The command line reads its frames with exact reads from a blocking stream
and drops the sidecar. A first read of one byte tells a stream that was
closed between two frames from one that broke off within a frame. Over every
stream it returns the JSON payloads that the incremental decoder returns, and
the way it ends tells how the decoder ends.
-/

namespace Teleprompter.FrameCodec

open FramedStreams StreamCuts ByteReaders

/-- The errors of the blocking reader. -/
inductive IoError where
  /-- A header declared more than the largest frame size. -/
  | invalidData (message : String)
  /-- The stream ended within a frame. -/
  | unexpectedEof
  deriving DecidableEq

section Reading

variable {σ : Type}

/-- One frame by exact reads; the sidecar is read and dropped. -/
def readFrame (R : Reader σ UInt8) (reader : σ) : Except IoError Bytes × σ :=
  match R.readExact reader headerSize with
  | (none, reader) => (.error .unexpectedEof, reader)
  | (some header, reader) =>
    let jsonLen := fromBeBytes (slice header 0 4)
    let binLen := fromBeBytes (slice header 4 8)
    if maxFrameSize < jsonLen + binLen then
      (.error (.invalidData (tooLarge (jsonLen + binLen))), reader)
    else match R.readExact reader jsonLen with
      | (none, reader) => (.error .unexpectedEof, reader)
      | (some json, reader) =>
        if 0 < binLen then
          match R.readExact reader binLen with
          | (none, reader) => (.error .unexpectedEof, reader)
          | (some _, reader) => (.ok json, reader)
        else (.ok json, reader)

/-- One frame, or none when the stream has ended before its first byte. -/
def readFrameEofAware (R : Reader σ UInt8) (reader : σ) : Except IoError (Option Bytes) × σ :=
  match R.read reader 1 with
  | ([], reader) => (.ok none, reader)
  | (first, reader) =>
    match readFrame (chain R) ⟨first, false, reader⟩ with
    | (.error e, chained) => (.error e, chained.second)
    | (.ok json, chained) => (.ok (some json), chained.second)

variable {R : Reader σ UInt8} {reader : σ}

/-- A stream that ends within the header is an unexpected end. -/
theorem readFrame_of_short_header (h : (R.remaining reader).length < headerSize) :
    (readFrame R reader).1 = .error .unexpectedEof := by
  obtain ⟨s, hread⟩ := R.exists_readExact_eq_none h
  rw [readFrame, hread]

/-- With a whole header, the reads behind it depend on the declared lengths. -/
theorem readFrame_of_header (h : headerSize ≤ (R.remaining reader).length) :
    ∃ s, R.remaining s = (R.remaining reader).drop headerSize ∧ readFrame R reader =
      if Oversized (R.remaining reader) then
        (.error (.invalidData (tooLarge (declaredJsonLen (R.remaining reader) +
          declaredBinLen (R.remaining reader)))), s)
      else match R.readExact s (declaredJsonLen (R.remaining reader)) with
        | (none, s) => (.error .unexpectedEof, s)
        | (some json, s) =>
          if 0 < declaredBinLen (R.remaining reader) then
            match R.readExact s (declaredBinLen (R.remaining reader)) with
            | (none, s) => (.error .unexpectedEof, s)
            | (some _, s) => (.ok json, s)
          else (.ok json, s) := by
  obtain ⟨s, hread, hrest⟩ := R.exists_readExact_eq_some h
  have hheader : headerSize ≤ ((R.remaining reader).take headerSize).length := by
    rw [List.length_take]
    omega
  have hsplit := List.take_append_drop headerSize (R.remaining reader)
  have hjson : fromBeBytes (slice ((R.remaining reader).take headerSize) 0 4) =
      declaredJsonLen (R.remaining reader) := by
    rw [← hsplit, declaredJsonLen_append _ hheader, hsplit, declaredJsonLen]
  have hbin : fromBeBytes (slice ((R.remaining reader).take headerSize) 4 8) =
      declaredBinLen (R.remaining reader) := by
    rw [← hsplit, declaredBinLen_append _ hheader, hsplit, declaredBinLen]
  have hlarge : (maxFrameSize < declaredJsonLen (R.remaining reader) +
      declaredBinLen (R.remaining reader)) ↔ Oversized (R.remaining reader) :=
    ⟨fun hlt => ⟨h, hlt⟩, And.right⟩
  refine ⟨s, hrest, ?_⟩
  rw [readFrame, hread]
  simp only [hjson, hbin, hlarge]

/-- A whole frame is read, and the stream goes on behind it. -/
theorem readFrame_of_whole {frame : DecodedFrame} {rest : Bytes}
    (h : firstFrame (R.remaining reader) = some (frame, rest)) :
    (readFrame R reader).1 = .ok frame.json ∧ R.remaining (readFrame R reader).2 = rest := by
  obtain ⟨⟨hheader, hsmall, hwhole⟩, hframe, hrest⟩ := firstFrame_eq_some_iff.mp h
  obtain ⟨s, hs, heq⟩ := readFrame_of_header hheader
  have hlength : (R.remaining s).length = (R.remaining reader).length - headerSize := by
    rw [hs, List.length_drop]
  rw [declaredLen] at hwhole hrest
  obtain ⟨t, hjson, ht⟩ := R.exists_readExact_eq_some
    (s := s) (n := declaredJsonLen (R.remaining reader)) (by omega)
  have hvalue : (R.remaining s).take (declaredJsonLen (R.remaining reader)) = frame.json := by
    rw [hs, hframe]
    simp only [declaredFrame, slice, headerSize, Nat.add_sub_cancel_left]
  have hleft : R.remaining t = (R.remaining reader).drop
      (headerSize + declaredJsonLen (R.remaining reader)) := by
    rw [ht, hs, List.drop_drop]
  rw [heq, if_neg hsmall, hjson]
  dsimp only
  rw [hvalue]
  split
  · obtain ⟨u, hbin, hu⟩ := R.exists_readExact_eq_some
      (s := t) (n := declaredBinLen (R.remaining reader)) (by
        rw [hleft, List.length_drop]
        omega)
    rw [hbin]
    dsimp only
    rw [hu, hleft, List.drop_drop, hrest]
    exact ⟨rfl, rfl⟩
  · rename_i hzero
    rw [Nat.le_zero.mp (Nat.not_lt.mp hzero), Nat.add_zero] at hrest
    exact ⟨rfl, hleft.trans hrest.symm⟩

/-- Without a whole frame, a header that is too large is told from an end
within the frame. -/
theorem readFrame_of_part (h : firstFrame (R.remaining reader) = none) :
    (readFrame R reader).1 =
      if Oversized (R.remaining reader) then
        .error (.invalidData (tooLarge (declaredJsonLen (R.remaining reader) +
          declaredBinLen (R.remaining reader))))
      else .error .unexpectedEof := by
  rcases Nat.lt_or_ge (R.remaining reader).length headerSize with hshort | hheader
  · rw [readFrame_of_short_header hshort, if_neg fun hlarge => Nat.not_le.mpr hshort hlarge.1]
  · obtain ⟨s, hs, heq⟩ := readFrame_of_header hheader
    rw [heq]
    by_cases hlarge : Oversized (R.remaining reader)
    · rw [if_pos hlarge, if_pos hlarge]
    · rw [if_neg hlarge, if_neg hlarge]
      have hpart : (R.remaining reader).length < declaredLen (R.remaining reader) := by
        refine Nat.not_le.mp fun hwhole => ?_
        rw [firstFrame, if_pos ⟨hheader, hlarge, hwhole⟩] at h
        cases h
      rw [declaredLen] at hpart
      have hlength : (R.remaining s).length = (R.remaining reader).length - headerSize := by
        rw [hs, List.length_drop]
      rcases Nat.lt_or_ge (R.remaining s).length (declaredJsonLen (R.remaining reader)) with
        hjson | hjson
      · obtain ⟨t, hread⟩ := R.exists_readExact_eq_none hjson
        rw [hread]
      · obtain ⟨t, hread, ht⟩ := R.exists_readExact_eq_some hjson
        have hleft : (R.remaining t).length < declaredBinLen (R.remaining reader) := by
          rw [ht, List.length_drop]
          omega
        obtain ⟨u, hbin⟩ := R.exists_readExact_eq_none hleft
        rw [hread]
        dsimp only
        rw [if_pos (by omega), hbin]

/-- What every call keeps, reading a frame keeps. -/
theorem readFrame_preserves {P : σ → Prop} (hread : ∀ s n, P s → P (R.read s n).2)
    (h : P reader) : P (readFrame R reader).2 := by
  have hexact : ∀ s n, P s → P (R.readExact s n).2 := fun s n hs =>
    R.readExact_preserves hread n hs
  have hheader := hexact reader headerSize h
  rw [readFrame]
  cases hfirst : R.readExact reader headerSize with
  | mk header s =>
    rw [hfirst] at hheader
    cases header with
    | none => exact hheader
    | some header =>
      dsimp only
      split
      · exact hheader
      · have hbody := hexact s (fromBeBytes (slice header 0 4)) hheader
        cases hjson : R.readExact s (fromBeBytes (slice header 0 4)) with
        | mk json t =>
          rw [hjson] at hbody
          cases json with
          | none => exact hbody
          | some json =>
            dsimp only
            split
            · have hlast := hexact t (fromBeBytes (slice header 4 8)) hbody
              cases hbin : R.readExact t (fromBeBytes (slice header 4 8)) with
              | mk sidecar u =>
                rw [hbin] at hlast
                cases sidecar <;> exact hlast
            · exact hbody

/-- A stream that has ended gives none. -/
theorem readFrameEofAware_of_nil (h : R.remaining reader = []) :
    (readFrameEofAware R reader).1 = .ok none := by
  have happend := R.read_append reader 1
  rw [h] at happend
  have hempty := (List.append_eq_nil_iff.mp happend).1
  rw [readFrameEofAware]
  cases hread : R.read reader 1 with
  | mk first s =>
    rw [hread] at hempty
    dsimp only at hempty
    rw [hempty]

/-- The first byte is put back, and the frame is read as from the start. -/
theorem readFrameEofAware_of_ne_nil (h : R.remaining reader ≠ []) :
    ∃ chained : Chained σ UInt8, (chain R).remaining chained = R.remaining reader ∧
      Untouched chained.second chained ∧
      (R.remaining reader).length ≤ (R.remaining chained.second).length + 1 ∧
      readFrameEofAware R reader =
        ((readFrame (chain R) chained).1.map some, (readFrame (chain R) chained).2.second) := by
  have hgot := R.read_ne_nil reader 1 Nat.one_pos h
  have hle := R.read_length_le reader 1
  have happend := R.read_append reader 1
  rw [readFrameEofAware]
  cases hread : R.read reader 1 with
  | mk first s =>
    rw [hread] at hgot hle happend
    dsimp only at hgot hle happend
    have hlength := congrArg List.length happend
    rw [List.length_append] at hlength
    refine ⟨⟨first, false, s⟩, happend, fun _ _ => rfl, ?_, ?_⟩
    · dsimp only
      omega
    · obtain ⟨byte, bytes, rfl⟩ := List.exists_cons_of_ne_nil hgot
      dsimp only
      cases readFrame (chain R) ⟨byte :: bytes, false, s⟩ with
      | mk result chained => cases result <;> rfl

/-- A whole frame is returned, and the stream goes on behind it. -/
theorem readFrameEofAware_of_whole {frame : DecodedFrame} {rest : Bytes}
    (h : firstFrame (R.remaining reader) = some (frame, rest)) :
    (readFrameEofAware R reader).1 = .ok (some frame.json) ∧
      R.remaining (readFrameEofAware R reader).2 = rest := by
  have hshort := frameCutter.shrinks h
  have hthere : R.remaining reader ≠ [] := fun hnil => by
    rw [hnil, List.length_nil] at hshort
    omega
  obtain ⟨chained, hchained, huntouched, hupto, heq⟩ := readFrameEofAware_of_ne_nil hthere
  rw [← hchained] at h
  obtain ⟨hjson, hrest⟩ := readFrame_of_whole h
  have hkept := readFrame_preserves (R := chain R)
    (fun s n hs => untouched_chainRead R s n hs) huntouched
  have hsecond : R.remaining (readFrame (chain R) chained).2.second =
      (chain R).remaining (readFrame (chain R) chained).2 := by
    refine hkept.remaining_second ?_
    change ((chain R).remaining (readFrame (chain R) chained).2).length ≤ _
    rw [hrest]
    omega
  rw [heq, hjson]
  exact ⟨rfl, hsecond.trans hrest⟩

/-- Bytes without a whole frame are an error. -/
theorem readFrameEofAware_of_part (hthere : R.remaining reader ≠ [])
    (h : firstFrame (R.remaining reader) = none) :
    (readFrameEofAware R reader).1 =
      if Oversized (R.remaining reader) then
        .error (.invalidData (tooLarge (declaredJsonLen (R.remaining reader) +
          declaredBinLen (R.remaining reader))))
      else .error .unexpectedEof := by
  obtain ⟨chained, hchained, -, -, heq⟩ := readFrameEofAware_of_ne_nil hthere
  rw [← hchained] at h
  have hpart := readFrame_of_part h
  rw [hchained] at hpart
  rw [heq, hpart]
  split <;> rfl

/-- A frame that was returned has left the stream. -/
theorem readFrameEofAware_shrinks {json : Bytes} {s : σ}
    (h : readFrameEofAware R reader = (.ok (some json), s)) :
    (R.remaining s).length < (R.remaining reader).length := by
  by_cases hthere : R.remaining reader = []
  · have hnone := readFrameEofAware_of_nil hthere
    rw [h] at hnone
    cases hnone
  · cases hfirst : firstFrame (R.remaining reader) with
    | none =>
      have hpart := readFrameEofAware_of_part hthere hfirst
      rw [h] at hpart
      split at hpart <;> cases hpart
    | some first =>
      have hrest := (readFrameEofAware_of_whole hfirst).2
      rw [h] at hrest
      rw [hrest]
      exact frameCutter.shrinks hfirst

/-- The payloads of repeated calls, and the first answer that is not a
payload: no error is the clean end of the stream. -/
def readAll (R : Reader σ UInt8) (reader : σ) : List Bytes × Except IoError Unit :=
  match h : readFrameEofAware R reader with
  | (.ok none, _) => ([], .ok ())
  | (.error e, _) => ([], .error e)
  | (.ok (some json), next) =>
    have := readFrameEofAware_shrinks h
    (json :: (readAll R next).1, (readAll R next).2)
termination_by (R.remaining reader).length

/-- The loop by the outcome of its first read. -/
theorem readAll_cases : readAll R reader =
    match (readFrameEofAware R reader).1 with
    | .ok none => ([], .ok ())
    | .error e => ([], .error e)
    | .ok (some json) => (json :: (readAll R (readFrameEofAware R reader).2).1,
        (readAll R (readFrameEofAware R reader).2).2) := by
  rw [readAll]
  split
  · next heq => rw [heq]
  · next heq => rw [heq]
  · next heq =>
    dsimp only
    rw [heq]

theorem readAll_of_ok_none (h : (readFrameEofAware R reader).1 = .ok none) :
    readAll R reader = ([], .ok ()) := by
  rw [readAll_cases, h]

theorem readAll_of_error {e : IoError} (h : (readFrameEofAware R reader).1 = .error e) :
    readAll R reader = ([], .error e) := by
  rw [readAll_cases, h]

theorem readAll_of_ok_some {json : Bytes}
    (h : (readFrameEofAware R reader).1 = .ok (some json)) :
    readAll R reader = (json :: (readAll R (readFrameEofAware R reader).2).1,
      (readAll R (readFrameEofAware R reader).2).2) := by
  rw [readAll_cases, h]

/-- How the reader ends on a tail that holds no whole frame. -/
def readEnd (tail : Bytes) : Except IoError Unit :=
  if Oversized tail then
    .error (.invalidData (tooLarge (declaredJsonLen tail + declaredBinLen tail)))
  else if tail = [] then .ok ()
  else .error .unexpectedEof

/-- The reader returns the payloads of the whole frames and ends on the tail,
whatever the lengths of the reads. -/
theorem readAll_eq (R : Reader σ UInt8) (reader : σ) :
    readAll R reader = ((framesOf (R.remaining reader)).map DecodedFrame.json,
      readEnd (tailOf (R.remaining reader))) := by
  induction hbytes : R.remaining reader using Cutter.cut_induction (c := frameCutter)
    generalizing reader with
  | stuck bytes h =>
    subst hbytes
    rw [framesOf, tailOf, Cutter.items_of_none h, Cutter.remainder_of_none h, List.map_nil]
    by_cases hthere : R.remaining reader = []
    · rw [readAll_of_ok_none (readFrameEofAware_of_nil hthere), hthere]
      rfl
    · have hpart := readFrameEofAware_of_part hthere h
      rw [readEnd, if_neg hthere]
      split
      · rename_i hlarge
        rw [if_pos hlarge] at hpart
        exact readAll_of_error hpart
      · rename_i hsmall
        rw [if_neg hsmall] at hpart
        exact readAll_of_error hpart
  | more bytes frame rest h ih =>
    subst hbytes
    obtain ⟨hjson, hrest⟩ := readFrameEofAware_of_whole h
    have hframes : framesOf (R.remaining reader) = frame :: framesOf rest :=
      Cutter.items_of_some h
    have htail : tailOf (R.remaining reader) = tailOf rest := Cutter.remainder_of_some h
    rw [readAll_of_ok_some hjson, ih _ hrest, hframes, htail, List.map_cons]

end Reading

section Agreement

/-- A stream as chunks of one byte. -/
def singleBytes (stream : Bytes) : List Bytes := stream.map fun byte => [byte]

theorem singleBytes_flatten (stream : Bytes) : (singleBytes stream).flatten = stream := by
  induction stream with
  | nil => rfl
  | cons byte stream ih =>
    rw [singleBytes, List.map_cons, List.flatten_cons, ← singleBytes, ih, List.singleton_append]

/-- Bytes that come one by one are cut everywhere. -/
theorem splitsBeforeOversized_singleBytes (stream : Bytes) :
    SplitsBeforeOversized (singleBytes stream) := by
  intro _
  have hlength : (singleBytes stream).length = stream.length := List.length_map _
  have hle : framesLen stream ≤ stream.length := Nat.sub_le _ _
  have htake : ((singleBytes stream).take (framesLen stream)).flatten.length =
      framesLen stream := by
    rw [singleBytes, ← List.map_take, ← singleBytes, singleBytes_flatten, List.length_take,
      Nat.min_eq_left hle]
  rw [singleBytes_flatten]
  refine ⟨framesLen stream, by omega, by omega, ?_⟩
  rw [htake, headerSize]
  omega

/-- The frames of all answers that are not errors. -/
def handedOut (answers : List (Except TpError (List DecodedFrame))) : List DecodedFrame :=
  answers.flatMap fun answer => match answer with
    | .ok frames => frames
    | .error _ => []

/-- After its first error a decoder hands out nothing. -/
theorem handedOut_of_oversized {buf : Bytes} (h : Oversized (tailOf buf)) (chunks : List Bytes) :
    handedOut (feedAll FrameDecoder.decode ⟨buf⟩ chunks).1 = [] := by
  induction chunks generalizing buf with
  | nil => rfl
  | cons chunk chunks ih =>
    obtain ⟨⟨e, he⟩, hbuf⟩ := decode_of_oversized h chunk
    rw [feedAll, he, hbuf, handedOut, List.flatMap_cons, List.nil_append]
    exact ih (h.tailOf_append chunk)

/-- So all frames are handed out before the first error. -/
theorem handedOut_eq_deliveredBefore (seen : Bytes) (chunks : List Bytes) :
    handedOut (feedAll FrameDecoder.decode ⟨tailOf seen⟩ chunks).1 =
      deliveredBefore (feedAll FrameDecoder.decode ⟨tailOf seen⟩ chunks).1 := by
  induction chunks generalizing seen with
  | nil => rfl
  | cons chunk chunks ih =>
    by_cases hlarge : Oversized (tailOf (seen ++ chunk))
    · rw [tailOf_append] at hlarge
      have hrest := handedOut_of_oversized hlarge chunks
      rw [feedAll, decode_eq, if_pos hlarge]
      exact hrest
    · rw [feedAll, decode_tailOf hlarge]
      exact congrArg (framesOf (tailOf seen ++ chunk) ++ ·) (ih (seen ++ chunk))

/-- Without an error the decoder keeps the tail. -/
theorem feedAll_buf (seen : Bytes) (chunks : List Bytes)
    (h : ¬Oversized (tailOf (seen ++ chunks.flatten))) :
    (feedAll FrameDecoder.decode ⟨tailOf seen⟩ chunks).2.buf =
      tailOf (seen ++ chunks.flatten) := by
  induction chunks generalizing seen with
  | nil => rw [feedAll, List.flatten_nil, List.append_nil]
  | cons chunk chunks ih =>
    rw [List.flatten_cons, ← List.append_assoc] at h ⊢
    have hnow : ¬Oversized (tailOf (seen ++ chunk)) := fun hlarge =>
      h (hlarge.tailOf_append _)
    rw [feedAll, decode_tailOf hnow]
    exact ih (seen ++ chunk) h

/-- Over every stream and every way of reading it, the blocking reader returns
the payloads of the decoder that gets the bytes one by one. It ends cleanly
when the decoder ends without error and holds nothing, with invalid data when
the decoder reports an error, and with an unexpected end when the decoder
ends without error and holds a part of a frame. -/
theorem readAll_agrees_with_decode {σ : Type} (R : Reader σ UInt8) (reader : σ) :
    let decoded := feedAll FrameDecoder.decode .new (singleBytes (R.remaining reader))
    (readAll R reader).1 = (handedOut decoded.1).map DecodedFrame.json ∧
    ((readAll R reader).2 = .ok () ↔
      (¬∃ e, Except.error e ∈ decoded.1) ∧ decoded.2.buf = []) ∧
    ((∃ message, (readAll R reader).2 = .error (.invalidData message)) ↔
      ∃ e, Except.error e ∈ decoded.1) ∧
    ((readAll R reader).2 = .error .unexpectedEof ↔
      (¬∃ e, Except.error e ∈ decoded.1) ∧ decoded.2.buf ≠ []) := by
  intro decoded
  have herror : (∃ e, Except.error e ∈ decoded.1) ↔ Oversized (tailOf (R.remaining reader)) := by
    have hreported := reported_iff (singleBytes (R.remaining reader))
    rwa [singleBytes_flatten] at hreported
  have hframes : handedOut decoded.1 = framesOf (R.remaining reader) := by
    have hall := (delivered_eq_iff _).mpr
      (splitsBeforeOversized_singleBytes (R.remaining reader))
    have hsame := handedOut_eq_deliveredBefore [] (singleBytes (R.remaining reader))
    rw [singleBytes_flatten] at hall
    rw [tailOf_nil] at hsame
    exact hsame.trans hall
  have hbuf : ¬Oversized (tailOf (R.remaining reader)) →
      decoded.2.buf = tailOf (R.remaining reader) := by
    intro hsmall
    have hkept := feedAll_buf [] (singleBytes (R.remaining reader)) (by
      rwa [singleBytes_flatten, List.nil_append])
    rwa [tailOf_nil, List.nil_append, singleBytes_flatten] at hkept
  rw [herror, hframes, readAll_eq, readEnd]
  refine ⟨rfl, ?_⟩
  by_cases hlarge : Oversized (tailOf (R.remaining reader))
  · simp [hlarge]
  · rw [if_neg hlarge, hbuf hlarge]
    by_cases hempty : tailOf (R.remaining reader) = []
    · rw [hempty] at hlarge ⊢
      simp [hlarge]
    · simp [hlarge, hempty]

/-- A frame and one more byte, read byte by byte: the stream ends within the
second frame. -/
theorem readAll_agrees_truncated :
    (readAll (shortReader fun _ => 1) ⟨objectFrame ++ [0], 0⟩).2 = .error .unexpectedEof := by
  have htail : tailOf (objectFrame ++ [0]) = [0] := by
    have hfirst : frameCutter.cut (objectFrame ++ [0]) = some (⟨[123, 125], none⟩, [0]) := by
      decide
    have hstuck : frameCutter.cut [0] = none := by decide
    rw [tailOf, Cutter.remainder_of_some hfirst, Cutter.remainder_of_none hstuck]
  have hsmall : ¬Oversized (tailOf (objectFrame ++ [0])) := by
    rw [htail]
    decide
  refine (readAll_agrees_with_decode (shortReader fun _ => 1)
    ⟨objectFrame ++ [0], 0⟩).2.2.2.mpr ⟨?_, ?_⟩
  · intro herror
    have hreported := (reported_iff (singleBytes (objectFrame ++ [0]))).mp herror
    rw [singleBytes_flatten] at hreported
    exact hsmall hreported
  · have hkept := feedAll_buf [] (singleBytes (objectFrame ++ [0])) (by
      rwa [singleBytes_flatten, List.nil_append])
    rw [tailOf_nil, List.nil_append, singleBytes_flatten, htail] at hkept
    intro hnil
    have hsame := hkept.symm.trans hnil
    cases hsame

end Agreement

end Teleprompter.FrameCodec
