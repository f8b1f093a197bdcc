import Teleprompter.FrameCodec
import Teleprompter.StreamCuts

/-!
# The frame decoder on arbitrary bytes

Every byte string is a list of whole frames and a tail that holds none: a
part of a frame, or a header that declares more than the largest size. The
decoder reports the second kind, and with the report it drops the frames that
the same call had found. So the frames handed out before the first error
depend on where the bytes were cut.
-/

namespace Teleprompter.FrameCodec

open FramedStreams StreamCuts

section Cutting

/-- The JSON length that the front of the bytes declares. -/
def declaredJsonLen (bytes : Bytes) : ℕ := fromBeBytes (slice bytes 0 4)

/-- The sidecar length that the front of the bytes declares. -/
def declaredBinLen (bytes : Bytes) : ℕ := fromBeBytes (slice bytes 4 8)

/-- Bytes that start with a header of a frame that is too large. -/
def Oversized (bytes : Bytes) : Prop :=
  headerSize ≤ bytes.length ∧ maxFrameSize < declaredJsonLen bytes + declaredBinLen bytes

instance : DecidablePred Oversized := fun _ => inferInstanceAs (Decidable (_ ∧ _))

/-- The frame that the front of the bytes declares, whether it is there or
not. -/
def declaredFrame (bytes : Bytes) : DecodedFrame :=
  let jsonLen := declaredJsonLen bytes
  let binLen := declaredBinLen bytes
  ⟨slice bytes 8 (8 + jsonLen),
    if 0 < binLen then some (slice bytes (8 + jsonLen) (8 + jsonLen + binLen)) else none⟩

/-- The declared bytes of the first frame, its header among them. -/
def declaredLen (bytes : Bytes) : ℕ := headerSize + declaredJsonLen bytes + declaredBinLen bytes

/-- The first frame and the bytes behind it, when all of it is there. -/
def firstFrame (bytes : Bytes) : Option (DecodedFrame × Bytes) :=
  if headerSize ≤ bytes.length ∧ ¬Oversized bytes ∧ declaredLen bytes ≤ bytes.length then
    some (declaredFrame bytes, bytes.drop (declaredLen bytes))
  else none

/-- A slice that was there stays the same when more bytes come. -/
theorem slice_append_left {bytes : Bytes} {start stop : ℕ} (more : Bytes)
    (h : stop ≤ bytes.length) : slice (bytes ++ more) start stop = slice bytes start stop := by
  have hvisible := slice_of_visible (show bytes.drop 0 ++ more = bytes ++ more by
    rw [List.drop_zero]) start stop (by simpa using h)
  simpa using hvisible.symm

variable {bytes : Bytes}

theorem declaredJsonLen_append (more : Bytes) (h : headerSize ≤ bytes.length) :
    declaredJsonLen (bytes ++ more) = declaredJsonLen bytes := by
  rw [declaredJsonLen, slice_append_left more (Nat.le_trans (by decide) h), declaredJsonLen]

theorem declaredBinLen_append (more : Bytes) (h : headerSize ≤ bytes.length) :
    declaredBinLen (bytes ++ more) = declaredBinLen bytes := by
  have hheader : 8 ≤ bytes.length := h
  rw [declaredBinLen, slice_append_left more hheader, declaredBinLen]

theorem declaredLen_append (more : Bytes) (h : headerSize ≤ bytes.length) :
    declaredLen (bytes ++ more) = declaredLen bytes := by
  rw [declaredLen, declaredJsonLen_append more h, declaredBinLen_append more h, declaredLen]

theorem headerSize_le_declaredLen (bytes : Bytes) : headerSize ≤ declaredLen bytes := by
  rw [declaredLen]
  omega

/-- A whole header is too large or not, whatever comes behind it. -/
theorem oversized_append_iff (more : Bytes) (h : headerSize ≤ bytes.length) :
    Oversized (bytes ++ more) ↔ Oversized bytes := by
  have hlength : headerSize ≤ (bytes ++ more).length := by
    rw [List.length_append]
    omega
  rw [Oversized, Oversized, declaredJsonLen_append more h, declaredBinLen_append more h]
  exact and_congr_left' ⟨fun _ => h, fun _ => hlength⟩

theorem Oversized.append (h : Oversized bytes) (more : Bytes) : Oversized (bytes ++ more) :=
  (oversized_append_iff more h.1).mpr h

/-- Nothing is cut off a header that is too large. -/
theorem Oversized.firstFrame_eq_none (h : Oversized bytes) : firstFrame bytes = none :=
  if_neg fun hwhole => hwhole.2.1 h

/-- What a cut says about the bytes. -/
theorem firstFrame_eq_some_iff {frame : DecodedFrame} {rest : Bytes} :
    firstFrame bytes = some (frame, rest) ↔
      (headerSize ≤ bytes.length ∧ ¬Oversized bytes ∧ declaredLen bytes ≤ bytes.length) ∧
        frame = declaredFrame bytes ∧ rest = bytes.drop (declaredLen bytes) := by
  rw [firstFrame]
  split
  · rename_i hwhole
    rw [Option.some.injEq, Prod.mk.injEq]
    exact ⟨fun h => ⟨hwhole, h.1.symm, h.2.symm⟩, fun h => ⟨h.2.1.symm, h.2.2.symm⟩⟩
  · rename_i hpart
    exact ⟨fun h => absurd h (by simp), fun h => absurd h.1 hpart⟩

/-- More bytes behind a whole frame do not change it. -/
theorem declaredFrame_append (more : Bytes) (h : declaredLen bytes ≤ bytes.length) :
    declaredFrame (bytes ++ more) = declaredFrame bytes := by
  have hheader := Nat.le_trans (headerSize_le_declaredLen bytes) h
  have hlength : 8 + declaredJsonLen bytes + declaredBinLen bytes ≤ bytes.length := h
  simp only [declaredFrame, declaredJsonLen_append more hheader,
    declaredBinLen_append more hheader]
  rw [slice_append_left more (by omega), slice_append_left more hlength]

/-- A frame takes its header at least. -/
theorem firstFrame_shrinks {frame : DecodedFrame} {rest : Bytes}
    (h : firstFrame bytes = some (frame, rest)) : rest.length < bytes.length := by
  obtain ⟨⟨hheader, -, hwhole⟩, -, rfl⟩ := firstFrame_eq_some_iff.mp h
  have hpos := headerSize_le_declaredLen bytes
  rw [List.length_drop]
  simp only [headerSize] at hpos hheader
  omega

/-- Behind a frame there is an end of the bytes. -/
theorem firstFrame_within {frame : DecodedFrame} {rest : Bytes}
    (h : firstFrame bytes = some (frame, rest)) : rest <:+ bytes := by
  obtain ⟨-, -, rfl⟩ := firstFrame_eq_some_iff.mp h
  exact List.drop_suffix _ _

/-- A whole frame stays the first one when more bytes come. -/
theorem firstFrame_stable {frame : DecodedFrame} {rest : Bytes}
    (h : firstFrame bytes = some (frame, rest)) (more : Bytes) :
    firstFrame (bytes ++ more) = some (frame, rest ++ more) := by
  obtain ⟨⟨hheader, hsmall, hwhole⟩, rfl, rfl⟩ := firstFrame_eq_some_iff.mp h
  refine firstFrame_eq_some_iff.mpr ⟨⟨?_, ?_, ?_⟩, ?_, ?_⟩
  · rw [List.length_append]
    omega
  · rwa [oversized_append_iff more hheader]
  · rw [declaredLen_append more hheader, List.length_append]
    omega
  · exact (declaredFrame_append more hwhole).symm
  · rw [declaredLen_append more hheader, List.drop_append_of_le_length hwhole]

/-- A frame that ends before the later bytes was whole without them. -/
theorem firstFrame_inside {more rest : Bytes} {frame : DecodedFrame}
    (h : firstFrame (bytes ++ more) = some (frame, rest ++ more)) :
    firstFrame bytes = some (frame, rest) := by
  obtain ⟨⟨-, hsmall, hwhole⟩, hframe, hrest⟩ := firstFrame_eq_some_iff.mp h
  have hlength := congrArg List.length hrest
  rw [List.length_drop, List.length_append, List.length_append] at hlength
  have hpos := headerSize_le_declaredLen (bytes ++ more)
  rw [List.length_append] at hwhole
  have hinside : declaredLen (bytes ++ more) ≤ bytes.length := by omega
  have hheader : headerSize ≤ bytes.length := hpos.trans hinside
  have hlen := declaredLen_append more hheader
  rw [hlen] at hinside hrest
  refine firstFrame_eq_some_iff.mpr ⟨⟨hheader, ?_, hinside⟩, ?_, ?_⟩
  · rwa [oversized_append_iff more hheader] at hsmall
  · rw [hframe, declaredFrame_append more hinside]
  · rw [List.drop_append_of_le_length hinside] at hrest
    exact List.append_cancel_right hrest

/-- The frames of a byte string, one after another. -/
def frameCutter : Cutter UInt8 DecodedFrame where
  cut := firstFrame
  shrinks := firstFrame_shrinks
  within := firstFrame_within
  stable := firstFrame_stable
  inside := firstFrame_inside

/-- The whole frames at the front of a byte string. -/
abbrev framesOf (stream : Bytes) : List DecodedFrame := frameCutter.items stream

/-- What lies behind the whole frames. -/
abbrev tailOf (stream : Bytes) : Bytes := frameCutter.remainder stream

theorem framesOf_append (seen more : Bytes) :
    framesOf (seen ++ more) = framesOf seen ++ framesOf (tailOf seen ++ more) :=
  Cutter.items_append seen more

theorem tailOf_append (seen more : Bytes) :
    tailOf (seen ++ more) = tailOf (tailOf seen ++ more) :=
  Cutter.remainder_append seen more

/-- A tail that is too large keeps all that comes behind it. -/
theorem Oversized.append_tail {stream : Bytes} (h : Oversized (tailOf stream)) (more : Bytes) :
    framesOf (stream ++ more) = framesOf stream ∧
      tailOf (stream ++ more) = tailOf stream ++ more :=
  Cutter.items_append_of_stuck (h.append more).firstFrame_eq_none

end Cutting

section Decode

variable {buf : Bytes} {offset : ℕ}

/-- Slices at an offset are slices of what lies behind it. -/
theorem slice_drop (buf : Bytes) (offset start stop : ℕ) :
    slice buf (offset + start) (offset + stop) = slice (buf.drop offset) start stop := by
  rw [slice, slice, List.drop_drop]
  congr 1
  omega

/-- One round of the loop, read off the bytes behind the offset. -/
theorem decodeLoop_step (buf : Bytes) (offset : ℕ) (results : List DecodedFrame) :
    decodeLoop buf offset results =
      if Oversized (buf.drop offset) then
        .error (.frame (tooLarge (declaredJsonLen (buf.drop offset) +
          declaredBinLen (buf.drop offset))))
      else match firstFrame (buf.drop offset) with
        | none => .ok (results, offset)
        | some (frame, _) =>
          decodeLoop buf (offset + declaredLen (buf.drop offset)) (results ++ [frame]) := by
  have hjson : fromBeBytes (slice buf offset (offset + 4)) = declaredJsonLen (buf.drop offset) :=
    congrArg fromBeBytes (slice_drop buf offset 0 4)
  have hbin : fromBeBytes (slice buf (offset + 4) (offset + 8)) =
      declaredBinLen (buf.drop offset) := congrArg fromBeBytes (slice_drop buf offset 4 8)
  have hlength : (buf.drop offset).length = buf.length - offset := List.length_drop
  rw [decodeLoop]
  simp only [hjson, hbin]
  rcases Nat.lt_or_ge (buf.length - offset) headerSize with hshort | hheader
  · have hpart : ¬headerSize ≤ (buf.drop offset).length := by omega
    rw [if_neg (Nat.not_le.mpr hshort), if_neg fun h => hpart h.1, firstFrame,
      if_neg fun h => hpart h.1]
  · have hthere : headerSize ≤ (buf.drop offset).length := by omega
    rw [if_pos hheader]
    by_cases hlarge : maxFrameSize <
        declaredJsonLen (buf.drop offset) + declaredBinLen (buf.drop offset)
    · rw [if_pos hlarge, if_pos ⟨hthere, hlarge⟩]
    · have hsmall : ¬Oversized (buf.drop offset) := fun h => hlarge h.2
      rw [if_neg hlarge, if_neg hsmall]
      by_cases hpart : buf.length - offset < declaredLen (buf.drop offset)
      · have hnone : firstFrame (buf.drop offset) = none :=
          if_neg fun h => absurd h.2.2 (by omega)
        rw [hnone]
        exact if_pos hpart
      · have hsome : firstFrame (buf.drop offset) = some (declaredFrame (buf.drop offset), _) :=
          if_pos ⟨hthere, hsmall, by omega⟩
        rw [hsome]
        refine (if_neg hpart).trans ?_
        simp only [declaredFrame, headerSize, declaredLen, ← slice_drop, ← Nat.add_assoc]

/-- The loop finds the whole frames and ends behind them, unless a header
that is too large follows. -/
theorem decodeLoop_eq_framesOf (buf : Bytes) (offset : ℕ) (results : List DecodedFrame) :
    decodeLoop buf offset results =
      if Oversized (tailOf (buf.drop offset)) then
        .error (.frame (tooLarge (declaredJsonLen (tailOf (buf.drop offset)) +
          declaredBinLen (tailOf (buf.drop offset)))))
      else .ok (results ++ framesOf (buf.drop offset),
        offset + ((buf.drop offset).length - (tailOf (buf.drop offset)).length)) := by
  induction hbytes : buf.drop offset using Cutter.cut_induction (c := frameCutter)
    generalizing offset results with
  | stuck bytes h =>
    have hnone : firstFrame bytes = none := h
    rw [decodeLoop_step, hbytes, hnone, framesOf, tailOf, Cutter.items_of_none h,
      Cutter.remainder_of_none h, Nat.sub_self, List.append_nil, Nat.add_zero]
  | more bytes frame rest h ih =>
    have hsome : firstFrame bytes = some (frame, rest) := h
    obtain ⟨⟨-, hsmall, hwhole⟩, -, hrest⟩ := firstFrame_eq_some_iff.mp hsome
    have hnext : buf.drop (offset + declaredLen bytes) = rest := by
      rw [← List.drop_drop, hbytes, hrest]
    have hle : (tailOf rest).length ≤ rest.length := Cutter.remainder_length_le rest
    have hlength : rest.length = bytes.length - declaredLen bytes := by
      rw [hrest, List.length_drop]
    rw [decodeLoop_step, hbytes, if_neg hsmall, hsome]
    dsimp only
    rw [ih (offset + declaredLen bytes) (results ++ [frame]) hnext, framesOf, framesOf, tailOf,
      tailOf, Cutter.items_of_some h, Cutter.remainder_of_some h, List.append_assoc,
      List.singleton_append]
    have hend : offset + declaredLen bytes + (rest.length - (tailOf rest).length) =
        offset + (bytes.length - (tailOf rest).length) := by omega
    rw [hend]

/-- One call on arbitrary bytes. -/
theorem decode_eq (decoder : FrameDecoder) (chunk : Bytes) :
    decoder.decode chunk =
      if Oversized (tailOf (decoder.buf ++ chunk)) then
        (.error (.frame (tooLarge (declaredJsonLen (tailOf (decoder.buf ++ chunk)) +
          declaredBinLen (tailOf (decoder.buf ++ chunk))))), ⟨decoder.buf ++ chunk⟩)
      else (.ok (framesOf (decoder.buf ++ chunk)), ⟨tailOf (decoder.buf ++ chunk)⟩) := by
  have hloop := decodeLoop_eq_framesOf (decoder.buf ++ chunk) 0 []
  rw [List.drop_zero, List.nil_append, Nat.zero_add] at hloop
  by_cases hlarge : Oversized (tailOf (decoder.buf ++ chunk))
  · rw [if_pos hlarge] at hloop ⊢
    rw [FrameDecoder.decode, hloop]
  · obtain ⟨front, hfront⟩ : tailOf (decoder.buf ++ chunk) <:+ decoder.buf ++ chunk :=
      Cutter.remainder_suffix _
    have hlength := congrArg List.length hfront
    rw [List.length_append] at hlength
    have hoffset : (decoder.buf ++ chunk).length - (tailOf (decoder.buf ++ chunk)).length =
        front.length := by omega
    have hdrop : (decoder.buf ++ chunk).drop front.length = tailOf (decoder.buf ++ chunk) := by
      conv_lhs => rw [← hfront]
      exact List.drop_left
    rw [if_neg hlarge] at hloop ⊢
    rw [FrameDecoder.decode, hloop]
    dsimp only
    rw [hoffset]
    split
    · rw [hdrop]
    · rename_i hzero
      have hempty : front.length = 0 := Nat.le_zero.mp (Nat.not_lt.mp hzero)
      rw [hempty, List.drop_zero] at hdrop
      rw [← hdrop]

end Decode

section Splittings

/-- The frames of the answers before the first error. -/
def deliveredBefore : List (Except TpError (List DecodedFrame)) → List DecodedFrame
  | [] => []
  | .ok frames :: answers => frames ++ deliveredBefore answers
  | .error _ :: _ => []

/-- The frames that a fresh decoder hands out before its first error. -/
def delivered (chunks : List Bytes) : List DecodedFrame :=
  deliveredBefore (feedAll FrameDecoder.decode .new chunks).1

/-- Some call of a fresh decoder reports an error. -/
def Reported (chunks : List Bytes) : Prop :=
  ∃ e, Except.error e ∈ (feedAll FrameDecoder.decode .new chunks).1

/-- The bytes that the whole frames of a stream take. -/
def framesLen (stream : Bytes) : ℕ := stream.length - (tailOf stream).length

/-- When a header that is too large follows the whole frames, a chunk ends
right before it or between its bytes. -/
def SplitsBeforeOversized (chunks : List Bytes) : Prop :=
  Oversized (tailOf chunks.flatten) → ∃ k ≤ chunks.length,
    framesLen chunks.flatten ≤ (chunks.take k).flatten.length ∧
      (chunks.take k).flatten.length < framesLen chunks.flatten + headerSize

/-- A decoder that once held a header that is too large reports it in every
call. -/
theorem decode_of_oversized {buf : Bytes} (h : Oversized (tailOf buf)) (chunk : Bytes) :
    (∃ e, (FrameDecoder.decode ⟨buf⟩ chunk).1 = .error e) ∧
      (FrameDecoder.decode ⟨buf⟩ chunk).2 = ⟨buf ++ chunk⟩ := by
  have hlarge : Oversized (tailOf (buf ++ chunk)) := by
    rw [(h.append_tail chunk).2]
    exact h.append chunk
  rw [decode_eq, if_pos hlarge]
  exact ⟨⟨_, rfl⟩, rfl⟩

/-- One call on what is left of the bytes seen so far. -/
theorem decode_tailOf {seen chunk : Bytes} (h : ¬Oversized (tailOf (seen ++ chunk))) :
    FrameDecoder.decode ⟨tailOf seen⟩ chunk =
      (.ok (framesOf (tailOf seen ++ chunk)), ⟨tailOf (seen ++ chunk)⟩) := by
  rw [decode_eq, ← tailOf_append, if_neg h]

/-- An error is reported exactly when a header that is too large follows the
whole frames of the bytes fed so far. -/
theorem feedAll_error_iff (seen : Bytes) (chunks : List Bytes) (h : ¬Oversized (tailOf seen)) :
    (∃ e, Except.error e ∈ (feedAll FrameDecoder.decode ⟨tailOf seen⟩ chunks).1) ↔
      Oversized (tailOf (seen ++ chunks.flatten)) := by
  induction chunks generalizing seen with
  | nil =>
    rw [List.flatten_nil, List.append_nil]
    exact ⟨fun ⟨_, hmem⟩ => absurd hmem List.not_mem_nil, fun hlarge => absurd hlarge h⟩
  | cons chunk chunks ih =>
    rw [List.flatten_cons, ← List.append_assoc, feedAll]
    by_cases hlarge : Oversized (tailOf (seen ++ chunk))
    · have hlast : Oversized (tailOf (seen ++ chunk ++ chunks.flatten)) := by
        rw [(hlarge.append_tail _).2]
        exact hlarge.append _
      have hanswer : ∃ e, (FrameDecoder.decode ⟨tailOf seen⟩ chunk).1 = .error e := by
        rw [decode_eq, ← tailOf_append, if_pos hlarge]
        exact ⟨_, rfl⟩
      obtain ⟨e, he⟩ := hanswer
      exact ⟨fun _ => hlast, fun _ => ⟨e, List.mem_cons.mpr (.inl he.symm)⟩⟩
    · rw [decode_tailOf hlarge, ← ih (seen ++ chunk) hlarge]
      dsimp only
      refine exists_congr fun e => ?_
      rw [List.mem_cons]
      exact ⟨fun hmem => hmem.resolve_left (by simp), .inr⟩

/-- What is handed out before the first error: the frames of the chunks up to
the one that completes a header that is too large, that one left out. -/
theorem feedAll_delivered (seen : Bytes) (chunks : List Bytes) (h : ¬Oversized (tailOf seen)) :
    ∃ k ≤ chunks.length,
      framesOf seen ++ deliveredBefore (feedAll FrameDecoder.decode ⟨tailOf seen⟩ chunks).1 =
        framesOf (seen ++ (chunks.take k).flatten) ∧
      ¬Oversized (tailOf (seen ++ (chunks.take k).flatten)) ∧
      (k = chunks.length ∨ Oversized (tailOf (seen ++ (chunks.take (k + 1)).flatten))) := by
  induction chunks generalizing seen with
  | nil =>
    refine ⟨0, Nat.le_refl 0, ?_, ?_, .inl rfl⟩
    · rw [feedAll, deliveredBefore, List.take_nil, List.flatten_nil, List.append_nil,
        List.append_nil]
    · rwa [List.take_nil, List.flatten_nil, List.append_nil]
  | cons chunk chunks ih =>
    by_cases hlarge : Oversized (tailOf (seen ++ chunk))
    · refine ⟨0, Nat.zero_le _, ?_, ?_, .inr ?_⟩
      · rw [feedAll, decode_eq, ← tailOf_append, if_pos hlarge, deliveredBefore, List.take_zero,
          List.flatten_nil, List.append_nil, List.append_nil]
      · rwa [List.take_zero, List.flatten_nil, List.append_nil]
      · rwa [List.take_succ_cons, List.take_zero, List.flatten_cons, List.flatten_nil,
          List.append_nil]
    · obtain ⟨k, hk, hframes, hsmall, hnext⟩ := ih (seen ++ chunk) hlarge
      refine ⟨k + 1, Nat.succ_le_succ hk, ?_, ?_, ?_⟩
      · rw [feedAll, decode_tailOf hlarge]
        dsimp only
        rw [deliveredBefore, List.take_succ_cons, List.flatten_cons, ← List.append_assoc seen,
          ← hframes, framesOf_append seen chunk, List.append_assoc]
      · rwa [List.take_succ_cons, List.flatten_cons, ← List.append_assoc]
      · rw [List.take_succ_cons, List.flatten_cons, ← List.append_assoc, List.length_cons]
        exact hnext.imp (congrArg Nat.succ) id

theorem not_oversized_tailOf_nil : ¬Oversized (tailOf []) := fun h => by
  have hlength : (tailOf []).length ≤ 0 := Cutter.remainder_length_le (c := frameCutter) []
  have hheader := h.1
  simp only [headerSize] at hheader
  omega

theorem tailOf_nil : tailOf [] = [] :=
  List.length_eq_zero_iff.mp (Nat.le_zero.mp (Cutter.remainder_length_le (c := frameCutter) []))

/-- Whether an error is reported does not depend on the chunks. -/
theorem reported_iff (chunks : List Bytes) :
    Reported chunks ↔ Oversized (tailOf chunks.flatten) := by
  have h := feedAll_error_iff [] chunks not_oversized_tailOf_nil
  rwa [tailOf_nil, List.nil_append] at h

/-- Once too large, always too large. -/
theorem Oversized.tailOf_append {stream : Bytes} (h : Oversized (tailOf stream)) (more : Bytes) :
    Oversized (tailOf (stream ++ more)) := by
  rw [(h.append_tail more).2]
  exact h.append more

theorem take_flatten_append (chunks : List Bytes) {i j : ℕ} (h : i ≤ j) :
    ∃ more, (chunks.take j).flatten = (chunks.take i).flatten ++ more := by
  refine ⟨((chunks.take j).drop i).flatten, ?_⟩
  rw [← List.flatten_append]
  conv_lhs => rw [← List.take_append_drop i (chunks.take j), List.take_take, Nat.min_eq_left h]

/-- Bytes that end before or within a header that is too large hold all whole
frames, and that header is not complete in them. -/
theorem framesOf_of_framesLen_le {stream front rest : Bytes} (hstream : stream = front ++ rest)
    (hfrom : framesLen stream ≤ front.length)
    (hupto : front.length < framesLen stream + headerSize) :
    framesOf stream = framesOf front ∧ ¬Oversized (tailOf front) := by
  have hlength := congrArg List.length hstream
  rw [List.length_append] at hlength
  have hle : (tailOf stream).length ≤ stream.length := Cutter.remainder_length_le _
  rw [framesLen] at hfrom hupto
  have hrest : rest.length ≤ (tailOf stream).length := by omega
  subst hstream
  refine ⟨Cutter.items_append_eq_of_length_le hrest, fun hlarge => ?_⟩
  have htail := congrArg List.length (hlarge.append_tail rest).2
  rw [List.length_append] at htail
  have hheader := hlarge.1
  omega

/-- All whole frames are handed out exactly when a chunk ends right before or
within a header that is too large, or there is none. -/
theorem delivered_eq_iff (chunks : List Bytes) :
    delivered chunks = framesOf chunks.flatten ↔ SplitsBeforeOversized chunks := by
  obtain ⟨k, hk, hframes, hsmall, hnext⟩ :=
    feedAll_delivered [] chunks not_oversized_tailOf_nil
  have hempty : framesOf [] = [] := Cutter.items_of_none (by decide)
  rw [tailOf_nil, hempty, List.nil_append, List.nil_append] at hframes
  rw [List.nil_append] at hsmall hnext
  have hdelivered : delivered chunks = framesOf (chunks.take k).flatten := hframes
  obtain ⟨back, hback⟩ := take_flatten_append chunks hk
  rw [List.take_length] at hback
  constructor
  · intro hall hlarge
    rw [hdelivered, hback] at hall
    have hstuck := Cutter.stuck_of_items_append_eq hall.symm
    have htail : tailOf chunks.flatten = tailOf (chunks.take k).flatten ++ back := by
      rw [hback]
      exact (Cutter.items_append_of_stuck hstuck).2
    have hshort : (tailOf (chunks.take k).flatten).length < headerSize := by
      refine Nat.not_le.mp fun hheader => hsmall ?_
      rw [htail] at hlarge
      exact (oversized_append_iff back hheader).mp hlarge
    have hle : (tailOf (chunks.take k).flatten).length ≤ (chunks.take k).flatten.length :=
      Cutter.remainder_length_le _
    have hlen : framesLen chunks.flatten =
        (chunks.take k).flatten.length - (tailOf (chunks.take k).flatten).length := by
      rw [framesLen, htail, hback, List.length_append, List.length_append]
      omega
    exact ⟨k, hk, by omega, by omega⟩
  · intro hsplit
    by_cases hlarge : Oversized (tailOf chunks.flatten)
    · obtain ⟨i, hi, hfrom, hupto⟩ := hsplit hlarge
      obtain ⟨rest, hrest⟩ := take_flatten_append chunks hi
      rw [List.take_length] at hrest
      obtain ⟨hall, hstart⟩ := framesOf_of_framesLen_le hrest hfrom hupto
      have hik : i ≤ k := by
        refine Nat.not_lt.mp fun hlt => hstart ?_
        obtain ⟨more, hmore⟩ := take_flatten_append chunks (Nat.succ_le_of_lt hlt)
        rw [hmore]
        exact (hnext.resolve_left (by omega)).tailOf_append more
      obtain ⟨more, hmore⟩ := take_flatten_append chunks hik
      have hmiddle := framesOf_append (chunks.take i).flatten more
      have hlast := framesOf_append (chunks.take k).flatten back
      rw [← hmore] at hmiddle
      rw [← hback, hall, hmiddle, List.append_assoc] at hlast
      have hnone := List.append_eq_nil_iff.mp (List.append_right_eq_self.mp hlast.symm)
      rw [hdelivered, hmiddle, hnone.1, List.append_nil, hall]
    · have hend : k = chunks.length := by
        refine hnext.resolve_right fun hnow => hlarge ?_
        rcases Nat.lt_or_ge k chunks.length with hlt | hge
        · obtain ⟨more, hmore⟩ := take_flatten_append chunks (Nat.succ_le_of_lt hlt)
          rw [List.take_length] at hmore
          rw [hmore]
          exact hnow.tailOf_append more
        · rwa [List.take_of_length_le (by omega)] at hnow
      rw [hdelivered, hend, List.take_length]

/-- Two ways of cutting a byte string agree on the frames before the first
error and on whether there is one, and hand out every whole frame, exactly
when each of them ends a chunk before or within a header that is too large. -/
theorem decode_splittings_agree_iff (chunks others : List Bytes)
    (h : chunks.flatten = others.flatten) :
    (delivered chunks = delivered others ∧ (Reported chunks ↔ Reported others) ∧
      delivered chunks = framesOf chunks.flatten ∧ delivered others = framesOf others.flatten) ↔
      SplitsBeforeOversized chunks ∧ SplitsBeforeOversized others := by
  rw [← delivered_eq_iff, ← delivered_eq_iff]
  constructor
  · intro hagree
    exact ⟨hagree.2.2.1, hagree.2.2.2⟩
  · rintro ⟨hchunks, hothers⟩
    refine ⟨?_, ?_, hchunks, hothers⟩
    · rw [hchunks, hothers, h]
    · rw [reported_iff, reported_iff, h]

/-- A frame with an empty object in it. -/
def objectFrame : Bytes := [0, 0, 0, 2, 0, 0, 0, 0, 123, 125]

/-- A header that declares four gibibytes. -/
def poisonHeader : Bytes := [255, 255, 255, 255, 0, 0, 0, 0]

/-- The frame and the header, cut into frame and tail. -/
theorem objectFrame_poisonHeader_cut :
    framesOf (objectFrame ++ poisonHeader) = [⟨[123, 125], none⟩] ∧
      tailOf (objectFrame ++ poisonHeader) = poisonHeader := by
  have hfirst : frameCutter.cut (objectFrame ++ poisonHeader) =
      some (⟨[123, 125], none⟩, poisonHeader) := by decide
  have hstuck : frameCutter.cut poisonHeader = none := by decide
  rw [framesOf, tailOf, Cutter.items_of_some hfirst, Cutter.remainder_of_some hfirst,
    Cutter.items_of_none hstuck, Cutter.remainder_of_none hstuck]
  exact ⟨rfl, rfl⟩

/-- With a cut before the header, and with one in the middle of it, the frame
is handed out and the error is reported. -/
theorem decode_splittings_agree_poisonHeader :
    [objectFrame, poisonHeader].flatten =
        [objectFrame ++ poisonHeader.take 5, poisonHeader.drop 5].flatten ∧
      delivered [objectFrame, poisonHeader] =
        delivered [objectFrame ++ poisonHeader.take 5, poisonHeader.drop 5] ∧
      (Reported [objectFrame, poisonHeader] ↔
        Reported [objectFrame ++ poisonHeader.take 5, poisonHeader.drop 5]) ∧
      delivered [objectFrame, poisonHeader] =
        framesOf [objectFrame, poisonHeader].flatten ∧
      delivered [objectFrame ++ poisonHeader.take 5, poisonHeader.drop 5] =
        framesOf [objectFrame ++ poisonHeader.take 5, poisonHeader.drop 5].flatten := by
  have hlen : framesLen (objectFrame ++ poisonHeader) = 10 := by
    rw [framesLen, objectFrame_poisonHeader_cut.2]
    rfl
  refine ⟨rfl, (decode_splittings_agree_iff [objectFrame, poisonHeader]
    [objectFrame ++ poisonHeader.take 5, poisonHeader.drop 5] rfl).mpr
      ⟨fun _ => ⟨1, by decide, ?_⟩, fun _ => ⟨1, by decide, ?_⟩⟩⟩
  · change framesLen (objectFrame ++ poisonHeader) ≤ _ ∧
      _ < framesLen (objectFrame ++ poisonHeader) + headerSize
    rw [hlen]
    decide
  · change framesLen (objectFrame ++ poisonHeader) ≤ _ ∧
      _ < framesLen (objectFrame ++ poisonHeader) + headerSize
    rw [hlen]
    decide

/-- In one chunk with the header the frame is lost, in a chunk of its own it
is handed out. -/
theorem decode_splittings_disagree_poisonHeader :
    [objectFrame ++ poisonHeader].flatten = [objectFrame, poisonHeader].flatten ∧
      delivered [objectFrame ++ poisonHeader] = [] ∧
      delivered [objectFrame, poisonHeader] = [⟨[123, 125], none⟩] := by
  have hlarge : Oversized (tailOf (objectFrame ++ poisonHeader)) := by
    rw [objectFrame_poisonHeader_cut.2]
    decide
  have hfirst : frameCutter.cut objectFrame = some (⟨[123, 125], none⟩, []) := by decide
  have hstuck : frameCutter.cut [] = none := by decide
  have hframes : framesOf objectFrame = [⟨[123, 125], none⟩] := by
    rw [framesOf, Cutter.items_of_some hfirst, Cutter.items_of_none hstuck]
  have htail : tailOf objectFrame = [] := by
    rw [tailOf, Cutter.remainder_of_some hfirst, Cutter.remainder_of_none hstuck]
  have hsmall : ¬Oversized (tailOf objectFrame) := by
    rw [htail]
    decide
  have hone : (FrameDecoder.decode .new (objectFrame ++ poisonHeader)).1 =
      .error (.frame (tooLarge 4294967295)) := by
    rw [decode_eq, FrameDecoder.new, List.nil_append, if_pos hlarge,
      objectFrame_poisonHeader_cut.2]
    rfl
  have htwo : FrameDecoder.decode .new objectFrame = (.ok [⟨[123, 125], none⟩], ⟨[]⟩) := by
    rw [decode_eq, FrameDecoder.new, List.nil_append, if_neg hsmall, hframes, htail]
  have hpoison : (FrameDecoder.decode ⟨[]⟩ poisonHeader).1 =
      .error (.frame (tooLarge 4294967295)) := by
    have hrest : tailOf poisonHeader = poisonHeader :=
      Cutter.remainder_of_none (by decide)
    rw [decode_eq, List.nil_append, hrest, if_pos (by decide)]
    rfl
  refine ⟨rfl, ?_, ?_⟩
  · rw [delivered, feedAll, hone]
    rfl
  · rw [delivered, feedAll, htwo, feedAll, hpoison]
    rfl

end Splittings

end Teleprompter.FrameCodec
