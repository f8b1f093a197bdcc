import Teleprompter.FramedStreams
import Mathlib.Algebra.Order.Ring.Nat
import Mathlib.Data.List.Basic

/-!
# The framed JSON codec

A frame is two big-endian 32-bit lengths, the JSON bytes and the bytes of an
optional binary sidecar. The decoder keeps what it has not consumed between
calls and hands out every frame that is complete. Any list of frames of
admissible size comes back over any way of cutting the encoded stream.
-/

namespace Teleprompter.FrameCodec

open FramedStreams

/-- Raw bytes. -/
abbrev Bytes := List UInt8

/-- The errors of the core crate. -/
inductive TpError where
  /-- A header declared more than the largest frame size. -/
  | frame (message : String)
  /-- JSON text that does not read or write. -/
  | codec (message : String)
  /-- An input of the wrong length. -/
  | invalidInput (message : String)
  /-- A sealed blob that does not open. -/
  | crypto (message : String)
  /-- A pairing link that does not read or write. -/
  | pairing (message : String)
  deriving DecidableEq

/-- Bytes of the two lengths. -/
def headerSize : ℕ := 8

/-- 64 MiB. -/
def maxFrameSize : ℕ := 64 * 1024 * 1024

/-- A frame as the decoder returns it. -/
structure DecodedFrame where
  /-- The JSON bytes, as they were on the wire. -/
  json : Bytes
  /-- The sidecar, when its length is not zero. -/
  binary : Option Bytes
  deriving DecidableEq

/-- The four bytes of a 32-bit number, most significant first. -/
def toBeBytes (n : ℕ) : Bytes :=
  [UInt8.ofNat (n / 16777216), UInt8.ofNat (n / 65536), UInt8.ofNat (n / 256), UInt8.ofNat n]

/-- The number of four bytes, most significant first. -/
def fromBeBytes : Bytes → ℕ
  | [a, b, c, d] => a.toNat * 16777216 + b.toNat * 65536 + c.toNat * 256 + d.toNat
  | _ => 0

/-- A frame on the wire; lengths are cut to 32 bits. -/
def encodeFrame (json : Bytes) (binary : Option Bytes) : Bytes :=
  let binLen := (binary.map List.length).getD 0
  toBeBytes (json.length % 4294967296) ++ toBeBytes (binLen % 4294967296) ++ json ++
    match binary with
    | some b => if 0 < binLen then b else []
    | none => []

/-- The decoder: the bytes it has not consumed. -/
structure FrameDecoder where
  /-- Bytes of a frame that is not complete. -/
  buf : Bytes
  deriving DecidableEq

/-- A decoder before its first chunk. -/
def FrameDecoder.new : FrameDecoder := ⟨[]⟩

/-- The text of the size error. -/
def tooLarge (size : ℕ) : String :=
  s!"Frame too large: {size} bytes exceeds max {maxFrameSize}"

/-- The loop over the frames of the buffer, with the frames found so far.
It ends with them and the offset behind the last one. -/
def decodeLoop (buf : Bytes) (offset : ℕ) (results : List DecodedFrame) :
    Except TpError (List DecodedFrame × ℕ) :=
  if headerSize ≤ buf.length - offset then
    let jsonLen := fromBeBytes (slice buf offset (offset + 4))
    let binLen := fromBeBytes (slice buf (offset + 4) (offset + 8))
    if maxFrameSize < jsonLen + binLen then .error (.frame (tooLarge (jsonLen + binLen)))
    else
      let totalLen := headerSize + jsonLen + binLen
      if buf.length - offset < totalLen then .ok (results, offset)
      else
        let jsonStart := offset + headerSize
        let json := slice buf jsonStart (jsonStart + jsonLen)
        let binStart := jsonStart + jsonLen
        let binary := if 0 < binLen then some (slice buf binStart (binStart + binLen)) else none
        decodeLoop buf (offset + totalLen) (results ++ [⟨json, binary⟩])
  else .ok (results, offset)
termination_by buf.length - offset
decreasing_by
  simp only [headerSize] at *
  omega

/-- One call: every frame that the buffer and the chunk complete, and the
decoder with the rest. An error leaves the whole buffer in place. -/
def FrameDecoder.decode (decoder : FrameDecoder) (chunk : Bytes) :
    Except TpError (List DecodedFrame) × FrameDecoder :=
  let buf := decoder.buf ++ chunk
  match decodeLoop buf 0 [] with
  | .error e => (.error e, ⟨buf⟩)
  | .ok (results, offset) => (.ok results, ⟨if 0 < offset then buf.drop offset else buf⟩)

/-- The bytes of the wire form of a pair. -/
def frameCode (frame : Bytes × Option Bytes) : Bytes := encodeFrame frame.1 frame.2

/-- What a pair comes back as: an empty sidecar is none. -/
def decodedFrame (frame : Bytes × Option Bytes) : DecodedFrame :=
  ⟨frame.1, frame.2.filter fun b => b ≠ []⟩

/-- Pairs that fit into one frame. -/
def Fits (frame : Bytes × Option Bytes) : Prop :=
  frame.1.length + (frame.2.getD []).length ≤ maxFrameSize

instance : DecidablePred Fits := fun _ => inferInstanceAs (Decidable (_ ≤ _))

section Header

/-- Four bytes give back every 32-bit number. -/
theorem fromBeBytes_toBeBytes {n : ℕ} (h : n < 4294967296) : fromBeBytes (toBeBytes n) = n := by
  simp only [toBeBytes, fromBeBytes, UInt8.toNat_ofNat']
  omega

@[simp] theorem toBeBytes_length (n : ℕ) : (toBeBytes n).length = 4 := rfl

/-- A frame of admissible size carries its true lengths. -/
theorem frameCode_eq {frame : Bytes × Option Bytes} (h : Fits frame) :
    frameCode frame = toBeBytes frame.1.length ++ (toBeBytes (frame.2.getD []).length ++
      (frame.1 ++ frame.2.getD [])) := by
  obtain ⟨json, binary⟩ := frame
  have hsize : json.length + (binary.getD []).length ≤ 67108864 := h
  have hjson : json.length % 4294967296 = json.length := Nat.mod_eq_of_lt (by omega)
  cases binary with
  | none => simp [frameCode, encodeFrame, hjson]
  | some b =>
    rw [Option.getD_some] at hsize
    have hb : b.length % 4294967296 = b.length := Nat.mod_eq_of_lt (by omega)
    rcases Nat.eq_zero_or_pos b.length with hzero | hpos
    · simp [frameCode, encodeFrame, hjson, List.length_eq_zero_iff.mp hzero]
    · simp [frameCode, encodeFrame, hjson, hb, hpos]

theorem frameCode_length {frame : Bytes × Option Bytes} (h : Fits frame) :
    (frameCode frame).length = headerSize + frame.1.length + (frame.2.getD []).length := by
  rw [frameCode_eq h]
  simp only [List.length_append, toBeBytes_length, headerSize]
  omega

end Header

section Loop

variable {frame : Bytes × Option Bytes} {buf later more : Bytes} {offset : ℕ}

/-- The declared JSON length is the true one as soon as the header is there. -/
theorem jsonLen_eq (hf : Fits frame) (h : buf.drop offset ++ later = frameCode frame ++ more)
    (hheader : headerSize ≤ buf.length - offset) :
    fromBeBytes (slice buf offset (offset + 4)) = frame.1.length := by
  have hsize : frame.1.length + (frame.2.getD []).length ≤ 67108864 := hf
  have hvisible := slice_of_visible h 0 4 (Nat.le_trans (by decide) hheader)
  have hpart := slice_append [] (toBeBytes frame.1.length)
    (toBeBytes (frame.2.getD []).length ++ (frame.1 ++ frame.2.getD []) ++ more)
  rw [Nat.add_zero, frameCode_eq hf, List.append_assoc] at hvisible
  rw [hvisible]
  exact (congrArg fromBeBytes hpart).trans (fromBeBytes_toBeBytes (by omega))

/-- The declared sidecar length is the true one as soon as the header is
there. -/
theorem binLen_eq (hf : Fits frame) (h : buf.drop offset ++ later = frameCode frame ++ more)
    (hheader : headerSize ≤ buf.length - offset) :
    fromBeBytes (slice buf (offset + 4) (offset + 8)) = (frame.2.getD []).length := by
  have hsize : frame.1.length + (frame.2.getD []).length ≤ 67108864 := hf
  have hvisible := slice_of_visible h 4 8 hheader
  have hpart := slice_append (toBeBytes frame.1.length) (toBeBytes (frame.2.getD []).length)
    (frame.1 ++ frame.2.getD [] ++ more)
  rw [frameCode_eq hf, List.append_assoc, List.append_assoc] at hvisible
  rw [hvisible]
  exact (congrArg fromBeBytes hpart).trans (fromBeBytes_toBeBytes (by omega))

/-- Without a whole header the loop ends. -/
theorem decodeLoop_short (results : List DecodedFrame) (h : buf.length - offset < headerSize) :
    decodeLoop buf offset results = .ok (results, offset) := by
  rw [decodeLoop, if_neg (Nat.not_le.mpr h)]

/-- With a part of the next frame the loop ends as well. -/
theorem decodeLoop_incomplete (results : List DecodedFrame) (hf : Fits frame)
    (h : buf.drop offset ++ later = frameCode frame ++ more)
    (hlt : buf.length - offset < (frameCode frame).length) :
    decodeLoop buf offset results = .ok (results, offset) := by
  rcases Nat.lt_or_ge (buf.length - offset) headerSize with hshort | hheader
  · exact decodeLoop_short results hshort
  · rw [frameCode_length hf] at hlt
    rw [decodeLoop, if_pos hheader]
    simp only [jsonLen_eq hf h hheader, binLen_eq hf h hheader]
    rw [if_neg (Nat.not_lt.mpr hf), if_pos hlt]

/-- A whole frame is handed out, and the loop goes on behind it. -/
theorem decodeLoop_whole (results : List DecodedFrame) (hf : Fits frame)
    (h : buf.drop offset ++ later = frameCode frame ++ more)
    (hle : (frameCode frame).length ≤ buf.length - offset) :
    decodeLoop buf offset results =
      decodeLoop buf (offset + (frameCode frame).length) (results ++ [decodedFrame frame]) := by
  have hlength := frameCode_length hf
  have hheader : headerSize ≤ buf.length - offset := by omega
  have hjson : slice buf (offset + headerSize) (offset + headerSize + frame.1.length) =
      frame.1 := by
    have hvisible := slice_of_visible h headerSize (headerSize + frame.1.length) (by omega)
    have hpart := slice_append (toBeBytes frame.1.length ++ toBeBytes (frame.2.getD []).length)
      frame.1 (frame.2.getD [] ++ more)
    have hfront : (toBeBytes frame.1.length ++ toBeBytes (frame.2.getD []).length).length =
        headerSize := rfl
    rw [hfront] at hpart
    rw [frameCode_eq hf, ← Nat.add_assoc] at hvisible
    rw [hvisible]
    simpa only [List.append_assoc] using hpart
  have hbinary : slice buf (offset + headerSize + frame.1.length)
      (offset + headerSize + frame.1.length + (frame.2.getD []).length) = frame.2.getD [] := by
    have hvisible := slice_of_visible h (headerSize + frame.1.length)
      (headerSize + frame.1.length + (frame.2.getD []).length) (by omega)
    have hpart := slice_append
      (toBeBytes frame.1.length ++ (toBeBytes (frame.2.getD []).length ++ frame.1))
      (frame.2.getD []) more
    have hfront : (toBeBytes frame.1.length ++
        (toBeBytes (frame.2.getD []).length ++ frame.1)).length =
          headerSize + frame.1.length := by
      simp only [List.length_append, toBeBytes_length, headerSize]
      omega
    rw [hfront] at hpart
    rw [frameCode_eq hf] at hvisible
    simp only [← Nat.add_assoc] at hvisible
    rw [hvisible]
    simpa only [List.append_assoc] using hpart
  have hview : (if 0 < (frame.2.getD []).length then some (frame.2.getD []) else none) =
      frame.2.filter fun b => b ≠ [] := by
    rcases frame.2 with _ | b
    · rfl
    · cases b <;> rfl
  rw [decodeLoop, if_pos hheader]
  simp only [jsonLen_eq hf h hheader, binLen_eq hf h hheader]
  rw [if_neg (Nat.not_lt.mpr hf), if_neg (by omega)]
  simp only [hjson, hbinary, hview, hlength]
  rfl

/-- The loop over a part of an encoded list hands out the frames that are
complete in it and stops behind them. -/
theorem decodeLoop_eq {frames : List (Bytes × Option Bytes)} (hf : ∀ frame ∈ frames, Fits frame)
    (h : buf.drop offset ++ later = encodeAll frameCode frames) (results : List DecodedFrame) :
    decodeLoop buf offset results =
      .ok (results ++ (completed frameCode frames (buf.length - offset)).map decodedFrame,
        offset + consumed frameCode frames (buf.length - offset)) := by
  induction frames generalizing offset results with
  | nil =>
    have hempty : buf.length - offset = 0 := by
      rw [← List.length_drop, (List.append_eq_nil_iff.mp h).1, List.length_nil]
    rw [decodeLoop_short results (by rw [hempty]; decide)]
    simp [completed, consumed]
  | cons frame frames ih =>
    have hfits := hf frame List.mem_cons_self
    rw [encodeAll_cons] at h
    rcases Nat.lt_or_ge (buf.length - offset) (frameCode frame).length with hlt | hle
    · rw [decodeLoop_incomplete results hfits h hlt, completed_cons_of_lt frames hlt,
        consumed_cons_of_lt frames hlt, List.map_nil, List.append_nil, Nat.add_zero]
    · have hdrop : buf.drop (offset + (frameCode frame).length) ++ later =
          encodeAll frameCode frames := by
        have hcut := congrArg (List.drop (frameCode frame).length) h
        rw [List.drop_left, List.drop_append_of_le_length (by rw [List.length_drop]; exact hle),
          List.drop_drop] at hcut
        exact hcut
      have hleft : buf.length - (offset + (frameCode frame).length) =
          buf.length - offset - (frameCode frame).length := by omega
      rw [decodeLoop_whole results hfits h hle,
        ih (fun f hmem => hf f (List.mem_cons_of_mem _ hmem)) hdrop, hleft,
        completed_cons_of_le frames hle, consumed_cons_of_le frames hle, List.map_cons,
        List.append_assoc, List.singleton_append, Nat.add_assoc]

end Loop

section RoundTrip

/-- One call hands out exactly the frames that its chunk completes. -/
theorem decode_conforms :
    Conforms frameCode decodedFrame FrameDecoder.buf FrameDecoder.decode Fits := by
  intro decoder chunk later frames hf h
  have hloop : decodeLoop (decoder.buf ++ chunk) 0 [] =
      .ok ((completed frameCode frames (decoder.buf ++ chunk).length).map decodedFrame,
        consumed frameCode frames (decoder.buf ++ chunk).length) := by
    have hall := decodeLoop_eq hf (by rw [List.drop_zero]; exact h) []
    rwa [Nat.sub_zero, Nat.zero_add, List.nil_append] at hall
  rw [FrameDecoder.decode, hloop]
  refine ⟨rfl, ?_⟩
  dsimp only
  split
  · rfl
  · rename_i hzero
    rw [Nat.le_zero.mp (Nat.not_lt.mp hzero), List.drop_zero]

/-- Nothing is complete before the first byte. -/
theorem completed_zero {frames : List (Bytes × Option Bytes)}
    (hf : ∀ frame ∈ frames, Fits frame) : completed frameCode frames 0 = [] := by
  cases frames with
  | nil => rfl
  | cons frame frames =>
    have hlength := frameCode_length (hf frame List.mem_cons_self)
    refine completed_cons_of_lt frames ?_
    rw [hlength, headerSize]
    omega

/-- Over any way of cutting the encoded frames into chunks, no call fails,
after each chunk exactly the frames completed so far were handed out, and in
the end all of them, with nothing left in the buffer. -/
theorem decode_encodeFrame_fragmented (frames : List (Bytes × Option Bytes))
    (hfits : ∀ frame ∈ frames, Fits frame) (chunks : List Bytes)
    (hcut : chunks.flatten = (frames.map fun frame => encodeFrame frame.1 frame.2).flatten) :
    ∃ outputs : List (List DecodedFrame),
      (feedAll FrameDecoder.decode .new chunks).1 = outputs.map .ok ∧
      (∀ k ≤ chunks.length, (outputs.take k).flatten =
        (completed frameCode frames (chunks.take k).flatten.length).map decodedFrame) ∧
      outputs.flatten = frames.map decodedFrame ∧
      (feedAll FrameDecoder.decode .new chunks).2.buf = [] := by
  have hstream : FrameDecoder.new.buf ++ chunks.flatten = encodeAll frameCode frames :=
    hcut.trans List.flatMap_def.symm
  obtain ⟨outputs, hdelivers⟩ := decode_conforms.delivers hfits hstream (completed_zero hfits)
  exact ⟨outputs, hdelivers.answers, hdelivers.progress, hdelivers.flatten_eq hstream,
    hdelivers.drained⟩

/-- Two frames, one with a sidecar, cut within a header, within the JSON and
within the sidecar. -/
def sampleFrames : List (Bytes × Option Bytes) := [([123, 125], some [7, 8, 9]), ([91, 93], none)]

/-- The cut stream of the sample. -/
def sampleChunks : List Bytes :=
  [[0, 0], [], [0, 2, 0, 0, 0, 3, 123], [125, 7, 8], [9, 0, 0, 0, 2, 0, 0, 0, 0, 91], [93]]

/-- The sample comes back. -/
theorem decode_sampleFrames : (∀ frame ∈ sampleFrames, Fits frame) ∧
    ∃ outputs : List (List DecodedFrame),
      (feedAll FrameDecoder.decode .new sampleChunks).1 = outputs.map .ok ∧
      (∀ k ≤ sampleChunks.length, (outputs.take k).flatten =
        (completed frameCode sampleFrames (sampleChunks.take k).flatten.length).map
          decodedFrame) ∧
      outputs.flatten = sampleFrames.map decodedFrame ∧
      (feedAll FrameDecoder.decode .new sampleChunks).2.buf = [] :=
  ⟨by decide, decode_encodeFrame_fragmented sampleFrames (by decide) sampleChunks (by decide)⟩

end RoundTrip

end Teleprompter.FrameCodec
