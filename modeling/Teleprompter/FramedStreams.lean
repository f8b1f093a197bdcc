import Mathlib.Data.List.Basic

/-!
# Streams of coded items, read in pieces

Items are coded one after another into a stream of units, and a reader gets
the stream in arbitrary pieces. The items whose codes lie within the first
units of the stream are the completed ones. A reader that hands out exactly
the items completed by each call, and keeps exactly the units after them,
hands out the whole list over any way of cutting the stream.
-/

namespace Teleprompter.FramedStreams

variable {α β γ σ ε : Type}

section Slices

/-- The units from one index up to another. -/
def slice (buf : List β) (start stop : ℕ) : List β := (buf.drop start).take (stop - start)

/-- What lies within the units already received can be read off the stream. -/
theorem slice_of_visible {buf later stream : List β} {offset : ℕ}
    (h : buf.drop offset ++ later = stream) (start stop : ℕ) (hstop : stop ≤ buf.length - offset) :
    slice buf (offset + start) (offset + stop) = slice stream start stop := by
  have hwidth : offset + stop - (offset + start) = stop - start := by omega
  rcases Nat.le_total stop start with hempty | hle
  · have hzero : stop - start = 0 := by omega
    rw [slice, slice, hwidth, hzero, List.take_zero, List.take_zero]
  · have hstart : start ≤ (buf.drop offset).length := by
      rw [List.length_drop]
      omega
    have hwithin : stop - start ≤ ((buf.drop offset).drop start).length := by
      rw [List.length_drop, List.length_drop]
      omega
    rw [slice, slice, hwidth, ← h, List.drop_append_of_le_length hstart,
      List.take_append_of_le_length hwithin, List.drop_drop]

/-- The part of a concatenation behind a front of known length. -/
theorem slice_append (front part back : List β) :
    slice (front ++ (part ++ back)) front.length (front.length + part.length) = part := by
  rw [slice, List.drop_left, Nat.add_sub_cancel_left, List.take_left]

end Slices

section Completion

variable (code : α → List β)

/-- The codes of all items, in order. -/
def encodeAll (items : List α) : List β := items.flatMap code

/-- The items whose codes lie entirely within the first `n` units. -/
def completed : List α → ℕ → List α
  | [], _ => []
  | item :: items, n =>
    if (code item).length ≤ n then item :: completed items (n - (code item).length) else []

/-- The items after the completed ones. -/
def pending : List α → ℕ → List α
  | [], _ => []
  | item :: items, n =>
    if (code item).length ≤ n then pending items (n - (code item).length) else item :: items

/-- How many of the first `n` units the completed items take. -/
def consumed (items : List α) (n : ℕ) : ℕ := (encodeAll code (completed code items n)).length

variable {code}

@[simp] theorem encodeAll_nil : encodeAll code [] = [] := rfl

@[simp] theorem encodeAll_cons (item : α) (items : List α) :
    encodeAll code (item :: items) = code item ++ encodeAll code items := rfl

theorem encodeAll_append (before after : List α) :
    encodeAll code (before ++ after) = encodeAll code before ++ encodeAll code after :=
  List.flatMap_append

/-- An item that fits is completed, and the rest is judged after it. -/
theorem completed_cons_of_le {item : α} {n : ℕ} (items : List α) (h : (code item).length ≤ n) :
    completed code (item :: items) n =
      item :: completed code items (n - (code item).length) := if_pos h

/-- An item that does not fit completes nothing. -/
theorem completed_cons_of_lt {item : α} {n : ℕ} (items : List α) (h : n < (code item).length) :
    completed code (item :: items) n = [] := if_neg (Nat.not_le.mpr h)

theorem consumed_cons_of_le {item : α} {n : ℕ} (items : List α) (h : (code item).length ≤ n) :
    consumed code (item :: items) n =
      (code item).length + consumed code items (n - (code item).length) := by
  rw [consumed, completed_cons_of_le items h, encodeAll_cons, List.length_append, consumed]

theorem consumed_cons_of_lt {item : α} {n : ℕ} (items : List α) (h : n < (code item).length) :
    consumed code (item :: items) n = 0 := by
  rw [consumed, completed_cons_of_lt items h, encodeAll_nil, List.length_nil]

/-- Completed and pending items make up the list. -/
theorem completed_append_pending (code : α → List β) (items : List α) (n : ℕ) :
    completed code items n ++ pending code items n = items := by
  induction items generalizing n with
  | nil => rfl
  | cons item items ih =>
    rw [completed, pending]
    split
    · rw [List.cons_append, ih]
    · rfl

/-- Completed items lie within the units they are judged by. -/
theorem consumed_le (code : α → List β) (items : List α) (n : ℕ) : consumed code items n ≤ n := by
  induction items generalizing n with
  | nil => exact Nat.zero_le n
  | cons item items ih =>
    rcases Nat.lt_or_ge n (code item).length with hlt | hle
    · rw [consumed_cons_of_lt items hlt]
      exact Nat.zero_le n
    · rw [consumed_cons_of_le items hle]
      have hrest := ih (n - (code item).length)
      omega

/-- More units complete the items that fewer units completed, and then what
they complete of the pending ones. -/
theorem completed_add (code : α → List β) (items : List α) (n m : ℕ) :
    completed code items (n + m) =
      completed code items n ++
        completed code (pending code items n) (n - consumed code items n + m) := by
  induction items generalizing n with
  | nil => rfl
  | cons item items ih =>
    rcases Nat.lt_or_ge n (code item).length with hlt | hle
    · rw [completed_cons_of_lt items hlt, consumed_cons_of_lt items hlt, pending,
        if_neg (Nat.not_le.mpr hlt), List.nil_append, Nat.sub_zero]
    · have hmore : (code item).length ≤ n + m := Nat.le_add_right_of_le hle
      have hleft : n + m - (code item).length = n - (code item).length + m := by omega
      have hkept : n - ((code item).length + consumed code items (n - (code item).length)) =
          n - (code item).length - consumed code items (n - (code item).length) := by omega
      rw [completed_cons_of_le items hmore, completed_cons_of_le items hle,
        consumed_cons_of_le items hle, pending, if_pos hle, hleft, ih, List.cons_append, hkept]

/-- The units kept after the completed items complete nothing more. -/
theorem completed_pending (items : List α) (n : ℕ) :
    completed code (pending code items n) (n - consumed code items n) = [] := by
  have hsplit := completed_add code items n 0
  rw [Nat.add_zero, Nat.add_zero] at hsplit
  exact List.append_right_eq_self.mp hsplit.symm

/-- All units complete all items. -/
theorem completed_length (code : α → List β) (items : List α) :
    completed code items (encodeAll code items).length = items := by
  induction items with
  | nil => rfl
  | cons item items ih =>
    have hle : (code item).length ≤ (encodeAll code (item :: items)).length := by
      rw [encodeAll_cons, List.length_append]
      exact Nat.le_add_right _ _
    have hrest : (encodeAll code (item :: items)).length - (code item).length =
        (encodeAll code items).length := by
      rw [encodeAll_cons, List.length_append, Nat.add_sub_cancel_left]
    rw [completed_cons_of_le items hle, hrest, ih]

/-- Dropping the completed items from a stream leaves the pending ones. -/
theorem drop_consumed {items : List α} {front later : List β}
    (h : front ++ later = encodeAll code items) :
    front.drop (consumed code items front.length) ++ later =
      encodeAll code (pending code items front.length) := by
  have hle := consumed_le code items front.length
  have hsplit := congrArg (encodeAll code)
    (completed_append_pending code items front.length)
  rw [encodeAll_append] at hsplit
  rw [← List.drop_append_of_le_length hle, h, ← hsplit]
  exact List.drop_left

end Completion

section Feeding

/-- The answers to a list of pieces, and the reader after them. -/
def feedAll (feed : σ → List β → Except ε (List γ) × σ) :
    σ → List (List β) → List (Except ε (List γ)) × σ
  | s, [] => ([], s)
  | s, chunk :: chunks =>
    let rest := feedAll feed (feed s chunk).2 chunks
    ((feed s chunk).1 :: rest.1, rest.2)

/-- A reader of coded items: on a part of a coded list it hands out a view of
the items that are complete, and keeps the units after them. -/
def Conforms (code : α → List β) (view : α → γ) (buffer : σ → List β)
    (feed : σ → List β → Except ε (List γ) × σ) (valid : α → Prop) : Prop :=
  ∀ s chunk later items, (∀ item ∈ items, valid item) →
    buffer s ++ chunk ++ later = encodeAll code items →
    (feed s chunk).1 = .ok ((completed code items (buffer s ++ chunk).length).map view) ∧
      buffer (feed s chunk).2 =
        (buffer s ++ chunk).drop (consumed code items (buffer s ++ chunk).length)

/-- What a whole feeding hands out: one list per piece, at every point the
items completed so far, at the end all items and an empty buffer. -/
structure Delivers (code : α → List β) (view : α → γ) (buffer : σ → List β)
    (feed : σ → List β → Except ε (List γ) × σ) (s : σ) (items : List α)
    (chunks : List (List β)) (outputs : List (List γ)) : Prop where
  /-- No call fails. -/
  answers : (feedAll feed s chunks).1 = outputs.map .ok
  /-- After each piece, exactly the items completed so far were handed out. -/
  progress : ∀ k ≤ chunks.length, (outputs.take k).flatten =
    (completed code items (buffer s ++ (chunks.take k).flatten).length).map view
  /-- In the end nothing is left over. -/
  drained : buffer (feedAll feed s chunks).2 = []

/-- Every piece gets one answer. -/
theorem feedAll_length (feed : σ → List β → Except ε (List γ) × σ) (s : σ)
    (chunks : List (List β)) : (feedAll feed s chunks).1.length = chunks.length := by
  induction chunks generalizing s with
  | nil => rfl
  | cons chunk chunks ih => rw [feedAll, List.length_cons, List.length_cons, ih]

/-- In total, a whole feeding hands out every item in order. -/
theorem Delivers.flatten_eq {code : α → List β} {view : α → γ} {buffer : σ → List β}
    {feed : σ → List β → Except ε (List γ) × σ} {s : σ} {items : List α}
    {chunks : List (List β)} {outputs : List (List γ)}
    (h : Delivers code view buffer feed s items chunks outputs)
    (hstream : buffer s ++ chunks.flatten = encodeAll code items) :
    outputs.flatten = items.map view := by
  have hcount : outputs.length = chunks.length := by
    rw [← feedAll_length feed s chunks, h.answers, List.length_map]
  have hall := h.progress chunks.length (Nat.le_refl _)
  rw [← hcount, List.take_length, hcount, List.take_length, hstream, completed_length] at hall
  exact hall

/-- A conforming reader delivers every coded list over every way of cutting
it, provided nothing in its buffer is complete at the start. -/
theorem Conforms.delivers {code : α → List β} {view : α → γ} {buffer : σ → List β}
    {feed : σ → List β → Except ε (List γ) × σ} {valid : α → Prop}
    (hfeed : Conforms code view buffer feed valid) {s : σ} {items : List α}
    {chunks : List (List β)} (hvalid : ∀ item ∈ items, valid item)
    (hstream : buffer s ++ chunks.flatten = encodeAll code items)
    (hstart : completed code items (buffer s).length = []) :
    ∃ outputs, Delivers code view buffer feed s items chunks outputs := by
  induction chunks generalizing s items with
  | nil =>
    rw [List.flatten_nil, List.append_nil] at hstream
    have hitems : items = [] := by
      rw [← completed_length code items, ← hstream]
      exact hstart
    refine ⟨[], rfl, fun k hk => ?_, ?_⟩
    · rw [Nat.le_zero.mp hk, List.take_zero, List.take_zero, List.flatten_nil, List.flatten_nil,
        List.append_nil, hstart, List.map_nil]
    · rw [hitems] at hstream
      exact hstream
  | cons chunk chunks ih =>
    have hfront : buffer s ++ chunk ++ chunks.flatten = encodeAll code items := by
      rw [List.append_assoc, ← List.flatten_cons]
      exact hstream
    obtain ⟨hanswer, hbuffer⟩ := hfeed s chunk chunks.flatten items hvalid hfront
    have hvalid' : ∀ item ∈ pending code items (buffer s ++ chunk).length, valid item := by
      intro item hmem
      refine hvalid item ?_
      rw [← completed_append_pending code items (buffer s ++ chunk).length]
      exact List.mem_append_right _ hmem
    have hstream' : buffer (feed s chunk).2 ++ chunks.flatten =
        encodeAll code (pending code items (buffer s ++ chunk).length) := by
      rw [hbuffer]
      exact drop_consumed hfront
    have hlength : (buffer (feed s chunk).2).length = (buffer s ++ chunk).length -
        consumed code items (buffer s ++ chunk).length := by
      rw [hbuffer, List.length_drop]
    have hstart' : completed code (pending code items (buffer s ++ chunk).length)
        (buffer (feed s chunk).2).length = [] := by
      rw [hlength]
      exact completed_pending items _
    obtain ⟨outputs, hrest⟩ := ih hvalid' hstream' hstart'
    refine ⟨(completed code items (buffer s ++ chunk).length).map view :: outputs, ?_, ?_,
      hrest.drained⟩
    · rw [feedAll, List.map_cons, hanswer, hrest.answers]
    · intro k hk
      cases k with
      | zero =>
        rw [List.take_zero, List.take_zero, List.flatten_nil, List.flatten_nil, List.append_nil,
          hstart, List.map_nil]
      | succ k =>
        have hkept : (buffer (feed s chunk).2 ++ (chunks.take k).flatten).length =
            (buffer s ++ chunk).length - consumed code items (buffer s ++ chunk).length +
              (chunks.take k).flatten.length := by
          rw [List.length_append, hlength]
        have hall : (buffer s ++ (chunk ++ (chunks.take k).flatten)).length =
            (buffer s ++ chunk).length + (chunks.take k).flatten.length := by
          rw [← List.append_assoc, List.length_append]
        rw [List.take_succ_cons, List.take_succ_cons, List.flatten_cons, List.flatten_cons,
          hrest.progress k (Nat.le_of_succ_le_succ hk), hkept, hall,
          completed_add code items (buffer s ++ chunk).length, List.map_append]

end Feeding

end Teleprompter.FramedStreams
