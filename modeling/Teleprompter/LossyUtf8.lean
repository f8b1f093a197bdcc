import Mathlib.Algebra.Order.Ring.Nat
import Mathlib.Tactic.SplitIfs

/-!
# Lossy decoding of UTF-8

Bytes are read as UTF-8 one at a time. A sequence that turns out wrong is
replaced by one replacement character, and the byte that proved it wrong begins
anew; so is a sequence that the end of the bytes cuts off. Bytes that arrive in
chunks may be decoded chunk by chunk. This gives the same text exactly when no
chunk ends inside a sequence that the bytes behind it go on with.
-/

namespace Teleprompter.LossyUtf8

section Decoder

/-- What stands for bytes that are no character. -/
def replacement : Char := '\ufffd'

/-- Bytes of a code point. -/
def encodedLength (value : ℕ) : ℕ :=
  if value < 0x80 then 1 else if value < 0x800 then 2 else if value < 0x10000 then 3 else 4

/-- A sequence that has begun. Every way to go on gives a code point of the right length. -/
structure Pending where
  /-- Bounds of the next byte. -/
  low : ℕ
  high : ℕ
  /-- Bytes behind the next one. -/
  owed : ℕ
  /-- The bits so far. -/
  code : ℕ
  /-- The bytes so far. -/
  seen : ℕ
  low_ge : 0x80 ≤ low
  high_le : high ≤ 0xbf
  spans : ∀ value, (code * 64 + (low - 0x80)) * 64 ^ owed ≤ value →
    value < (code * 64 + (high - 0x7f)) * 64 ^ owed →
      value.isValidChar ∧ encodedLength value = seen + owed + 1
  seen_le : seen + owed ≤ 3

/-- The next byte goes on with the sequence. -/
def Pending.Accepts (p : Pending) (b : UInt8) : Prop := p.low ≤ b.toNat ∧ b.toNat ≤ p.high

instance (p : Pending) (b : UInt8) : Decidable (p.Accepts b) := inferInstanceAs (Decidable (_ ∧ _))

/-- The code with the bits of the next byte. -/
def Pending.codeWith (p : Pending) (b : UInt8) : ℕ := p.code * 64 + (b.toNat - 0x80)

/-- The sequence that a first byte begins. The bounds of the second byte leave out longer
forms than needed, surrogates and what is above the last code point. -/
def lead (b : ℕ) : Option Pending :=
  if h : 0xc2 ≤ b ∧ b ≤ 0xdf then
    some ⟨0x80, 0xbf, 0, b - 0xc0, 1, by omega, by omega, by
      intro value hlow hhigh
      simp only [Nat.isValidChar, encodedLength]
      split_ifs <;> omega, by omega⟩
  else if h : b = 0xe0 then
    some ⟨0xa0, 0xbf, 1, 0, 1, by omega, by omega, by
      intro value hlow hhigh
      simp only [Nat.isValidChar, encodedLength]
      split_ifs <;> omega, by omega⟩
  else if h : 0xe1 ≤ b ∧ b ≤ 0xec ∨ 0xee ≤ b ∧ b ≤ 0xef then
    some ⟨0x80, 0xbf, 1, b - 0xe0, 1, by omega, by omega, by
      intro value hlow hhigh
      simp only [Nat.isValidChar, encodedLength]
      split_ifs <;> omega, by omega⟩
  else if h : b = 0xed then
    some ⟨0x80, 0x9f, 1, 13, 1, by omega, by omega, by
      intro value hlow hhigh
      simp only [Nat.isValidChar, encodedLength]
      split_ifs <;> omega, by omega⟩
  else if h : b = 0xf0 then
    some ⟨0x90, 0xbf, 2, 0, 1, by omega, by omega, by
      intro value hlow hhigh
      simp only [Nat.isValidChar, encodedLength]
      split_ifs <;> omega, by omega⟩
  else if h : 0xf1 ≤ b ∧ b ≤ 0xf3 then
    some ⟨0x80, 0xbf, 2, b - 0xf0, 1, by omega, by omega, by
      intro value hlow hhigh
      simp only [Nat.isValidChar, encodedLength]
      split_ifs <;> omega, by omega⟩
  else if h : b = 0xf4 then
    some ⟨0x80, 0x8f, 2, 4, 1, by omega, by omega, by
      intro value hlow hhigh
      simp only [Nat.isValidChar, encodedLength]
      split_ifs <;> omega, by omega⟩
  else none

theorem owed_pow (n : ℕ) : 64 ^ (n + 1) = 64 * 64 ^ n := by
  rw [Nat.pow_succ, Nat.mul_comm]

/-- A byte narrows the span of the codes. -/
theorem span_next {code low high b n value : ℕ} (hlow : 0x80 ≤ low) (hb : low ≤ b ∧ b ≤ high)
    (hfirst : (code * 64 + (b - 0x80)) * 64 * 64 ^ n ≤ value)
    (hlast : value < ((code * 64 + (b - 0x80)) * 64 + 64) * 64 ^ n) :
    (code * 64 + (low - 0x80)) * 64 ^ (n + 1) ≤ value ∧
      value < (code * 64 + (high - 0x7f)) * 64 ^ (n + 1) := by
  rw [owed_pow, ← Nat.mul_assoc, ← Nat.mul_assoc]
  constructor
  · exact Nat.le_trans (Nat.mul_le_mul_right _ (by omega)) hfirst
  · exact Nat.lt_of_lt_of_le hlast (Nat.mul_le_mul_right _ (by omega))

/-- The sequence behind a byte that is not its last one. -/
def Pending.next (p : Pending) (b : UInt8) (n : ℕ) (howed : p.owed = n + 1) (h : p.Accepts b) :
    Pending :=
  ⟨0x80, 0xbf, n, p.codeWith b, p.seen + 1, Nat.le_refl _, Nat.le_refl _, by
    intro value hlow hhigh
    simp only [Nat.sub_self, Nat.add_zero, Nat.reduceSub] at hlow hhigh
    have hspan := span_next p.low_ge h hlow hhigh
    rw [← howed] at hspan
    have hvalue := p.spans value hspan.1 hspan.2
    exact ⟨hvalue.1, by omega⟩, by have := p.seen_le; omega⟩

/-- Where the decoder stands. -/
inductive State where
  /-- Between two sequences. -/
  | between
  /-- Inside a sequence. -/
  | inside (p : Pending)

/-- What the end of the bytes adds. -/
def State.flush : State → List Char
  | .between => []
  | .inside _ => [replacement]

/-- The next bytes go on with a sequence. -/
def State.Continues : State → List UInt8 → Prop
  | .inside p, b :: _ => p.Accepts b
  | _, _ => False

/-- A byte that stands at the beginning of a sequence. -/
def begin (b : UInt8) : List Char × State :=
  if b.toNat < 0x80 then ([Char.ofNat b.toNat], .between)
  else
    match lead b.toNat with
    | some p => ([], .inside p)
    | none => ([replacement], .between)

/-- What a byte writes, and where the decoder goes. -/
def step : State → UInt8 → List Char × State
  | .between, b => begin b
  | .inside p, b =>
    if h : p.Accepts b then
      match howed : p.owed with
      | 0 => ([Char.ofNat (p.codeWith b)], .between)
      | n + 1 => ([], .inside (p.next b n howed h))
    else (replacement :: (begin b).1, (begin b).2)

/-- The text of the bytes from a state on. -/
def decodeFrom : State → List UInt8 → List Char
  | s, [] => s.flush
  | s, b :: bytes => (step s b).1 ++ decodeFrom (step s b).2 bytes

/-- Where the bytes lead. -/
def stateAfter : State → List UInt8 → State
  | s, [] => s
  | s, b :: bytes => stateAfter (step s b).2 bytes

/-- The text of bytes, with replacement characters for what is not UTF-8. -/
def fromUtf8Lossy (bytes : List UInt8) : List Char := decodeFrom .between bytes

/-- The bytes of a text. -/
def encode (text : List Char) : List UInt8 := text.flatMap String.utf8EncodeChar

end Decoder

example : fromUtf8Lossy [0x61, 0xe2, 0x82, 0xac, 0xe2, 0x82, 0x62] =
    ['a', '€', replacement, 'b'] := by decide

section Chunks

/-- The text of the bytes that are settled when they end. -/
def written : State → List UInt8 → List Char
  | _, [] => []
  | s, b :: bytes => (step s b).1 ++ written (step s b).2 bytes

theorem decodeFrom_eq (s : State) (bytes : List UInt8) :
    decodeFrom s bytes = written s bytes ++ (stateAfter s bytes).flush := by
  induction bytes generalizing s with
  | nil => rfl
  | cons b bytes ih => rw [decodeFrom, written, stateAfter, ih, List.append_assoc]

/-- Decoding goes on from the state that the first bytes lead to. -/
theorem decodeFrom_append (s : State) (bytes more : List UInt8) :
    decodeFrom s (bytes ++ more) = written s bytes ++ decodeFrom (stateAfter s bytes) more := by
  induction bytes generalizing s with
  | nil => rfl
  | cons b bytes ih =>
    rw [List.cons_append, decodeFrom, written, stateAfter, ih, List.append_assoc]

/-- A byte that only goes on with sequences begins none. -/
theorem begin_of_tail {b : UInt8} (hlow : 0x80 ≤ b.toNat) (hhigh : b.toNat ≤ 0xbf) :
    begin b = ([replacement], .between) := by
  have hlead : lead b.toNat = none := by
    simp only [lead]
    split_ifs <;> first | rfl | omega
  rw [begin, if_neg (by omega), hlead]

theorem step_of_not_accepts {p : Pending} {b : UInt8} (h : ¬ p.Accepts b) :
    step (.inside p) b = (replacement :: (begin b).1, (begin b).2) := by
  rw [step, dif_neg h]

/-- A byte that is accepted ends the sequence or is the next one of it. -/
theorem step_of_accepts {p : Pending} {b : UInt8} (h : p.Accepts b) :
    p.owed = 0 ∧ step (.inside p) b = ([Char.ofNat (p.codeWith b)], .between) ∨
      ∃ n howed, step (.inside p) b = ([], .inside (p.next b n howed h)) := by
  rw [step, dif_pos h]
  split
  · exact .inl ⟨by assumption, rfl⟩
  · exact .inr ⟨_, by assumption, rfl⟩

/-- What does not go on with a sequence is decoded as if it stood alone. -/
theorem decodeFrom_of_not_continues {s : State} {more : List UInt8} (h : ¬ s.Continues more) :
    decodeFrom s more = s.flush ++ decodeFrom .between more := by
  cases s with
  | between => rfl
  | inside p =>
    cases more with
    | nil => rfl
    | cons b more =>
      rw [decodeFrom, step_of_not_accepts h]
      rfl

/-- What goes on with a sequence gives fewer characters than apart from it. -/
theorem decodeFrom_length_lt {s : State} {more : List UInt8} (h : s.Continues more) :
    (decodeFrom s more).length < (s.flush ++ decodeFrom .between more).length := by
  induction more generalizing s with
  | nil => cases s <;> exact h.elim
  | cons b more ih =>
    cases s with
    | between => exact h.elim
    | inside p =>
      have haccepts : p.Accepts b := h
      have hlow := p.low_ge
      have hhigh := p.high_le
      have hapart : decodeFrom .between (b :: more) = replacement :: decodeFrom .between more := by
        rw [Pending.Accepts] at haccepts
        rw [decodeFrom, step, begin_of_tail (by omega) (by omega)]
        rfl
      rw [hapart, decodeFrom]
      rcases step_of_accepts haccepts with ⟨-, hstep⟩ | ⟨n, howed, hstep⟩
      · rw [hstep]
        simp [State.flush]
      · rw [hstep]
        by_cases hmore : (State.inside (p.next b n howed haccepts)).Continues more
        · have hshort := ih hmore
          simp only [State.flush, List.nil_append, List.length_append, List.length_cons,
            List.length_nil] at hshort ⊢
          omega
        · rw [decodeFrom_of_not_continues hmore]
          simp [State.flush]

/-- The bytes behind a chunk go on with a sequence that it leaves open. -/
def Cut (chunk more : List UInt8) : Prop := (stateAfter .between chunk).Continues more

/-- A chunk and the bytes behind it, both decoded alone. -/
theorem parts_eq (chunk more : List UInt8) : fromUtf8Lossy chunk ++ fromUtf8Lossy more =
    written .between chunk ++ ((stateAfter .between chunk).flush ++ fromUtf8Lossy more) := by
  rw [fromUtf8Lossy, decodeFrom_eq, List.append_assoc]

/-- A chunk that is not cut off may be decoded alone. -/
theorem fromUtf8Lossy_append {chunk more : List UInt8} (h : ¬ Cut chunk more) :
    fromUtf8Lossy (chunk ++ more) = fromUtf8Lossy chunk ++ fromUtf8Lossy more := by
  rw [parts_eq, fromUtf8Lossy, decodeFrom_append, decodeFrom_of_not_continues h, fromUtf8Lossy]

/-- A chunk that is cut off gives more characters alone. -/
theorem fromUtf8Lossy_append_lt {chunk more : List UInt8} (h : Cut chunk more) :
    (fromUtf8Lossy (chunk ++ more)).length <
      (fromUtf8Lossy chunk ++ fromUtf8Lossy more).length := by
  have hlt := decodeFrom_length_lt h
  rw [parts_eq, fromUtf8Lossy, decodeFrom_append, List.length_append, List.length_append]
  rw [← fromUtf8Lossy] at hlt
  omega

/-- No chunk ends inside a sequence that the bytes behind it go on with. -/
def Uncut (chunks : List (List UInt8)) : Prop :=
  ∀ front chunk back, chunks = front ++ chunk :: back → ¬ Cut chunk back.flatten

theorem uncut_cons {chunk : List UInt8} {chunks : List (List UInt8)} :
    Uncut (chunk :: chunks) ↔ ¬ Cut chunk chunks.flatten ∧ Uncut chunks := by
  constructor
  · intro h
    exact ⟨h [] chunk chunks rfl, fun front c back hsplit =>
      h (chunk :: front) c back (by rw [hsplit, List.cons_append])⟩
  · rintro ⟨hhead, htail⟩ front c back hsplit
    cases front with
    | nil =>
      rw [List.nil_append, List.cons.injEq] at hsplit
      rw [← hsplit.1, ← hsplit.2]
      exact hhead
    | cons d front =>
      rw [List.cons_append, List.cons.injEq] at hsplit
      exact htail front c back hsplit.2

/-- Chunks decoded one by one give at least as many characters, and the same text exactly
when no sequence is cut. -/
theorem flatMap_fromUtf8Lossy (chunks : List (List UInt8)) :
    (fromUtf8Lossy chunks.flatten).length ≤ (chunks.flatMap fromUtf8Lossy).length ∧
      (chunks.flatMap fromUtf8Lossy = fromUtf8Lossy chunks.flatten ↔ Uncut chunks) := by
  induction chunks with
  | nil =>
    refine ⟨Nat.le_refl _, iff_of_true rfl ?_⟩
    intro front chunk back hsplit
    simp at hsplit
  | cons chunk chunks ih =>
    obtain ⟨hle, hiff⟩ := ih
    rw [List.flatten_cons, List.flatMap_cons, uncut_cons]
    by_cases hcut : Cut chunk chunks.flatten
    · have hlt := fromUtf8Lossy_append_lt hcut
      rw [List.length_append] at hlt ⊢
      refine ⟨by omega, iff_of_false ?_ fun h => h.1 hcut⟩
      intro heq
      rw [← heq, List.length_append] at hlt
      omega
    · rw [fromUtf8Lossy_append hcut, List.append_cancel_left_eq, hiff, List.length_append,
        List.length_append]
      exact ⟨by omega, fun h => ⟨hcut, h⟩, fun h => h.2⟩

end Chunks

section Encoding

/-- The bytes behind the first one, so many behind the next. -/
def tailBytes : ℕ → ℕ → List UInt8
  | 0, value => [UInt8.ofNat (value % 64 + 0x80)]
  | n + 1, value => UInt8.ofNat (value / 64 ^ (n + 1) % 64 + 0x80) :: tailBytes n value

/-- The codes that a sequence can come to. -/
def Pending.Spans (p : Pending) (value : ℕ) : Prop :=
  (p.code * 64 + (p.low - 0x80)) * 64 ^ p.owed ≤ value ∧
    value < (p.code * 64 + (p.high - 0x7f)) * 64 ^ p.owed

theorem toNat_tailByte {digit : ℕ} (h : digit < 64) :
    (UInt8.ofNat (digit + 0x80)).toNat = digit + 0x80 := by
  rw [UInt8.toNat_ofNat']
  omega

/-- The next byte of a code in the span is accepted and gives the next digit. -/
theorem accepts_of_spans {p : Pending} {value : ℕ} (h : p.Spans value) :
    p.Accepts (UInt8.ofNat (value / 64 ^ p.owed % 64 + 0x80)) ∧
      p.codeWith (UInt8.ofNat (value / 64 ^ p.owed % 64 + 0x80)) = value / 64 ^ p.owed := by
  have hlow := p.low_ge
  have hhigh := p.high_le
  rw [Pending.Spans, ← Nat.le_div_iff_mul_le (Nat.pow_pos (by decide)),
    ← Nat.div_lt_iff_lt_mul (Nat.pow_pos (by decide))] at h
  have hdigit := Nat.mod_lt (value / 64 ^ p.owed) (show 0 < 64 by decide)
  generalize value / 64 ^ p.owed = digits at h hdigit ⊢
  have hbyte := toNat_tailByte hdigit
  have hcode : p.codeWith (UInt8.ofNat (digits % 64 + 0x80)) =
      p.code * 64 + ((UInt8.ofNat (digits % 64 + 0x80)).toNat - 0x80) := rfl
  exact ⟨⟨by omega, by omega⟩, hcode.trans (by omega)⟩

/-- The bytes of a code in the span give its character. -/
theorem decodeFrom_tailBytes {p : Pending} {value : ℕ} (h : p.Spans value) (bytes : List UInt8) :
    decodeFrom (.inside p) (tailBytes p.owed value ++ bytes) =
      Char.ofNat value :: decodeFrom .between bytes := by
  induction howed : p.owed generalizing p with
  | zero =>
    obtain ⟨haccepts, hcode⟩ := accepts_of_spans h
    rw [howed, Nat.pow_zero, Nat.div_one] at haccepts hcode
    rw [tailBytes, List.cons_append, List.nil_append, decodeFrom]
    rcases step_of_accepts haccepts with ⟨-, hstep⟩ | ⟨n, hsucc, -⟩
    · rw [hstep, hcode]
      rfl
    · omega
  | succ n ih =>
    obtain ⟨haccepts, hcode⟩ := accepts_of_spans h
    rw [howed] at haccepts hcode
    rw [tailBytes, List.cons_append, decodeFrom]
    rcases step_of_accepts haccepts with ⟨hzero, -⟩ | ⟨m, hsucc, hstep⟩
    · omega
    · obtain rfl : m = n := by omega
      rw [hstep]
      have hspans : (p.next _ m hsucc haccepts).Spans value := by
        have hpow : 0 < 64 ^ (m + 1) := Nat.pow_pos (by decide)
        have hdiv := Nat.div_add_mod value (64 ^ (m + 1))
        have hmod := Nat.mod_lt value hpow
        simp only [Pending.Spans, Pending.next, hcode, Nat.sub_self, Nat.add_zero, Nat.reduceSub]
        rw [owed_pow] at hdiv hmod ⊢
        rw [Nat.mul_assoc, Nat.add_mul, Nat.mul_assoc]
        rw [Nat.mul_comm] at hdiv
        omega
      exact ih hspans rfl

/-- The sequence of a first byte, from the branch that the byte takes. -/
theorem lead_eq {b : ℕ} {low high owed code : ℕ}
    (h : 0xc2 ≤ b ∧ b ≤ 0xdf ∧ low = 0x80 ∧ high = 0xbf ∧ owed = 0 ∧ code = b - 0xc0 ∨
      b = 0xe0 ∧ low = 0xa0 ∧ high = 0xbf ∧ owed = 1 ∧ code = 0 ∨
      (0xe1 ≤ b ∧ b ≤ 0xec ∨ 0xee ≤ b ∧ b ≤ 0xef) ∧ low = 0x80 ∧ high = 0xbf ∧ owed = 1 ∧
        code = b - 0xe0 ∨
      b = 0xed ∧ low = 0x80 ∧ high = 0x9f ∧ owed = 1 ∧ code = 13 ∨
      b = 0xf0 ∧ low = 0x90 ∧ high = 0xbf ∧ owed = 2 ∧ code = 0 ∨
      (0xf1 ≤ b ∧ b ≤ 0xf3) ∧ low = 0x80 ∧ high = 0xbf ∧ owed = 2 ∧ code = b - 0xf0 ∨
      b = 0xf4 ∧ low = 0x80 ∧ high = 0x8f ∧ owed = 2 ∧ code = 4) :
    ∃ p, lead b = some p ∧ p.low = low ∧ p.high = high ∧ p.owed = owed ∧ p.code = code := by
  simp only [lead]
  split_ifs <;> first
    | omega
    | exact ⟨_, rfl, by simp only; omega, by simp only; omega, by simp only; omega,
        by simp only; omega⟩

/-- A sequence of known fields has the codes between two bounds in its span. -/
theorem exists_spans {first low high owed code value : ℕ}
    (hlead : ∃ p, lead first = some p ∧ p.low = low ∧ p.high = high ∧ p.owed = owed ∧
      p.code = code)
    (hfrom : (code * 64 + (low - 0x80)) * 64 ^ owed ≤ value)
    (hto : value < (code * 64 + (high - 0x7f)) * 64 ^ owed) :
    ∃ p, lead first = some p ∧ p.owed = owed ∧ p.Spans value := by
  obtain ⟨p, hsome, rfl, rfl, rfl, rfl⟩ := hlead
  exact ⟨p, hsome, rfl, hfrom, hto⟩

/-- The first byte of a code of two bytes. -/
theorem exists_lead_two {value : ℕ} (hlow : 0x80 ≤ value) (hhigh : value < 0x800) :
    ∃ p, lead (value / 64 % 32 + 0xc0) = some p ∧ p.owed = 0 ∧ p.Spans value :=
  exists_spans (lead_eq (.inl ⟨by omega, by omega, rfl, rfl, rfl, rfl⟩)) (by omega) (by omega)

/-- The first byte of a code of three bytes. -/
theorem exists_lead_three {value : ℕ} (hvalid : value.isValidChar) (hlow : 0x800 ≤ value)
    (hhigh : value < 0x10000) :
    ∃ p, lead (value / 4096 % 16 + 0xe0) = some p ∧ p.owed = 1 ∧ p.Spans value := by
  rw [Nat.isValidChar] at hvalid
  by_cases hfirst : value / 4096 % 16 = 0
  · exact exists_spans (lead_eq (.inr (.inl ⟨by omega, rfl, rfl, rfl, rfl⟩))) (by omega) (by omega)
  by_cases hsurrogate : value / 4096 % 16 = 13
  · exact exists_spans (lead_eq (.inr (.inr (.inr (.inl ⟨by omega, rfl, rfl, rfl, rfl⟩)))))
      (by omega) (by omega)
  · exact exists_spans (lead_eq (.inr (.inr (.inl ⟨by omega, rfl, rfl, rfl, rfl⟩)))) (by omega)
      (by omega)

/-- The first byte of a code of four bytes. -/
theorem exists_lead_four {value : ℕ} (hvalid : value.isValidChar) (hlow : 0x10000 ≤ value) :
    ∃ p, lead (value / 262144 % 8 + 0xf0) = some p ∧ p.owed = 2 ∧ p.Spans value := by
  rw [Nat.isValidChar] at hvalid
  by_cases hfirst : value / 262144 % 8 = 0
  · exact exists_spans (lead_eq (.inr (.inr (.inr (.inr (.inl ⟨by omega, rfl, rfl, rfl, rfl⟩))))))
      (by omega) (by omega)
  by_cases hlast : value / 262144 % 8 = 4
  · exact exists_spans (lead_eq (.inr (.inr (.inr (.inr (.inr (.inr ⟨by omega, rfl, rfl, rfl,
      rfl⟩))))))) (by omega) (by omega)
  · exact exists_spans (lead_eq (.inr (.inr (.inr (.inr (.inr (.inl ⟨by omega, rfl, rfl, rfl,
      rfl⟩))))))) (by omega) (by omega)

/-- A first byte with the bytes behind it. -/
theorem decodeFrom_lead {first value n : ℕ} (hfirst : 0x80 ≤ first) (hbyte : first < 256)
    (hlead : ∃ p, lead first = some p ∧ p.owed = n ∧ p.Spans value) (bytes : List UInt8) :
    decodeFrom .between (UInt8.ofNat first :: (tailBytes n value ++ bytes)) =
      Char.ofNat value :: decodeFrom .between bytes := by
  obtain ⟨p, hsome, rfl, hspans⟩ := hlead
  have hnat : (UInt8.ofNat first).toNat = first := UInt8.toNat_ofNat_of_lt' hbyte
  rw [decodeFrom, step, begin, hnat, if_neg (by omega), hsome]
  exact decodeFrom_tailBytes hspans bytes

/-- The bytes of a character give the character. -/
theorem decodeFrom_encode (c : Char) (bytes : List UInt8) :
    decodeFrom .between (String.utf8EncodeChar c ++ bytes) = c :: decodeFrom .between bytes := by
  have hvalid : c.val.toNat.isValidChar := c.valid
  have hchar : Char.ofNat c.val.toNat = c := Char.ofNat_toNat c
  generalize hvalue : c.val.toNat = value at hvalid hchar
  rw [String.utf8EncodeChar, hvalue]
  by_cases hone : value ≤ 0x7f
  · have hnat : (UInt8.ofNat value).toNat = value := UInt8.toNat_ofNat_of_lt' (by
      simp only [UInt8.size]
      omega)
    rw [if_pos hone, List.cons_append, List.nil_append, decodeFrom, step, begin, hnat,
      if_pos (by omega), hchar]
    rfl
  by_cases htwo : value ≤ 0x7ff
  · rw [if_neg hone, if_pos htwo, ← hchar]
    exact decodeFrom_lead (by omega) (by omega) (exists_lead_two (by omega) (by omega)) bytes
  by_cases hthree : value ≤ 0xffff
  · rw [if_neg hone, if_neg htwo, if_pos hthree, ← hchar]
    exact decodeFrom_lead (by omega) (by omega)
      (exists_lead_three hvalid (by omega) (by omega)) bytes
  · rw [if_neg hone, if_neg htwo, if_neg hthree, ← hchar]
    exact decodeFrom_lead (by omega) (by omega) (exists_lead_four hvalid (by omega)) bytes

/-- A text is read back from its bytes. -/
theorem fromUtf8Lossy_encode (text : List Char) : fromUtf8Lossy (encode text) = text := by
  induction text with
  | nil => rfl
  | cons c text ih =>
    rw [encode, List.flatMap_cons, fromUtf8Lossy, decodeFrom_encode, ← fromUtf8Lossy]
    exact congrArg (List.cons c) ih

end Encoding

section Lengths

/-- The bytes of the sequence that has begun. -/
def State.seen : State → ℕ
  | .between => 0
  | .inside p => p.seen

theorem length_utf8EncodeChar_ofNat {value : ℕ} (h : value.isValidChar) :
    (String.utf8EncodeChar (Char.ofNat value)).length = encodedLength value := by
  have hval : (Char.ofNat value).val.toNat = value := by
    rw [Char.ofNat, dif_pos h]
    rfl
  rw [String.utf8EncodeChar, hval, encodedLength]
  by_cases hone : value ≤ 0x7f
  · rw [if_pos hone, if_pos (by omega)]
    rfl
  by_cases htwo : value ≤ 0x7ff
  · rw [if_neg hone, if_pos htwo, if_neg (by omega), if_pos (by omega)]
    rfl
  by_cases hthree : value ≤ 0xffff
  · rw [if_neg hone, if_neg htwo, if_pos hthree, if_neg (by omega), if_neg (by omega),
      if_pos (by omega)]
    rfl
  · rw [if_neg hone, if_neg htwo, if_neg hthree, if_neg (by omega), if_neg (by omega),
      if_neg (by omega)]
    rfl

theorem length_encode_replacement : (encode [replacement]).length = 3 := by decide

theorem length_encode_cons (c : Char) (text : List Char) :
    (encode (c :: text)).length = (String.utf8EncodeChar c).length + (encode text).length := by
  rw [encode, List.flatMap_cons, List.length_append, encode]

theorem length_encode_append (front back : List Char) :
    (encode (front ++ back)).length = (encode front).length + (encode back).length := by
  rw [encode, List.flatMap_append, List.length_append, encode, encode]

/-- A byte at the beginning of a sequence is written or has begun one. -/
theorem seen_begin (b : UInt8) : 1 ≤ (encode (begin b).1).length + (begin b).2.seen := by
  rw [begin]
  split
  · have hchar := String.length_utf8EncodeChar (Char.ofNat b.toNat)
    have hsize := Char.utf8Size_pos (Char.ofNat b.toNat)
    rw [length_encode_cons]
    omega
  · split
    · rename_i p hlead
      have hseen : p.seen = 1 := by
        simp only [lead] at hlead
        split_ifs at hlead <;> (rw [← Option.some.inj hlead])
      simp only [State.seen, hseen]
      omega
    · rw [length_encode_replacement]
      omega

/-- What is written for a byte takes at least as many bytes as it settles. -/
theorem seen_step (s : State) (b : UInt8) :
    s.seen + 1 ≤ (encode (step s b).1).length + (step s b).2.seen := by
  cases s with
  | between =>
    have hbegin := seen_begin b
    simp only [step, State.seen] at hbegin ⊢
    omega
  | inside p =>
    by_cases h : p.Accepts b
    · rcases step_of_accepts h with ⟨howed, hstep⟩ | ⟨n, howed, hstep⟩
      · have hspan := p.spans (p.codeWith b)
        have hlow := p.low_ge
        have hbounds := h
        have hcode : p.codeWith b = p.code * 64 + (b.toNat - 0x80) := rfl
        rw [Pending.Accepts] at hbounds
        rw [howed, Nat.pow_zero, Nat.mul_one, Nat.mul_one] at hspan
        obtain ⟨hvalid, hlength⟩ := hspan (by omega) (by omega)
        rw [hstep, length_encode_cons, length_utf8EncodeChar_ofNat hvalid]
        simp only [State.seen]
        omega
      · rw [hstep]
        simp only [State.seen, Pending.next]
        omega
    · have hbegin := seen_begin b
      have hseen := p.seen_le
      have hreplacement := length_encode_replacement
      rw [length_encode_cons] at hreplacement
      have hnil : (encode []).length = 0 := rfl
      rw [step_of_not_accepts h, length_encode_cons]
      simp only [State.seen] at hbegin ⊢
      omega

/-- The text takes at least as many bytes as it was read from. -/
theorem length_le_encode_decodeFrom (s : State) (bytes : List UInt8) :
    s.seen + bytes.length ≤ (encode (decodeFrom s bytes)).length := by
  induction bytes generalizing s with
  | nil =>
    cases s with
    | between => exact Nat.zero_le _
    | inside p =>
      have hseen := p.seen_le
      have hreplacement := length_encode_replacement
      simp only [State.seen, decodeFrom, State.flush, List.length_nil]
      omega
  | cons b bytes ih =>
    have hstep := seen_step s b
    have hrest := ih (step s b).2
    rw [decodeFrom, length_encode_append, List.length_cons]
    omega

/-- Exactly the bytes of a text come out as they went in. -/
theorem encode_fromUtf8Lossy_iff (bytes : List UInt8) :
    encode (fromUtf8Lossy bytes) = bytes ↔ ∃ text, bytes = encode text := by
  constructor
  · intro h
    exact ⟨fromUtf8Lossy bytes, h.symm⟩
  · rintro ⟨text, rfl⟩
    rw [fromUtf8Lossy_encode]

/-- Chunks decoded one by one come out as they went in exactly when each of them is the
bytes of a text. -/
theorem flatMap_encode_fromUtf8Lossy_iff (chunks : List (List UInt8)) :
    chunks.flatten.length ≤
        (chunks.flatMap fun chunk => encode (fromUtf8Lossy chunk)).length ∧
      ((chunks.flatMap fun chunk => encode (fromUtf8Lossy chunk)) = chunks.flatten ↔
        ∀ chunk ∈ chunks, ∃ text, chunk = encode text) := by
  induction chunks with
  | nil => exact ⟨Nat.le_refl _, iff_of_true rfl fun chunk h => nomatch h⟩
  | cons chunk chunks ih =>
    obtain ⟨hle, hiff⟩ := ih
    have hchunk : chunk.length ≤ (encode (fromUtf8Lossy chunk)).length := by
      have hlength := length_le_encode_decodeFrom .between chunk
      rw [State.seen, Nat.zero_add] at hlength
      exact hlength
    rw [List.flatMap_cons, List.flatten_cons, List.length_append, List.length_append,
      List.forall_mem_cons, ← encode_fromUtf8Lossy_iff, ← hiff]
    refine ⟨by omega, fun heq => ?_, fun h => by rw [h.1, h.2]⟩
    have hlength := congrArg List.length heq
    rw [List.length_append, List.length_append] at hlength
    exact List.append_inj heq (by omega)

end Lengths

end Teleprompter.LossyUtf8
