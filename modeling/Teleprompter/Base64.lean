import Mathlib.Data.Bool.AllAny
import Mathlib.Data.List.GetD

/-!
# Standard and url-safe base64

Three octets travel as four digits of six bits, and a short last group is
padded. The decoder accepts canonical text only: padding is required, stands
at the end, and the bits it cuts off are zero. So every octet string has one
text, and the text determines it. The url-safe form replaces two digits and
leaves the padding out.
-/

namespace Teleprompter.Base64

/-- The 64 digits in order. -/
def alphabet : List Char :=
  "ABCDEFGHIJKLMNOPQRSTUVWXYZabcdefghijklmnopqrstuvwxyz0123456789+/".toList

/-- The digits written out, which spares evaluation the reading of the text. -/
theorem alphabet_eq : alphabet =
    ['A', 'B', 'C', 'D', 'E', 'F', 'G', 'H', 'I', 'J', 'K', 'L', 'M', 'N', 'O', 'P',
      'Q', 'R', 'S', 'T', 'U', 'V', 'W', 'X', 'Y', 'Z', 'a', 'b', 'c', 'd', 'e', 'f',
      'g', 'h', 'i', 'j', 'k', 'l', 'm', 'n', 'o', 'p', 'q', 'r', 's', 't', 'u', 'v',
      'w', 'x', 'y', 'z', '0', '1', '2', '3', '4', '5', '6', '7', '8', '9', '+', '/'] := by
  decide +kernel

/-- The padding character. -/
def pad : Char := '='

/-- Digit of a six-bit value. -/
def digit (n : ℕ) : Char := alphabet.getD n pad

/-- Six-bit value of a digit. -/
def value (c : Char) : Option ℕ := if alphabet.idxOf c < 64 then some (alphabet.idxOf c) else none

theorem length_alphabet : alphabet.length = 64 := by rw [alphabet_eq]; rfl

/-- Every value is read back from its digit. -/
theorem value_digit {n : ℕ} (h : n < 64) : value (digit n) = some n := by
  have hall : ∀ n : Fin 64, value (digit n) = some n.1 := by
    simp only [value, digit, alphabet_eq]
    decide +kernel
  exact hall ⟨n, h⟩

/-- Only the digit of a value is read as that value. -/
theorem digit_of_value {c : Char} {n : ℕ} (h : value c = some n) : n < 64 ∧ digit n = c := by
  unfold value at h
  by_cases hlt : alphabet.idxOf c < 64
  · rw [if_pos hlt, Option.some.injEq] at h
    have hget : alphabet.idxOf c < alphabet.length := by rwa [length_alphabet]
    rw [← h, digit, List.getD_eq_getElem _ _ hget, List.getElem_idxOf hget]
    exact ⟨hlt, rfl⟩
  · rw [if_neg hlt] at h
    contradiction

theorem value_pad : value pad = none := by
  rw [value, alphabet_eq]
  rfl

/-- No digit is the padding character. -/
theorem digit_ne_pad {n : ℕ} (h : n < 64) : digit n ≠ pad := by
  intro heq
  have hvalue := value_digit h
  rw [heq, value_pad] at hvalue
  contradiction

/-- Digits are characters of the alphabet. -/
theorem digit_mem {n : ℕ} (h : n < 64) : digit n ∈ alphabet := by
  have hlen : n < alphabet.length := Nat.lt_of_lt_of_eq h length_alphabet.symm
  rw [digit, List.getD_eq_getElem _ _ hlen]
  exact List.getElem_mem hlen

attribute [irreducible] digit value

/-- Four digits of three octets. -/
def fullGroup (a b c : UInt8) : List Char :=
  [digit (a.toNat / 4), digit (a.toNat % 4 * 16 + b.toNat / 16),
    digit (b.toNat % 16 * 4 + c.toNat / 64), digit (c.toNat % 64)]

/-- Octets as base64 digits. -/
def encodeChars : List UInt8 → List Char
  | a :: b :: c :: rest => fullGroup a b c ++ encodeChars rest
  | [a, b] =>
    [digit (a.toNat / 4), digit (a.toNat % 4 * 16 + b.toNat / 16), digit (b.toNat % 16 * 4), pad]
  | [a] => [digit (a.toNat / 4), digit (a.toNat % 4 * 16), pad, pad]
  | [] => []

/-- The form of a text: characters of the alphabet and at most two pads
behind them, four characters for every three octets or part of three. -/
structure TextForm (size : ℕ) (text body : List Char) (pads : ℕ) : Prop where
  /-- Pads stand at the end only. -/
  split : text = body ++ List.replicate pads pad
  /-- Everything before them is of the alphabet. -/
  digits : ∀ c ∈ body, c ∈ alphabet
  /-- There are at most two. -/
  few : pads ≤ 2
  /-- Four characters for a group. -/
  length : body.length + pads = 4 * ((size + 2) / 3)

/-- A full group in front of a text of the right form. -/
theorem TextForm.fullGroup {size : ℕ} {text body : List Char} {pads : ℕ} (a b c : UInt8)
    (h : TextForm size text body pads) :
    TextForm (size + 3) (fullGroup a b c ++ text) (fullGroup a b c ++ body) pads := by
  have ha := a.toNat_lt
  have hb := b.toNat_lt
  have hc := c.toNat_lt
  refine ⟨?_, ?_, h.few, ?_⟩
  · rw [h.split, List.append_assoc]
  · intro x hx
    rcases List.mem_append.mp hx with hgroup | hbody
    · simp only [Base64.fullGroup, List.mem_cons, List.not_mem_nil, or_false] at hgroup
      rcases hgroup with rfl | rfl | rfl | rfl <;> exact digit_mem (by omega)
    · exact h.digits x hbody
  · have hlength := h.length
    have hfour : (Base64.fullGroup a b c).length = 4 := rfl
    rw [List.length_append, hfour]
    omega

/-- Every encoded text has the form of its size. -/
theorem encodeChars_form (octets : List UInt8) :
    ∃ body pads, TextForm octets.length (encodeChars octets) body pads := by
  induction octets using encodeChars.induct with
  | case1 a b c rest ih =>
    obtain ⟨body, pads, hform⟩ := ih
    exact ⟨_, _, hform.fullGroup a b c⟩
  | case2 a b =>
    have ha := a.toNat_lt
    have hb := b.toNat_lt
    refine ⟨[digit (a.toNat / 4), digit (a.toNat % 4 * 16 + b.toNat / 16),
      digit (b.toNat % 16 * 4)], 1, rfl, ?_, by decide, by simp⟩
    intro x hx
    simp only [List.mem_cons, List.not_mem_nil, or_false] at hx
    rcases hx with rfl | rfl | rfl <;> exact digit_mem (by omega)
  | case3 a =>
    have ha := a.toNat_lt
    refine ⟨[digit (a.toNat / 4), digit (a.toNat % 4 * 16)], 2, rfl, ?_, by decide, by simp⟩
    intro x hx
    simp only [List.mem_cons, List.not_mem_nil, or_false] at hx
    rcases hx with rfl | rfl <;> exact digit_mem (by omega)
  | case4 => exact ⟨[], 0, rfl, List.forall_mem_nil _, by decide, rfl⟩

/-- A text of one-byte characters has as many bytes as characters. -/
theorem utf8ByteSize_ofList {s : List Char} (h : ∀ c ∈ s, c.utf8Size = 1) :
    (String.ofList s).utf8ByteSize = s.length := by
  induction s with
  | nil => rfl
  | cons c s ih =>
    have hhead := h c List.mem_cons_self
    have htail := ih fun d hd => h d (List.mem_cons_of_mem c hd)
    rw [String.ofList_cons, String.utf8ByteSize_append, htail, String.utf8ByteSize_singleton,
      hhead, List.length_cons, Nat.add_comm]

/-- A text of the right form has one byte for every character. -/
theorem TextForm.utf8ByteSize_eq {size : ℕ} {text : String} {body : List Char} {pads : ℕ}
    (h : TextForm size text.toList body pads) : text.utf8ByteSize = 4 * ((size + 2) / 3) := by
  have hall : ∀ c ∈ alphabet ++ [pad], c.utf8Size = 1 := by
    rw [alphabet_eq]
    exact List.all_iff_forall_prop.mp (by decide +kernel)
  have hascii : ∀ c ∈ text.toList, c.utf8Size = 1 := by
    intro c hc
    rw [h.split] at hc
    refine hall c (List.mem_append.mpr ?_)
    rcases List.mem_append.mp hc with hbody | hpad
    · exact .inl (h.digits c hbody)
    · exact .inr (List.mem_singleton.mpr (List.eq_of_mem_replicate hpad))
  have hsize := utf8ByteSize_ofList hascii
  rw [String.ofList_toList] at hsize
  rw [hsize, h.split, List.length_append, List.length_replicate, h.length]

/-- First octet of a group. -/
def octet0 (v0 v1 : ℕ) : UInt8 := UInt8.ofNat (v0 * 4 + v1 / 16)

/-- Second octet of a group. -/
def octet1 (v1 v2 : ℕ) : UInt8 := UInt8.ofNat (v1 % 16 * 16 + v2 / 4)

/-- Third octet of a group. -/
def octet2 (v2 v3 : ℕ) : UInt8 := UInt8.ofNat (v2 % 4 * 64 + v3)

/-- A last group with one pad: two octets, and two bits cut off. -/
def decodeTwo (w x y : Char) : Option (List UInt8) :=
  match value w, value x, value y with
  | some v0, some v1, some v2 => if v2 % 4 = 0 then some [octet0 v0 v1, octet1 v1 v2] else none
  | _, _, _ => none

/-- A last group with two pads: one octet, and four bits cut off. -/
def decodeOne (w x : Char) : Option (List UInt8) :=
  match value w, value x with
  | some v0, some v1 => if v1 % 16 = 0 then some [octet0 v0 v1] else none
  | _, _ => none

/-- A group without padding. -/
def decodeThree (w x y z : Char) : Option (List UInt8) :=
  match value w, value x, value y, value z with
  | some v0, some v1, some v2, some v3 => some [octet0 v0 v1, octet1 v1 v2, octet2 v2 v3]
  | _, _, _, _ => none

/-- Octets of base64 digits, if they are canonical. -/
def decodeChars : List Char → Option (List UInt8)
  | [] => some []
  | w :: x :: y :: z :: rest =>
    if z = pad then
      if rest = [] then if y = pad then decodeOne w x else decodeTwo w x y else none
    else
      match decodeThree w x y z, decodeChars rest with
      | some group, some tail => some (group ++ tail)
      | _, _ => none
  | _ => none

/-- The first octet gives back the first two digits. -/
theorem octet0_toNat {v0 v1 : ℕ} (h0 : v0 < 64) (h1 : v1 < 64) :
    (octet0 v0 v1).toNat = v0 * 4 + v1 / 16 := by
  rw [octet0, UInt8.toNat_ofNat']
  omega

/-- The second octet gives back the digits around it. -/
theorem octet1_toNat {v1 v2 : ℕ} (h2 : v2 < 64) :
    (octet1 v1 v2).toNat = v1 % 16 * 16 + v2 / 4 := by
  rw [octet1, UInt8.toNat_ofNat']
  omega

/-- The third octet gives back the last two digits. -/
theorem octet2_toNat {v2 v3 : ℕ} (h3 : v3 < 64) :
    (octet2 v2 v3).toNat = v2 % 4 * 64 + v3 := by
  rw [octet2, UInt8.toNat_ofNat']
  omega

/-- A padded pair of octets is read back. -/
theorem decodeTwo_encode (a b : UInt8) :
    decodeTwo (digit (a.toNat / 4)) (digit (a.toNat % 4 * 16 + b.toNat / 16))
      (digit (b.toNat % 16 * 4)) = some [a, b] := by
  have ha := a.toNat_lt
  have hb := b.toNat_lt
  have h0 : a.toNat / 4 < 64 := by omega
  have h1 : a.toNat % 4 * 16 + b.toNat / 16 < 64 := by omega
  have h2 : b.toNat % 16 * 4 < 64 := by omega
  have hzero : b.toNat % 16 * 4 % 4 = 0 := by omega
  have hfirst : octet0 (a.toNat / 4) (a.toNat % 4 * 16 + b.toNat / 16) = a := by
    rw [← UInt8.toNat_inj, octet0_toNat h0 h1]
    omega
  have hsecond : octet1 (a.toNat % 4 * 16 + b.toNat / 16) (b.toNat % 16 * 4) = b := by
    rw [← UInt8.toNat_inj, octet1_toNat h2]
    omega
  rw [decodeTwo, value_digit h0, value_digit h1, value_digit h2]
  dsimp only
  rw [if_pos hzero, hfirst, hsecond]

/-- A padded single octet is read back. -/
theorem decodeOne_encode (a : UInt8) :
    decodeOne (digit (a.toNat / 4)) (digit (a.toNat % 4 * 16)) = some [a] := by
  have ha := a.toNat_lt
  have h0 : a.toNat / 4 < 64 := by omega
  have h1 : a.toNat % 4 * 16 < 64 := by omega
  have hzero : a.toNat % 4 * 16 % 16 = 0 := by omega
  have hfirst : octet0 (a.toNat / 4) (a.toNat % 4 * 16) = a := by
    rw [← UInt8.toNat_inj, octet0_toNat h0 h1]
    omega
  rw [decodeOne, value_digit h0, value_digit h1]
  dsimp only
  rw [if_pos hzero, hfirst]

/-- A full group is read back. -/
theorem decodeThree_encode (a b c : UInt8) :
    decodeThree (digit (a.toNat / 4)) (digit (a.toNat % 4 * 16 + b.toNat / 16))
      (digit (b.toNat % 16 * 4 + c.toNat / 64)) (digit (c.toNat % 64)) = some [a, b, c] := by
  have ha := a.toNat_lt
  have hb := b.toNat_lt
  have hc := c.toNat_lt
  have h0 : a.toNat / 4 < 64 := by omega
  have h1 : a.toNat % 4 * 16 + b.toNat / 16 < 64 := by omega
  have h2 : b.toNat % 16 * 4 + c.toNat / 64 < 64 := by omega
  have h3 : c.toNat % 64 < 64 := by omega
  have hfirst : octet0 (a.toNat / 4) (a.toNat % 4 * 16 + b.toNat / 16) = a := by
    rw [← UInt8.toNat_inj, octet0_toNat h0 h1]
    omega
  have hsecond : octet1 (a.toNat % 4 * 16 + b.toNat / 16)
      (b.toNat % 16 * 4 + c.toNat / 64) = b := by
    rw [← UInt8.toNat_inj, octet1_toNat h2]
    omega
  have hthird : octet2 (b.toNat % 16 * 4 + c.toNat / 64) (c.toNat % 64) = c := by
    rw [← UInt8.toNat_inj, octet2_toNat h3]
    omega
  rw [decodeThree, value_digit h0, value_digit h1, value_digit h2, value_digit h3]
  dsimp only
  rw [hfirst, hsecond, hthird]

/-- Every octet string is read back from its text. -/
theorem decodeChars_encodeChars (octets : List UInt8) :
    decodeChars (encodeChars octets) = some octets := by
  induction octets using encodeChars.induct with
  | case1 a b c rest ih =>
    have hlast : digit (c.toNat % 64) ≠ pad := digit_ne_pad (by omega)
    rw [encodeChars, fullGroup]
    simp only [List.cons_append, List.nil_append, decodeChars]
    rw [if_neg hlast, decodeThree_encode, ih]
    rfl
  | case2 a b =>
    have hb := b.toNat_lt
    have hthird : digit (b.toNat % 16 * 4) ≠ pad := digit_ne_pad (by omega)
    simp only [encodeChars, decodeChars, if_true]
    rw [if_neg hthird, decodeTwo_encode]
  | case3 a =>
    simp only [encodeChars, decodeChars, if_true]
    exact decodeOne_encode a
  | case4 => rfl

/-- What a group with one pad stands for. -/
theorem encodeChars_of_decodeTwo {w x y : Char} {octets : List UInt8}
    (h : decodeTwo w x y = some octets) : encodeChars octets = [w, x, y, pad] := by
  unfold decodeTwo at h
  split at h
  · rename_i v0 v1 v2 hw hx hy
    obtain ⟨h0, hdw⟩ := digit_of_value hw
    obtain ⟨h1, hdx⟩ := digit_of_value hx
    obtain ⟨h2, hdy⟩ := digit_of_value hy
    simp only [Option.ite_none_right_eq_some, Option.some.injEq] at h
    have e0 : (v0 * 4 + v1 / 16) / 4 = v0 := by omega
    have e1 : (v0 * 4 + v1 / 16) % 4 * 16 + (v1 % 16 * 16 + v2 / 4) / 16 = v1 := by omega
    have e2 : (v1 % 16 * 16 + v2 / 4) % 16 * 4 = v2 := by omega
    rw [← h.2, encodeChars, octet0_toNat h0 h1, octet1_toNat h2, e0, e1, e2, hdw, hdx, hdy]
  · exact absurd h nofun

/-- What a group with two pads stands for. -/
theorem encodeChars_of_decodeOne {w x : Char} {octets : List UInt8}
    (h : decodeOne w x = some octets) : encodeChars octets = [w, x, pad, pad] := by
  unfold decodeOne at h
  split at h
  · rename_i v0 v1 hw hx
    obtain ⟨h0, hdw⟩ := digit_of_value hw
    obtain ⟨h1, hdx⟩ := digit_of_value hx
    simp only [Option.ite_none_right_eq_some, Option.some.injEq] at h
    have e0 : (v0 * 4 + v1 / 16) / 4 = v0 := by omega
    have e1 : (v0 * 4 + v1 / 16) % 4 * 16 = v1 := by omega
    rw [← h.2, encodeChars, octet0_toNat h0 h1, e0, e1, hdw, hdx]
  · exact absurd h nofun

/-- What a full group stands for. -/
theorem encodeChars_of_decodeThree {w x y z : Char} {group : List UInt8} (rest : List UInt8)
    (h : decodeThree w x y z = some group) :
    encodeChars (group ++ rest) = w :: x :: y :: z :: encodeChars rest := by
  unfold decodeThree at h
  split at h
  · rename_i v0 v1 v2 v3 hw hx hy hz
    obtain ⟨h0, hdw⟩ := digit_of_value hw
    obtain ⟨h1, hdx⟩ := digit_of_value hx
    obtain ⟨h2, hdy⟩ := digit_of_value hy
    obtain ⟨h3, hdz⟩ := digit_of_value hz
    have e0 : (v0 * 4 + v1 / 16) / 4 = v0 := by omega
    have e1 : (v0 * 4 + v1 / 16) % 4 * 16 + (v1 % 16 * 16 + v2 / 4) / 16 = v1 := by omega
    have e2 : (v1 % 16 * 16 + v2 / 4) % 16 * 4 + (v2 % 4 * 64 + v3) / 64 = v2 := by omega
    have e3 : (v2 % 4 * 64 + v3) % 64 = v3 := by omega
    rw [← Option.some.inj h]
    simp only [List.cons_append, List.nil_append, encodeChars, fullGroup]
    rw [octet0_toNat h0 h1, octet1_toNat h2, octet2_toNat h3, e0, e1, e2, e3, hdw, hdx, hdy, hdz]
  · exact absurd h nofun

/-- Only the text of an octet string is read as that string. -/
theorem encodeChars_of_decodeChars {text : List Char} {octets : List UInt8}
    (h : decodeChars text = some octets) : encodeChars octets = text := by
  induction text using decodeChars.induct generalizing octets with
  | case1 =>
    rw [decodeChars, Option.some.injEq] at h
    rw [← h]
    rfl
  | case2 w x =>
    rw [decodeChars, if_pos rfl, if_pos rfl, if_pos rfl] at h
    exact encodeChars_of_decodeOne h
  | case3 w x y hy =>
    rw [decodeChars, if_pos rfl, if_pos rfl, if_neg hy] at h
    exact encodeChars_of_decodeTwo h
  | case4 w x y rest hrest =>
    rw [decodeChars, if_pos rfl, if_neg hrest] at h
    contradiction
  | case5 w x y z rest hz group tail htail hgroup ih =>
    rw [decodeChars, if_neg hz, hgroup, htail, Option.some.injEq] at h
    rw [← h, encodeChars_of_decodeThree tail hgroup, ih htail]
  | case6 w x y z rest hz hnone ih =>
    rw [decodeChars, if_neg hz] at h
    cases hgroup : decodeThree w x y z with
    | none => simp [hgroup] at h
    | some group =>
      cases htail : decodeChars rest with
      | none => simp [hgroup, htail] at h
      | some tail => exact absurd htail (hnone group tail hgroup)
  | case7 text h0 h1 =>
    rw [decodeChars.eq_3 text h0 h1] at h
    contradiction

/-- Base64 text of an octet string. -/
def encode (octets : List UInt8) : String := String.ofList (encodeChars octets)

/-- Octets of a base64 text, if it is canonical. -/
def decode (text : String) : Option (List UInt8) := decodeChars text.toList

/-- A text decodes to an octet string exactly when it is its text. -/
theorem decode_eq_some_iff (text : String) (octets : List UInt8) :
    decode text = some octets ↔ encode octets = text := by
  constructor
  · intro h
    rw [encode, encodeChars_of_decodeChars h, String.ofList_toList]
  · intro h
    rw [← h, decode, encode, String.toList_ofList]
    exact decodeChars_encodeChars octets

example : encodeChars [77, 97, 110, 77] = "TWFuTQ==".toList := by decide +kernel

/-- The digit of the url-safe alphabet. -/
def urlDigit (c : Char) : Char := if c = '+' then '-' else if c = '/' then '_' else c

/-- The digit that a url-safe one stands for. -/
def plainDigit (c : Char) : Char := if c = '-' then '+' else if c = '_' then '/' else c

/-- Url-safe text of an octet string, without padding. -/
def urlEncodeChars (octets : List UInt8) : List Char :=
  ((encodeChars octets).filter (· ≠ pad)).map urlDigit

/-- Octets of a url-safe text without padding, if it is canonical. -/
def urlDecodeChars (text : List Char) : Option (List UInt8) :=
  if text.all fun c => c ≠ '+' ∧ c ≠ '/' ∧ c ≠ pad then
    decodeChars (text.map plainDigit ++ List.replicate ((4 - text.length % 4) % 4) pad)
  else none

/-- What the url-safe alphabet replaces and what it leaves out. -/
theorem urlDigit_spec {c : Char} (h : c ∈ alphabet) :
    plainDigit (urlDigit c) = c ∧ c ≠ pad ∧ urlDigit c ≠ '+' ∧ urlDigit c ≠ '/' ∧
      urlDigit c ≠ pad ∧ urlDigit c ≠ '.' := by
  have hall : ∀ c ∈ alphabet, plainDigit (urlDigit c) = c ∧ c ≠ pad ∧ urlDigit c ≠ '+' ∧
      urlDigit c ≠ '/' ∧ urlDigit c ≠ pad ∧ urlDigit c ≠ '.' := by
    rw [alphabet_eq]
    exact List.all_iff_forall_prop.mp (by decide +kernel)
  exact hall c h

/-- A url-safe text is that of the digits before the padding. -/
theorem urlEncodeChars_of_form {octets : List UInt8} {body : List Char} {pads : ℕ}
    (h : TextForm octets.length (encodeChars octets) body pads) :
    urlEncodeChars octets = body.map urlDigit := by
  have hbody : body.filter (· ≠ pad) = body := List.filter_eq_self.mpr fun c hc =>
    decide_eq_true (urlDigit_spec (h.digits c hc)).2.1
  have hpads : (List.replicate pads pad).filter (· ≠ pad) = [] := List.filter_eq_nil_iff.mpr
    fun c hc => by simp [List.eq_of_mem_replicate hc]
  rw [urlEncodeChars, h.split, List.filter_append, hbody, hpads, List.append_nil]

/-- Url-safe text has no dot. -/
theorem dot_notMem_urlEncodeChars (octets : List UInt8) : '.' ∉ urlEncodeChars octets := by
  obtain ⟨body, pads, hform⟩ := encodeChars_form octets
  rw [urlEncodeChars_of_form hform]
  intro hmem
  obtain ⟨c, hc, heq⟩ := List.mem_map.mp hmem
  exact (urlDigit_spec (hform.digits c hc)).2.2.2.2.2 heq

/-- Every octet string is read back from its url-safe text. -/
theorem urlDecodeChars_urlEncodeChars (octets : List UInt8) :
    urlDecodeChars (urlEncodeChars octets) = some octets := by
  obtain ⟨body, pads, hform⟩ := encodeChars_form octets
  have hclean : ∀ c ∈ body.map urlDigit, c ≠ '+' ∧ c ≠ '/' ∧ c ≠ pad := by
    intro c hc
    obtain ⟨d, hd, rfl⟩ := List.mem_map.mp hc
    obtain ⟨-, -, hplus, hslash, hpad, -⟩ := urlDigit_spec (hform.digits d hd)
    exact ⟨hplus, hslash, hpad⟩
  have hback : (body.map urlDigit).map plainDigit = body := by
    have hid : body.map (plainDigit ∘ urlDigit) = body.map id :=
      List.map_congr_left fun c hc => (urlDigit_spec (hform.digits c hc)).1
    rw [List.map_map, hid, List.map_id]
  have hcount : (4 - (body.map urlDigit).length % 4) % 4 = pads := by
    have hlength := hform.length
    have hfew := hform.few
    rw [List.length_map]
    omega
  rw [urlEncodeChars_of_form hform, urlDecodeChars, if_pos (List.all_iff_forall_prop.mpr hclean),
    hback, hcount, ← hform.split]
  exact decodeChars_encodeChars octets

example : urlEncodeChars [251, 255, 77, 1] = "-_9NAQ".toList := by decide +kernel

/-- A library for url-safe text without padding, with what is relied on. -/
structure UrlCodec where
  /-- Text of an octet string. -/
  encode : List UInt8 → List Char
  /-- Octets of a text, if it is one. -/
  decode : List Char → Option (List UInt8)
  /-- Every octet string is read back from its text. -/
  decode_encode : ∀ octets, decode (encode octets) = some octets
  /-- The text of nothing is empty. -/
  encode_nil : encode [] = []
  /-- A dot is no digit. -/
  dot_notMem : ∀ octets, '.' ∉ encode octets

/-- The url-safe text of some octets is not empty. -/
theorem UrlCodec.encode_ne_nil (codec : UrlCodec) {octets : List UInt8} (h : octets ≠ []) :
    codec.encode octets ≠ [] := by
  intro hempty
  have hoctets := codec.decode_encode octets
  have hnil := codec.decode_encode []
  rw [hempty] at hoctets
  rw [codec.encode_nil, hoctets] at hnil
  exact h (Option.some.inj hnil)

/-- The url-safe alphabet. -/
def urlSafe : UrlCodec where
  encode := urlEncodeChars
  decode := urlDecodeChars
  decode_encode := urlDecodeChars_urlEncodeChars
  encode_nil := rfl
  dot_notMem := dot_notMem_urlEncodeChars

end Teleprompter.Base64
