import Teleprompter.WireGuards
import Mathlib.Algebra.Order.Field.Rat
import Mathlib.Tactic.Ring
import Mathlib.Tactic.NormNum

/-!
# The two integer guards

The protocol crate and the relay each have a guard for integers that are not
negative. Both take an unsigned integer as it is and otherwise go through a
float. The bound of the float path is the largest integer rounded to a float,
which is two to the 64th: one guard admits that float and saturates, the other
one does not.
-/

namespace Teleprompter.IntegerGuards

open JsonValues Wire

section Floats

/-- The value of a finite float. -/
def value (x : F64) : ℚ := x.scaled / 2 ^ 1074

/-- Two to the 64th, the first float above all unsigned integers. -/
def twoTo64 : F64 := ⟨false, ⟨1087, by decide⟩, ⟨0, by decide⟩⟩

theorem scaled_twoTo64 : twoTo64.scaled = 2 ^ 64 * 2 ^ 1074 := by decide +kernel

/-- The largest unsigned integer is rounded up. -/
theorem ofNat_max : F64.ofNat 18446744073709551615 = twoTo64 := by decide +kernel

theorem not_isNan_of_isFinite {x : F64} (h : x.isFinite = true) : x.isNan = false := by
  rw [F64.isFinite, decide_eq_true_eq] at h
  rw [F64.isNan, decide_eq_false_iff_not]
  exact fun hnan => h hnan.1

theorem significand_lt (x : F64) : x.significand < 2 ^ 53 := by
  have hfraction := x.fraction.isLt
  rw [F64.significand]
  split <;> omega

/-- A float that is not subnormal has its leading bit. -/
theorem significand_of_normal {x : F64} (h : 1 < x.exponent.val) :
    x.significand = 2 ^ 52 + x.fraction := by
  have hne : x.exponent ≠ 0 := by
    intro hzero
    rw [hzero] at h
    exact absurd h (by decide)
  rw [F64.significand, if_neg hne]
  omega

/-- A power of two has one significand with its leading bit. -/
theorem exponent_of_product {m e p : ℕ} (hm : m < 2 ^ 53) (hnormal : p < e → 2 ^ 52 ≤ m)
    (h : m * 2 ^ e = 2 ^ 52 * 2 ^ p) : e = p ∧ m = 2 ^ 52 := by
  obtain hless | heq | hmore := Nat.lt_trichotomy e p
  · obtain ⟨d, hd⟩ : ∃ d, p = 1 + d + e := ⟨p - 1 - e, by omega⟩
    rw [hd, pow_add, ← mul_assoc] at h
    have hcancel := Nat.eq_of_mul_eq_mul_right (Nat.two_pow_pos e) h
    have hone := Nat.two_pow_pos d
    rw [pow_add] at hcancel
    omega
  · rw [heq] at h
    exact ⟨heq, Nat.eq_of_mul_eq_mul_right (Nat.two_pow_pos p) h⟩
  · obtain ⟨d, hd⟩ : ∃ d, e = 1 + d + p := ⟨e - 1 - p, by omega⟩
    rw [hd, pow_add, ← mul_assoc] at h
    have hcancel := Nat.eq_of_mul_eq_mul_right (Nat.two_pow_pos p) h
    have hone := Nat.two_pow_pos d
    have hleading := hnormal hmore
    have hdouble : m * 2 ≤ m * 2 ^ (1 + d) :=
      Nat.mul_le_mul_left m (by rw [pow_add]; omega)
    omega

theorem scaled_of_negative {x : F64} (h : x.negative = true) : x.scaled ≤ 0 := by
  have hle : (0 : ℤ) ≤ (x.significand * 2 ^ (max x.exponent.val 1 - 1) : ℕ) :=
    Int.natCast_nonneg _
  rw [F64.scaled, h, if_pos rfl]
  omega

theorem scaled_of_positive {x : F64} (h : x.negative = false) :
    x.scaled = (x.significand * 2 ^ (max x.exponent.val 1 - 1) : ℕ) := by
  rw [F64.scaled, h, if_neg (by decide), one_mul]

theorem twoTo64_product : twoTo64.scaled = ((2 ^ 52 * 2 ^ 1086 : ℕ) : ℤ) := by decide +kernel

/-- No other float has the value of two to the 64th. -/
theorem eq_twoTo64 {x : F64} (h : x.scaled = twoTo64.scaled) : x = twoTo64 := by
  have hsign : x.negative = false := by
    by_contra hneg
    have hle := scaled_of_negative (eq_true_of_ne_false hneg)
    rw [h] at hle
    exact absurd hle (by decide +kernel)
  have hproduct : x.significand * 2 ^ (max x.exponent.val 1 - 1) = 2 ^ 52 * 2 ^ 1086 := by
    rw [scaled_of_positive hsign, twoTo64_product] at h
    exact Int.ofNat.inj h
  obtain ⟨hexponent, hsignificand⟩ := exponent_of_product (significand_lt x)
    (fun hlarge => by rw [significand_of_normal (by omega)]; omega) hproduct
  have hvalue : x.exponent.val = 1087 := by omega
  rw [significand_of_normal (by omega)] at hsignificand
  have hfraction : x.fraction.val = 0 := by omega
  cases x with
  | mk negative exponent fraction =>
    rw [twoTo64, F64.mk.injEq]
    exact ⟨hsign, Fin.ext hvalue, Fin.ext hfraction⟩

/-- An integer from zero up to the largest unsigned one, as a float. -/
def IsUnsigned (x : F64) : Prop :=
  x.fractIsZero = true ∧ F64.le .zero x = true ∧ F64.lt x twoTo64 = true

theorem isFinite_of_isUnsigned {x : F64} (h : IsUnsigned x) : x.isFinite = true := by
  have hfract := h.1
  rw [F64.fractIsZero, decide_eq_true_eq] at hfract
  exact hfract.1

/-- Such a float is a multiple of the unit below two to the 64th. -/
theorem scaled_of_isUnsigned {x : F64} (h : IsUnsigned x) :
    ∃ n : ℕ, n < 2 ^ 64 ∧ x.scaled = n * 2 ^ 1074 := by
  obtain ⟨hfract, hzero, hless⟩ := h
  rw [F64.fractIsZero, decide_eq_true_eq] at hfract
  rw [F64.le, decide_eq_true_eq] at hzero
  rw [F64.lt, decide_eq_true_eq, scaled_twoTo64] at hless
  have hnonneg : 0 ≤ x.scaled := hzero.2.2
  have hunit : (0 : ℤ) < 2 ^ 1074 := by positivity
  obtain ⟨q, hq⟩ := Int.dvd_of_emod_eq_zero hfract.2
  have hupper := hless.2.2
  rw [hq, mul_comm] at hnonneg hupper
  have hpositive : 0 ≤ q := nonneg_of_mul_nonneg_left hnonneg hunit
  have hbound : q < 2 ^ 64 := lt_of_mul_lt_mul_right hupper hunit.le
  have hcast : (q.toNat : ℤ) = q := Int.toNat_of_nonneg hpositive
  exact ⟨q.toNat, by omega, by rw [hcast, hq, mul_comm]⟩

theorem value_of_scaled {x : F64} {n : ℕ} (h : x.scaled = n * 2 ^ 1074) : value x = n := by
  have hunit : (2 ^ 1074 : ℚ) ≠ 0 := by positivity
  have hscaled : (x.scaled : ℚ) = n * 2 ^ 1074 := by
    rw [h, Int.cast_mul, Int.cast_pow, Int.cast_natCast, Int.cast_ofNat]
  rw [value, hscaled, mul_div_assoc, div_self hunit, mul_one]

/-- The cast is exact where it does not saturate. -/
theorem toUInt64_of_scaled {x : F64} {n : ℕ} (hfinite : x.isFinite = true) (hn : n < 2 ^ 64)
    (h : x.scaled = n * 2 ^ 1074) : x.toUInt64.toNat = n := by
  have hunit : (2 ^ 1074 : ℤ) ≠ 0 := by positivity
  rw [F64.toUInt64, not_isNan_of_isFinite hfinite, if_neg (by decide), h,
    Int.mul_ediv_cancel _ hunit, Int.toNat_natCast, UInt64.toNat_ofNat', Nat.mod_eq_of_lt]
  · omega
  · omega

end Floats

section Paths

/-- The strict bound admits the floats that stand for an unsigned integer. -/
theorem integerUpTo_lt_eq_some {x : F64} {k : UInt64} :
    integerUpTo F64.lt x = some k ↔ IsUnsigned x ∧ x.toUInt64 = k := by
  rw [integerUpTo, ofNat_max]
  constructor
  · intro h
    split at h
    · rename_i hall
      exact ⟨hall.2, Option.some.inj h⟩
    · cases h
  · intro h
    rw [if_pos ⟨isFinite_of_isUnsigned h.1, h.1⟩, h.2]

/-- The two bounds differ at one float. -/
theorem le_twoTo64 {x : F64} (h : x ≠ twoTo64) : F64.le x twoTo64 = F64.lt x twoTo64 := by
  have hne : x.scaled ≠ twoTo64.scaled := fun heq => h (eq_twoTo64 heq)
  rw [F64.le, F64.lt, decide_eq_decide]
  constructor
  · intro hle
    exact ⟨hle.1, hle.2.1, lt_of_le_of_ne hle.2.2 hne⟩
  · intro hlt
    exact ⟨hlt.1, hlt.2.1, hlt.2.2.le⟩

theorem integerUpTo_le_eq {x : F64} (h : x ≠ twoTo64) :
    integerUpTo F64.le x = integerUpTo F64.lt x := by
  rw [integerUpTo, integerUpTo, ofNat_max, le_twoTo64 h]

/-- Two to the 64th is taken as the largest unsigned integer by one guard. -/
theorem integerUpTo_twoTo64 :
    integerUpTo F64.le twoTo64 = some 18446744073709551615 ∧
      integerUpTo F64.lt twoTo64 = none := by decide +kernel

theorem integerUpTo_of_neg (within : F64 → F64 → Bool) {x : F64} (h : x.scaled < 0) :
    integerUpTo within x = none := by
  rw [integerUpTo, if_neg]
  intro hall
  have hzero := hall.2.2.1
  rw [F64.le, decide_eq_true_eq] at hzero
  exact absurd hzero.2.2 (Int.not_le.mpr h)

theorem one_lt_exponent {k : ℕ} (hpos : 1 < k) (hk : k < 2048) : 1 < (Fin.ofNat 2048 k).val := by
  rw [Fin.val_ofNat, Nat.mod_eq_of_lt hk]
  exact hpos

/-- A rounded integer is a normal float. -/
theorem exponent_ofNat {n : ℕ} (hpos : 0 < n) (hn : n < 2 ^ 64) :
    1 < (F64.ofNat n).exponent.val := by
  have hlog : n.log2 < 64 := (Nat.log2_lt hpos.ne').mpr hn
  have hsame : 1 < (Fin.ofNat 2048 (n.log2 + 1023)).val := one_lt_exponent (by omega) (by omega)
  have hnext : 1 < (Fin.ofNat 2048 (n.log2 + 1024)).val := one_lt_exponent (by omega) (by omega)
  rw [F64.ofNat, if_neg hpos.ne']
  dsimp only
  split
  · exact hsame
  · split
    · split
      · exact hnext
      · exact hsame
    · split
      · exact hnext
      · exact hsame

theorem scaled_ofInt_neg {n : ℤ} (hneg : n < 0) (hn : n.natAbs < 2 ^ 64) :
    (F64.ofInt n).scaled < 0 := by
  have hexponent : 1 < (F64.ofInt n).exponent.val := exponent_ofNat (by omega) hn
  have hsign : (F64.ofInt n).negative = true := decide_eq_true hneg
  have hproduct : 0 < (F64.ofInt n).significand *
      2 ^ (max (F64.ofInt n).exponent.val 1 - 1) :=
    Nat.mul_pos (by rw [significand_of_normal hexponent]; omega) (Nat.two_pow_pos _)
  rw [F64.scaled, hsign, if_pos rfl]
  omega

end Paths

section Guards

/-- A JSON number with what a parser has made of it: an integer that fits is
kept as it is, anything else becomes a float, which may be a rounded one. -/
structure ParsedNumber where
  /-- The number that the text stands for. -/
  exact : ℚ
  /-- What the parser has made of it. -/
  number : Number
  /-- An unsigned integer is kept. -/
  posInt : ∀ n, number = .posInt n → exact = n.toNat
  /-- A negative integer is kept. -/
  negInt : ∀ n, number = .negInt n → exact = n.toInt ∧ n.toInt < 0
  /-- A text stands for no infinity. -/
  isFinite : ∀ x, number = .float x → x.isFinite = true

/-- Both guards agree, and an integer that is returned is the number itself. -/
def GuardsExact (n : ParsedNumber) : Prop :=
  isNonNegativeInt (.number n.number) = relayIsNonNegativeInt (.number n.number) ∧
    ∀ k, isNonNegativeInt (.number n.number) = some k → n.exact = k.toNat

/-- The float is not two to the 64th, and where it is an unsigned integer the
parser has not rounded. -/
def FloatExact (n : ParsedNumber) : Prop :=
  ∀ x, n.number = .float x → x ≠ twoTo64 ∧ (IsUnsigned x → n.exact = value x)

theorem isNonNegativeInt_float (x : F64) :
    isNonNegativeInt (.number (.float x)) = integerUpTo F64.le x := rfl

theorem relayIsNonNegativeInt_float (x : F64) :
    relayIsNonNegativeInt (.number (.float x)) = integerUpTo F64.lt x := rfl

theorem isNonNegativeInt_posInt (n : UInt64) :
    isNonNegativeInt (.number (.posInt n)) = some n := rfl

theorem relayIsNonNegativeInt_posInt (n : UInt64) :
    relayIsNonNegativeInt (.number (.posInt n)) = some n := rfl

/-- A negative integer is refused by both guards. -/
theorem guards_negInt {n : Int64} (h : n.toInt < 0) :
    isNonNegativeInt (.number (.negInt n)) = none ∧
      relayIsNonNegativeInt (.number (.negInt n)) = none := by
  have hlower := n.le_toInt
  have hscaled := scaled_ofInt_neg h (by omega)
  exact ⟨integerUpTo_of_neg F64.le hscaled, integerUpTo_of_neg F64.lt hscaled⟩

/-- An unsigned integer that the relay takes from a float is the float's value. -/
theorem value_of_relay {x : F64} {k : UInt64} (h : integerUpTo F64.lt x = some k) :
    IsUnsigned x ∧ value x = k.toNat := by
  obtain ⟨hunsigned, hcast⟩ := integerUpTo_lt_eq_some.mp h
  obtain ⟨n, hn, hscaled⟩ := scaled_of_isUnsigned hunsigned
  have hexact := toUInt64_of_scaled (isFinite_of_isUnsigned hunsigned) hn hscaled
  rw [hcast] at hexact
  exact ⟨hunsigned, by rw [value_of_scaled hscaled, hexact]⟩

/-- On a float the guards are exact at this condition and at no other one. -/
theorem guardsExact_float {n : ParsedNumber} {x : F64} (hnumber : n.number = .float x) :
    GuardsExact n ↔ x ≠ twoTo64 ∧ (IsUnsigned x → n.exact = value x) := by
  rw [GuardsExact, hnumber, isNonNegativeInt_float, relayIsNonNegativeInt_float]
  constructor
  · intro ⟨hsame, hvalue⟩
    refine ⟨?_, ?_⟩
    · intro heq
      rw [heq, integerUpTo_twoTo64.1, integerUpTo_twoTo64.2] at hsame
      cases hsame
    · intro hunsigned
      have hrelay := integerUpTo_lt_eq_some.mpr ⟨hunsigned, rfl⟩
      rw [hvalue _ (hsame.trans hrelay), (value_of_relay hrelay).2]
  · intro ⟨hne, hrounded⟩
    refine ⟨integerUpTo_le_eq hne, ?_⟩
    intro k hk
    rw [integerUpTo_le_eq hne] at hk
    obtain ⟨hunsigned, hvalue⟩ := value_of_relay hk
    rw [hrounded hunsigned, hvalue]

/-- The guards are exact but on two to the 64th and on rounded integers. -/
theorem guardsExact_iff (n : ParsedNumber) : GuardsExact n ↔ FloatExact n := by
  cases hnumber : n.number with
  | posInt m =>
    constructor
    · intro _ x hx
      rw [hnumber] at hx
      cases hx
    · intro _
      rw [GuardsExact, hnumber, isNonNegativeInt_posInt, relayIsNonNegativeInt_posInt]
      refine ⟨rfl, ?_⟩
      intro k hk
      rw [← Option.some.inj hk]
      exact n.posInt m hnumber
  | negInt m =>
    constructor
    · intro _ x hx
      rw [hnumber] at hx
      cases hx
    · intro _
      obtain ⟨hproto, hrelay⟩ := guards_negInt (n.negInt m hnumber).2
      rw [GuardsExact, hnumber, hproto, hrelay]
      exact ⟨rfl, fun k hk => by cases hk⟩
  | float x =>
    rw [guardsExact_float hnumber]
    constructor
    · intro h y hy
      rw [hnumber] at hy
      cases hy
      exact h
    · intro h
      exact h x hnumber

/-- The number two to the 64th as it is parsed: it fits no integer. -/
def parsedTwoTo64 : ParsedNumber where
  exact := 18446744073709551616
  number := .float twoTo64
  posInt := fun _ h => by cases h
  negInt := fun _ h => by cases h
  isFinite := fun x h => by
    cases h
    decide

/-- One guard takes the largest unsigned integer for a larger number, the
other one refuses it. -/
theorem guardsExact_twoTo64 :
    isNonNegativeInt (.number parsedTwoTo64.number) = some 18446744073709551615 ∧
      relayIsNonNegativeInt (.number parsedTwoTo64.number) = none ∧
      ¬GuardsExact parsedTwoTo64 := by
  have hproto : isNonNegativeInt (.number parsedTwoTo64.number) =
      some 18446744073709551615 :=
    (isNonNegativeInt_float twoTo64).trans integerUpTo_twoTo64.1
  have hrelay : relayIsNonNegativeInt (.number parsedTwoTo64.number) = none :=
    (relayIsNonNegativeInt_float twoTo64).trans integerUpTo_twoTo64.2
  refine ⟨hproto, hrelay, ?_⟩
  intro hexact
  have hsame := hexact.1
  rw [hproto, hrelay] at hsame
  cases hsame

end Guards

end Teleprompter.IntegerGuards
