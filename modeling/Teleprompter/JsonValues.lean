import Mathlib.Data.List.Basic
import Mathlib.Algebra.Order.Ring.Int

/-!
# JSON values with machine numbers

JSON values as a parser of the usual kind returns them: a number is an
unsigned or a negative 64-bit integer or a binary64 float. An object is a
list of fields, read by the first field of a name. Objects are written from
fields of which some may be left out.
-/

namespace Teleprompter.JsonValues

section Floats

/-- A binary64 number by its three parts. -/
structure F64 where
  /-- The sign bit. -/
  negative : Bool
  /-- The biased exponent. -/
  exponent : Fin 2048
  /-- The fraction without its leading bit. -/
  fraction : Fin 4503599627370496
  deriving DecidableEq

/-- The significand with its leading bit, as an integer. -/
def F64.significand (x : F64) : ℕ :=
  if x.exponent = 0 then x.fraction else 4503599627370496 + x.fraction

/-- The value times two to the 1074th, the smallest positive number as unit.
An infinity is above every number. -/
def F64.scaled (x : F64) : ℤ :=
  (if x.negative then -1 else 1) * (x.significand * 2 ^ (max x.exponent.val 1 - 1) : ℕ)

/-- Not a number. -/
def F64.isNan (x : F64) : Bool := x.exponent = 2047 ∧ x.fraction ≠ 0

/-- Neither an infinity nor not a number. -/
def F64.isFinite (x : F64) : Bool := x.exponent ≠ 2047

/-- The fractional part is zero. -/
def F64.fractIsZero (x : F64) : Bool := x.isFinite ∧ x.scaled % 2 ^ 1074 = 0

/-- Comparison of numbers; false on not a number. -/
def F64.le (x y : F64) : Bool := ¬x.isNan ∧ ¬y.isNan ∧ x.scaled ≤ y.scaled

/-- Strict comparison of numbers; false on not a number. -/
def F64.lt (x y : F64) : Bool := ¬x.isNan ∧ ¬y.isNan ∧ x.scaled < y.scaled

/-- Zero. -/
def F64.zero : F64 := ⟨false, 0, 0⟩

/-- The cast to an unsigned 64-bit integer: cut off and saturating. -/
def F64.toUInt64 (x : F64) : UInt64 :=
  if x.isNan then 0
  else UInt64.ofNat (min 18446744073709551615 (x.scaled / 2 ^ 1074).toNat)

/-- The nearest float, the one with an even fraction in the middle. -/
def F64.ofNat (n : ℕ) : F64 :=
  if n = 0 then .zero
  else
    let k := n.log2
    if k ≤ 52 then
      ⟨false, Fin.ofNat 2048 (k + 1023), Fin.ofNat _ (n * 2 ^ (52 - k) - 4503599627370496)⟩
    else
      let shift := k - 52
      let low := n / 2 ^ shift
      let rest := n % 2 ^ shift
      let half := 2 ^ (shift - 1)
      let rounded := if half < rest ∨ (rest = half ∧ low % 2 = 1) then low + 1 else low
      if rounded = 9007199254740992 then ⟨false, Fin.ofNat 2048 (k + 1024), 0⟩
      else ⟨false, Fin.ofNat 2048 (k + 1023), Fin.ofNat _ (rounded - 4503599627370496)⟩

/-- The nearest float of an integer. -/
def F64.ofInt (n : ℤ) : F64 := { F64.ofNat n.natAbs with negative := n < 0 }

example : (F64.ofNat 18446744073709551615).scaled = 2 ^ 64 * 2 ^ 1074 ∧
    (F64.ofNat 9007199254740993).scaled = 9007199254740992 * 2 ^ 1074 ∧
    (F64.ofInt (-3)).scaled = -3 * 2 ^ 1074 ∧ (F64.ofNat 7).toUInt64 = 7 := by decide +kernel

end Floats

section Values

/-- A JSON number. -/
inductive Number where
  | posInt (n : UInt64)
  | negInt (n : Int64)
  | float (x : F64)
  deriving DecidableEq

/-- A JSON value. -/
inductive Json where
  | null
  | bool (value : Bool)
  | number (value : Number)
  | string (value : String)
  | array (values : List Json)
  | object (fields : List (String × Json))

/-- The fields of an object. -/
abbrev Object := List (String × Json)

/-- The value of the first field of a name. -/
def Object.get (object : Object) (key : String) : Option Json :=
  (object.find? fun field => field.1 = key).map Prod.snd

/-- The fields of an object value. -/
def Json.asObject : Json → Option Object
  | .object fields => some fields
  | _ => none

/-- The elements of an array value. -/
def Json.asArray : Json → Option (List Json)
  | .array values => some values
  | _ => none

/-- The text of a string value. -/
def Json.asStr : Json → Option String
  | .string value => some value
  | _ => none

/-- The value of a boolean. -/
def Json.asBool : Json → Option Bool
  | .bool value => some value
  | _ => none

/-- The value of an unsigned integer. -/
def Json.asU64 : Json → Option UInt64
  | .number (.posInt n) => some n
  | _ => none

/-- The value of a number as a float. -/
def Json.asF64 : Json → Option F64
  | .number (.posInt n) => some (.ofNat n.toNat)
  | .number (.negInt n) => some (.ofInt n.toInt)
  | .number (.float x) => some x
  | _ => none

/-- A float as a value; there is none for infinities and not a number. -/
def Json.ofF64 (x : F64) : Json := if x.isFinite then .number (.float x) else .null

/-- An unsigned integer as a value. -/
def Json.ofU64 (n : UInt64) : Json := .number (.posInt n)

/-- The fields that are not left out. -/
def present (fields : List (String × Option Json)) : Object :=
  fields.filterMap fun field => field.2.map fun value => (field.1, value)

@[simp] theorem asObject_object (fields : Object) : (Json.object fields).asObject = some fields :=
  rfl

@[simp] theorem asArray_array (values : List Json) :
    (Json.array values).asArray = some values := rfl

@[simp] theorem asStr_string (value : String) : (Json.string value).asStr = some value := rfl

@[simp] theorem asBool_bool (value : Bool) : (Json.bool value).asBool = some value := rfl

@[simp] theorem asU64_ofU64 (n : UInt64) : (Json.ofU64 n).asU64 = some n := rfl

theorem asF64_ofF64 {x : F64} (h : x.isFinite) : (Json.ofF64 x).asF64 = some x := by
  rw [Json.ofF64, if_pos h, Json.asF64]

@[simp] theorem get_present_nil (key : String) : Object.get (present []) key = none := rfl

/-- A field that is there is found, one that is left out is passed over. -/
@[simp] theorem get_present_cons (name key : String) (value : Option Json)
    (fields : List (String × Option Json)) :
    Object.get (present ((name, value) :: fields)) key =
      if name = key then value.or (Object.get (present fields) key)
      else Object.get (present fields) key := by
  cases value with
  | none =>
    rw [Option.none_or, ite_self]
    rfl
  | some value =>
    by_cases hname : name = key
    · simp [present, Object.get, hname]
    · simp [present, Object.get, hname]

/-- What is written value by value is read value by value. -/
theorem mapM_map_eq_some {α β γ : Type} {write : α → β} {read : β → Option γ} {view : α → γ}
    {values : List α} (h : ∀ value ∈ values, read (write value) = some (view value)) :
    (values.map write).mapM read = some (values.map view) := by
  induction values with
  | nil => rfl
  | cons value values ih =>
    have hrest := ih fun other hmem => h other (List.mem_cons_of_mem _ hmem)
    rw [List.map_cons, List.mapM_cons, h value List.mem_cons_self, hrest]
    rfl

end Values

end Teleprompter.JsonValues
