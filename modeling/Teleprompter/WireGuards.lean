import Teleprompter.JsonValues
import Teleprompter.KeyExchange
import Teleprompter.PairingLink

/-!
# Guards of the wire messages

The predicates by which every parser of the wire protocol reads a field, and
the lenient reading of a label. Each guard gives back what the serialiser
wrote, for the values that the guard itself can return.
-/

namespace Teleprompter.Wire

open JsonValues
open KeyExchange (Label)
open PairingLink (trim)

section Guards

/-- A required string field. -/
@[simp] def reqString (obj : Object) (key : String) : Option String := (obj.get key).bind Json.asStr

/-- A finite number. -/
def isNumber (v : Json) : Option F64 := v.asF64.filter F64.isFinite

/-- A float that stands for an integer from zero up to the largest one. -/
def integerUpTo (within : F64 → F64 → Bool) (f : F64) : Option UInt64 :=
  if f.isFinite ∧ f.fractIsZero ∧ F64.le .zero f ∧ within f (.ofNat 18446744073709551615) then
    some f.toUInt64
  else none

/-- An integer that is not negative, also one written as a float. The float
above all of them is taken as the largest one. -/
def isNonNegativeInt (v : Json) : Option UInt64 :=
  v.asU64.or (v.asF64.bind (integerUpTo F64.le))

/-- The guard of the relay: the float above all integers is refused. -/
def relayIsNonNegativeInt (v : Json) : Option UInt64 :=
  v.asU64.or (v.asF64.bind (integerUpTo F64.lt))

/-- A positive integer. -/
def isPositiveInt (v : Json) : Option UInt64 := (isNonNegativeInt v).filter fun n => 0 < n

/-- The largest terminal dimension. -/
def maxTerminalDimension : UInt64 := 65535

/-- A terminal dimension. -/
def isTerminalDimension (v : Json) : Option UInt64 :=
  (isPositiveInt v).filter fun n => n ≤ maxTerminalDimension

/-- A list of strings. -/
def asStringArray (v : Json) : Option (List String) := v.asArray.bind (List.mapM Json.asStr)

/-- A required boolean field. -/
@[simp] def reqBool (obj : Object) (key : String) : Option Bool := (obj.get key).bind Json.asBool

/-- A field that may be absent and otherwise has to pass a reading; a null is
not absent. -/
def optField {α : Type} (read : Json → Option α) : Option Json → Option (Option α)
  | none => some none
  | some v => (read v).map some

/-- A string field that may be absent. -/
@[simp] def optString (obj : Object) (key : String) : Option (Option String) :=
  optField Json.asStr (obj.get key)

/-- A finite number that may be absent. -/
@[simp] def optNumber (obj : Object) (key : String) : Option (Option F64) :=
  optField isNumber (obj.get key)

/-- A boolean field that may be absent. -/
@[simp] def optBool (obj : Object) (key : String) : Option (Option Bool) :=
  optField Json.asBool (obj.get key)

/-- The texts of an enumeration: one per member, and the member of a text. -/
structure TextEnum (α : Type) where
  /-- The text on the wire. -/
  text : α → String
  /-- The member of a text. -/
  fromStr : String → Option α
  /-- Every member is read from its text. -/
  fromStr_text : ∀ member, fromStr (text member) = some member

/-- The value of a member. -/
def TextEnum.toJson {α : Type} (e : TextEnum α) (member : α) : Json := .string (e.text member)

/-- The member that a string value names. -/
def TextEnum.parse {α : Type} (e : TextEnum α) (v : Json) : Option α := v.asStr.bind e.fromStr

/-- Whatever is returned has a property. -/
def Returns {α : Type} (P : α → Prop) (result : Option α) : Prop := ∀ x, result = some x → P x

/-- A failure returns nothing. -/
theorem Returns.none {α : Type} {P : α → Prop} : Returns P (none : Option α) := by
  intro x h
  cases h

/-- A value with the property may be returned. -/
theorem Returns.pure {α : Type} {P : α → Prop} {x : α} (h : P x) :
    Returns P (Pure.pure x : Option α) := by
  intro y hy
  cases hy
  exact h

/-- A step of a parser hands what it has read to the next one. -/
theorem Returns.bind {α β : Type} {P : β → Prop} {first : Option α} {next : α → Option β}
    (h : ∀ x, first = some x → Returns P (next x)) : Returns P (first >>= next) := by
  intro y hy
  obtain ⟨x, hx, hnext⟩ := Option.bind_eq_some_iff.mp hy
  exact h x hx y hnext

end Guards

section Labels

/-- The label of a text: trimmed, and unset when nothing is left. -/
def makeLabel : Option String → Label
  | none => .unset
  | some s =>
    let v := String.ofList (trim s.toList)
    if v = "" then .unset else .set v

/-- A label on the wire. -/
def labelToJson : Label → Json
  | .set value => .object (present [("set", some (.bool true)), ("value", some (.string value))])
  | .unset => .object (present [("set", some (.bool false))])

/-- The lenient reading of a label. -/
def decodeWireLabel : Json → Label
  | .null => .unset
  | .string s => makeLabel (some s)
  | .object fields =>
    match Object.get fields "set" with
    | some (.bool false) => .unset
    | some (.bool true) =>
      match Object.get fields "value" with
      | some (.string v) => makeLabel (some v)
      | _ => .unset
    | _ => .unset
  | _ => .unset

/-- A label field: what has no label shape at all is refused. -/
def parseLabelField : Option Json → Option Label
  | none => some (decodeWireLabel .null)
  | some .null => some (decodeWireLabel .null)
  | some (.string s) => some (decodeWireLabel (.string s))
  | some (.object fields) =>
    if (Object.get fields "set").isSome then some (decodeWireLabel (.object fields)) else none
  | some _ => none

/-- Labels as the label type promises them: trimmed and not empty. -/
def LabelTrimmed : Label → Prop
  | .set value => value ≠ "" ∧ trim value.toList = value.toList
  | .unset => True

end Labels

section GuardLaws

/-- A written count is read back. -/
@[simp] theorem isNonNegativeInt_ofU64 (n : UInt64) : isNonNegativeInt (.ofU64 n) = some n := rfl

/-- The guard of the relay reads it back as well. -/
@[simp] theorem relayIsNonNegativeInt_ofU64 (n : UInt64) :
    relayIsNonNegativeInt (.ofU64 n) = some n := rfl

/-- A written finite number is read back. -/
theorem isNumber_ofF64 {x : F64} (h : x.isFinite) : isNumber (.ofF64 x) = some x := by
  rw [isNumber, asF64_ofF64 h, Option.filter_some, if_pos h]

/-- What passes as a number is finite. -/
theorem isNumber_finite {v : Json} {x : F64} (h : isNumber v = some x) : x.isFinite :=
  (Option.filter_eq_some_iff.mp h).2

/-- A written positive count is read back. -/
theorem isPositiveInt_ofU64 {n : UInt64} (h : 0 < n) : isPositiveInt (.ofU64 n) = some n := by
  rw [isPositiveInt, isNonNegativeInt_ofU64, Option.filter_some, if_pos (decide_eq_true h)]

/-- What passes as a positive count is positive. -/
theorem isPositiveInt_pos {v : Json} {n : UInt64} (h : isPositiveInt v = some n) : 0 < n :=
  of_decide_eq_true (Option.filter_eq_some_iff.mp h).2

/-- A written dimension in range is read back. -/
theorem isTerminalDimension_ofU64 {n : UInt64} (hpos : 0 < n) (hle : n ≤ maxTerminalDimension) :
    isTerminalDimension (.ofU64 n) = some n := by
  rw [isTerminalDimension, isPositiveInt_ofU64 hpos, Option.filter_some,
    if_pos (decide_eq_true hle)]

/-- What passes as a dimension is in range. -/
theorem isTerminalDimension_range {v : Json} {n : UInt64} (h : isTerminalDimension v = some n) :
    0 < n ∧ n ≤ maxTerminalDimension :=
  ⟨isPositiveInt_pos (Option.filter_eq_some_iff.mp h).1,
    of_decide_eq_true (Option.filter_eq_some_iff.mp h).2⟩

/-- A written list of texts is read back. -/
@[simp] theorem asStringArray_strings (texts : List String) :
    asStringArray (.array (texts.map .string)) = some texts := by
  have hread : (texts.map Json.string).mapM Json.asStr = some (texts.map id) :=
    mapM_map_eq_some fun text _ => asStr_string text
  rw [asStringArray, asArray_array, Option.bind_some, hread, List.map_id]

/-- An optional field gives back what was written. -/
theorem optField_map {α : Type} {write : α → Json} {read : Json → Option α} {value : Option α}
    (h : ∀ x, value = some x → read (write x) = some x) :
    optField read (value.map write) = some value := by
  cases value with
  | none => rfl
  | some x => rw [Option.map_some, optField, h x rfl, Option.map_some]

/-- An optional text is read back. -/
@[simp] theorem optField_string (value : Option String) :
    optField Json.asStr (value.map .string) = some value :=
  optField_map fun x _ => asStr_string x

/-- An optional truth value is read back. -/
@[simp] theorem optField_bool (value : Option Bool) :
    optField Json.asBool (value.map .bool) = some value :=
  optField_map fun x _ => asBool_bool x

/-- An optional count is read back. -/
@[simp] theorem optField_nonNegativeInt (value : Option UInt64) :
    optField isNonNegativeInt (value.map .ofU64) = some value :=
  optField_map fun x _ => isNonNegativeInt_ofU64 x

/-- A value that passed an optional reading passed the reading. -/
theorem optField_some {α : Type} {read : Json → Option α} {v : Option Json} {x : α}
    (h : optField read v = some (some x)) : ∃ json, read json = some x := by
  cases v with
  | none => cases h
  | some json =>
    obtain ⟨y, hy, heq⟩ := Option.map_eq_some_iff.mp h
    cases heq
    exact ⟨json, hy⟩

/-- A written member is read back. -/
@[simp] theorem TextEnum.parse_toJson {α : Type} (e : TextEnum α) (member : α) :
    e.parse (e.toJson member) = some member := e.fromStr_text member

/-- An optional member is read back. -/
@[simp] theorem TextEnum.optField_toJson {α : Type} (e : TextEnum α) (value : Option α) :
    optField e.parse (value.map e.toJson) = some value :=
  optField_map fun x _ => e.parse_toJson x

end GuardLaws

section LabelLaws

/-- Trimming twice is trimming once. -/
theorem trim_trim (s : List Char) : trim (trim s) = trim s := by
  have hfront : (trim s).dropWhile PairingLink.isWhitespace = trim s := by
    cases htrim : trim s with
    | nil => rfl
    | cons c rest =>
      obtain ⟨more, hmore⟩ : trim s <+: s.dropWhile PairingLink.isWhitespace :=
        List.rdropWhile_prefix _ _
      rw [htrim, List.cons_append] at hmore
      have hne : s.dropWhile PairingLink.isWhitespace ≠ [] := by
        rw [← hmore]
        exact List.cons_ne_nil _ _
      have hhead := List.head_dropWhile_not PairingLink.isWhitespace hne
      simp only [← hmore, List.head_cons] at hhead
      rw [List.dropWhile_cons, if_neg (by rw [hhead]; decide)]
  rw [trim, hfront, trim, List.rdropWhile_idempotent]

/-- What is made of a text is trimmed. -/
theorem labelTrimmed_makeLabel (raw : Option String) : LabelTrimmed (makeLabel raw) := by
  cases raw with
  | none => trivial
  | some s =>
    rw [makeLabel]
    split
    · trivial
    · rename_i hne
      refine ⟨hne, ?_⟩
      rw [String.toList_ofList, trim_trim]

/-- A trimmed text is its own label. -/
theorem makeLabel_of_trimmed {value : String} (h : LabelTrimmed (.set value)) :
    makeLabel (some value) = .set value := by
  rw [makeLabel, h.2, String.ofList_toList]
  exact if_neg h.1

/-- The lenient reading gives trimmed labels only. -/
theorem labelTrimmed_decodeWireLabel (v : Json) : LabelTrimmed (decodeWireLabel v) := by
  cases v with
  | null => trivial
  | bool value => trivial
  | number value => trivial
  | array values => trivial
  | string s => exact labelTrimmed_makeLabel (some s)
  | object fields =>
    rw [decodeWireLabel]
    split
    · trivial
    · split
      · exact labelTrimmed_makeLabel _
      · trivial
    · trivial

/-- The lenient reading gives back every label. -/
theorem decodeWireLabel_labelToJson {label : Label} (h : LabelTrimmed label) :
    decodeWireLabel (labelToJson label) = label := by
  cases label with
  | unset => rfl
  | set value => exact makeLabel_of_trimmed h

/-- So does the guarded one. -/
theorem parseLabelField_labelToJson {label : Label} (h : LabelTrimmed label) :
    parseLabelField (some (labelToJson label)) = some label := by
  have hread := decodeWireLabel_labelToJson h
  cases label with
  | unset => rfl
  | set value => exact congrArg some hread

/-- So does the guarded one. -/
theorem labelTrimmed_of_parseLabelField {v : Option Json} {label : Label}
    (h : parseLabelField v = some label) : LabelTrimmed label := by
  cases v with
  | none =>
    cases h
    trivial
  | some v =>
    cases v with
    | null =>
      cases h
      trivial
    | bool value => cases h
    | number value => cases h
    | array values => cases h
    | string s =>
      cases h
      exact labelTrimmed_decodeWireLabel _
    | object fields =>
      rw [parseLabelField] at h
      split at h
      · cases h
        exact labelTrimmed_decodeWireLabel _
      · cases h

end LabelLaws

end Teleprompter.Wire
