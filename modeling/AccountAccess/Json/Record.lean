import AccountAccess.Json.Reader

/-!
# Reading records, choices and optional values

A record is an object whose fields may come in any order.  Fields with other
names are skipped; a field that comes twice, or that is missing and not optional,
makes the value unsuitable.  A record may also be written as the array of its
fields in order, all of them present.

A choice is one of a fixed list of names, written as a string, or as an object
with the name as its only field and `null` as the value.
-/

namespace AccountAccess
namespace Json

/-- A string. -/
def string : Reader String := do
  if (← peek) = 0x22 then
    advance
    stringBody
  else unsuitable

/-- A truth value. -/
def boolean : Reader Bool := do
  let b ← peek
  if b = 0x74 then
    expect [0x74, 0x72, 0x75, 0x65]
    return true
  else if b = 0x66 then
    expect [0x66, 0x61, 0x6C, 0x73, 0x65]
    return false
  else unsuitable

/-- A whole number between two bounds. -/
def integerIn (least greatest : Int) : Reader Int := do
  let b ← peek
  if b = 0x2D ∨ isDigit b then
    match ← number with
    | .whole value => if least ≤ value ∧ value ≤ greatest then return value else fail .unsuitable
    | .real => fail .unsuitable
  else unsuitable

/-- A signed 64-bit integer. -/
def int64 : Reader Int64 :=
  Int64.ofInt <$> integerIn Int64.minValue.toInt Int64.maxValue.toInt

/-- A signed 32-bit integer. -/
def int32 : Reader Int32 :=
  Int32.ofInt <$> integerIn Int32.minValue.toInt Int32.maxValue.toInt

/-- `null` or a value. -/
def nullable (read : Reader α) : Reader (Option α) := do
  if (← peek) = 0x6E then
    expect [0x6E, 0x75, 0x6C, 0x6C]
    return none
  else some <$> read

/-- A string that a further rule interprets; a string outside the rule is
unsuitable. -/
def interpreted (rule : String → Option α) : Reader α := do
  match rule (← string) with
  | some value => return value
  | none => fail .unsuitable

/-- One of a list of named values.  A value that starts like neither form is
malformed, whatever it is, and so is an object whose first field has no name. -/
def choice (rule : String → Option α) : Reader α := do
  let b ← peek
  if b = 0x22 then interpreted rule
  else if b = 0x7B then
    advance
    if (← peek) ≠ 0x22 then fail .malformed
    let value ← interpreted rule
    mark 0x3A
    if (← peek) = 0x6E then expect [0x6E, 0x75, 0x6C, 0x6C] else unsuitable
    mark 0x7D
    return value
  else fail .malformed

/-! ## Records -/

/-- A field of a record that is filled in step by step: its name, whether it has
been read, and how to read it. -/
structure Field (σ : Type) where
  name : String
  isSet : σ → Bool
  read : Reader (σ → σ)

/-- A field kept in an optional slot of the draft. -/
def field (name : String) (read : Reader α) (slot : σ → Option α) (fill : α → σ → σ) :
    Field σ :=
  ⟨name, fun draft => (slot draft).isSome, fill <$> read⟩

/-- The fields of an object after its opening brace.  Every round takes one field,
so the number of bytes bounds the rounds. -/
def objectRounds (fields : List (Field σ)) : Nat → Bool → σ → Reader σ
  | 0, _, _ => fail .malformed
  | rounds + 1, isFirst, draft => do
    let b ← peek
    if b = 0x7D then
      return draft
    else
      if ¬isFirst then mark 0x2C
      mark 0x22
      let name ← stringBody
      match fields.find? (·.name == name) with
      | some f =>
        if f.isSet draft then fail .unsuitable
        mark 0x3A
        let fill ← f.read
        objectRounds fields rounds false (fill draft)
      | none =>
        mark 0x3A
        skipValue
        objectRounds fields rounds false draft

/-- The fields of an array after its opening bracket, in order. -/
def arrayFields : Bool → List (Field σ) → σ → Reader σ
  | _, [], draft => return draft
  | isFirst, f :: fields, draft => do
    if (← peek) = 0x5D then fail .unsuitable
    if ¬isFirst then
      mark 0x2C
      if (← peek) = 0x5D then fail .malformed
    let fill ← f.read
    arrayFields false fields (fill draft)

/-- A record: its fields are read into a draft, which must then be complete. -/
def record (fields : List (Field σ)) (empty : σ) (complete : σ → Option α) : Reader α := do
  let b ← peek
  if b = 0x7B then
    advance
    let rest ← get
    let draft ← objectRounds fields (rest.length + 1) true empty
    match complete draft with
    | some value =>
      mark 0x7D
      return value
    | none => fail .unsuitable
  else if b = 0x5B then
    advance
    let draft ← arrayFields true fields empty
    match complete draft with
    | some value =>
      mark 0x5D
      return value
    | none => fail .unsuitable
  else unsuitable

/-- A whole text that holds one value. -/
def readAll (read : Reader α) (input : List UInt8) : Except Fault α :=
  (read input).bind fun (value, rest) => (finish rest).map fun _ => value

end Json
end AccountAccess
