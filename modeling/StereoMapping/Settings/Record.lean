import StereoMapping.Number.Scalar
import StereoMapping.Settings.Json

/-!
# `Settings.Record` — settings as JSON values

A record is an object or an array. In an object, fields that are missing keep their value, unknown members
are ignored and no field may be given twice. An array gives the fields in their order; it may end early, but
not run on. A count is a whole number of 64 bits, a scalar any number in range. A record is written as an
object of all its fields.

## Contents
- `Codec`: how a value is read and written; `count`, `scalar`, `stored`, `bool`, `optional`, `pair`, `variant`.
- `Field`, `Codec.record`: records.
-/

namespace StereoMapping

/-- A text as a string. -/
def Json.ofText (text : String) : Json := .string (text.toList.map Char.toNat)

/-- The text of a string. -/
def Json.text? : Json → Option String
  | string units => units.decode?.map String.ofList
  | _ => none

/-- The name of an alternative: a string, or the name of the only member of an object if that is null. -/
def Json.alternative? : Json → Option String
  | string units => units.decode?.map String.ofList
  | object [(units, null)] => units.decode?.map String.ofList
  | _ => none

/-- How a value is read and written. -/
structure Codec (α : Type) where
  read? : Json → Option α
  write : α → Json

namespace Codec

/-! ## Values of fields -/

/-- A count: a number of 64 bits without sign, point and exponent. -/
def count : Codec Nat where
  read?
    | .number (.finite false digits _) true => if digits ≤ largestWord then some digits else none
    | _ => none
  write n := .number (.finite false n 0) true

/-- A scalar of working precision. A number beyond its range is refused. -/
def scalar {D : Type} [Scalar D] : Codec D where
  read?
    | .number n _ =>
      let x : D := Scalar.ofNumeral n
      if Scalar.isFinite x then some x else none
    | _ => none
  write x := .number (Scalar.numeral x) false

/-- A whole number of 64 bits, with or without sign. The negative zero is no such number. -/
def whole? : Json → Option Int
  | .number (.finite false digits _) true => if digits ≤ largestWord then some digits else none
  | .number (.finite true digits _) true =>
    if 0 < digits ∧ digits ≤ 0x8000000000000000 then some (-digits) else none
  | _ => none

/-- A scalar of storage precision. A whole number is rounded once, any other one by way of working precision. -/
def stored {S D : Type} [Scalar S] [Scalar D] [Precision S D] : Codec S where
  read? j :=
    match whole? j with
    | some (.ofNat n) => some (Scalar.ofNat n)
    | some (.negSucc n) => some (-Scalar.ofNat (n + 1))
    | none => (scalar.read? j).map (narrow : D → S)
  write x := scalar.write (widen x : D)

def bool : Codec Bool where
  read?
    | .bool b => some b
    | _ => none
  write := .bool

/-- Nothing, or a value. -/
def optional {α : Type} (c : Codec α) : Codec (Option α) where
  read?
    | .null => some none
    | j => (c.read? j).map some
  write
    | some a => c.write a
    | none => .null

/-- An array of exactly two values. -/
def pair {α : Type} (c : Codec α) : Codec (α × α) where
  read?
    | .array [a, b] => do return (← c.read? a, ← c.read? b)
    | _ => none
  write p := .array [c.write p.1, c.write p.2]

/-- One of some named alternatives, written as its name. -/
def variant {α : Type} [BEq α] (names : List (String × α)) : Codec α where
  read? j := j.alternative?.bind fun name => names.lookup name
  write a :=
    match names.find? fun (_, b) => b == a with
    | some (name, _) => .ofText name
    | none => .null

end Codec

/-! ## Records -/

/-- A field of a record: its name, its value in a record, and how another value replaces it. -/
structure Field (α : Type) where
  name : String
  get : α → Json
  set : Json → α → Option α

/-- The field with a codec, a value in each record, and a way to replace it. -/
def Field.of {α β : Type} (name : String) (c : Codec β) (get : α → β) (set : β → α → α) : Field α where
  name := name
  get record := c.write (get record)
  set j record := (c.read? j).map fun b => set b record

namespace Json

/-- The record after the members of an object. `seen` are the fields given so far. -/
def setMembers? {α : Type} (fields : List (Field α)) :
    List String → α → List (StringUnits × Json) → Option α
  | _, record, [] => some record
  | seen, record, (units, value) :: rest => do
    let name := String.ofList (← units.decode?)
    match fields.find? fun f => f.name == name with
    | none => setMembers? fields seen record rest
    | some field =>
      if seen.contains name then none
      else setMembers? fields (name :: seen) (← field.set value record) rest

/-- The record after the items of an array. -/
def setItems? {α : Type} : List (Field α) → α → List Json → Option α
  | _, record, [] => some record
  | field :: fields, record, item :: items => do setItems? fields (← field.set item record) items
  | [], _, _ :: _ => none

end Json

/-- A record with some fields given and the others as in `base`. -/
def Codec.record {α : Type} (fields : List (Field α)) (base : α) : Codec α where
  read?
    | .object members => Json.setMembers? fields [] base members
    | .array items => Json.setItems? fields base items
    | _ => none
  write a := .object (fields.map fun f => (f.name.toList.map Char.toNat, f.get a))

end StereoMapping
