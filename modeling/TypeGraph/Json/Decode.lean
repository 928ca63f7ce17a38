import TypeGraph.Json.Reader

/-!
# Taking JSON values apart

A decoder says which values stand for a thing and for which thing. A record may be written as an
object or as an array of its fields in order. In an object, fields that the record does not have
are ignored, and a field of the record must not occur twice.
-/

namespace TypeGraph.Json

/-- A way to understand values; `none` for a value that stands for nothing. -/
abbrev Decoder (α : Type) := Json → Option α

namespace Decoder

variable {α : Type}

/-- Texts. -/
def text : Decoder String
  | .string text => text
  | _ => none

/-- Truth values. -/
def bool : Decoder Bool
  | .bool value => some value
  | _ => none

/-- Single characters. -/
def char : Decoder Char
  | .string (some text) =>
    match text.toList with
    | [c] => some c
    | _ => none
  | _ => none

/-- Numbers. -/
def number : Decoder Number
  | .number literal => literal.value?
  | _ => none

/-- Whole numbers between two bounds. -/
def integer (least greatest : Int) : Decoder Int := fun value => do
  match ← number value with
  | .whole n => if least ≤ n ∧ n ≤ greatest then some n else none
  | .decimal _ => none

/-- Natural numbers of 64 bits. -/
def natural : Decoder Nat := fun value =>
  (integer 0 (UInt64.size - 1 : Nat) value).map Int.toNat

/-- Double-precision numbers. -/
def double : Decoder Float := fun value => do
  match ← number value with
  | .whole n => some (Float.ofInt n)
  | .decimal x => some x

/-- Single-precision numbers. A whole number is rounded at once, any other one as a double. -/
def single : Decoder Float32 := fun value => do
  match ← number value with
  | .whole n => some (Float32.ofInt n)
  | .decimal x => some x.toFloat32

/-- Lists. -/
def list (item : Decoder α) : Decoder (List α)
  | .array items => items.mapM item
  | _ => none

/-- Values that may be absent. -/
def nullable (value : Decoder α) : Decoder (Option α)
  | .null => some none
  | json => (value json).map some

/-- One of several names, written as a string or as the only key of an object, with null. -/
def choice (ofName? : String → Option α) : Decoder α
  | .string (some name) => ofName? name
  | .object [(some name, .null)] => ofName? name
  | _ => none

end Decoder

/-! ## Records -/

/-- The fields that were given for a record. -/
structure Record where
  /-- Whether the record was written as an array. -/
  positional : Bool
  fields : List (String × Json)

namespace Record

variable {α : Type}

/-- The fields of a record with the given field names. -/
def ofJson? (names : List String) : Json → Option Record
  | .object members => do
    let members ← members.mapM fun (key, value) => key.map fun name => (name, value)
    let fields := members.filter fun member => names.contains member.1
    if (fields.map Prod.fst).Nodup then some ⟨false, fields⟩ else none
  | .array items =>
    if items.length ≤ names.length then some ⟨true, names.zip items⟩ else none
  | _ => none

/-- A field that has to be given. -/
def required (r : Record) (name : String) (decoder : Decoder α) : Option α :=
  (r.fields.lookup name).bind decoder

/-- A field that has a default. -/
def withDefault (r : Record) (name : String) (decoder : Decoder α) (default : α) : Option α :=
  match r.fields.lookup name with
  | some json => decoder json
  | none => some default

/-- A field that may be absent. -/
def optional (r : Record) (name : String) (decoder : Decoder α) : Option (Option α) :=
  r.withDefault name decoder.nullable none

/-- A field that may be null, and may be left out of an object but not of an array. -/
def orNull (r : Record) (name : String) (decoder : Decoder α) : Option (Option α) :=
  if r.positional then r.required name decoder.nullable else r.optional name decoder

end Record

end TypeGraph.Json
