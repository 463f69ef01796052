import McpOperator.Json.Value
import McpOperator.SortedMap
import McpOperator.Text.Quoted
import McpOperator.Time

namespace McpOperator

inductive Shape where
  | null
  | bool (value : Bool)
  | int (value : Int)
  | float (value : Decimal)
  | str (value : String)
  | sequence
  | map
  | bareName
deriving DecidableEq

def Shape.describe : Shape → String
  | null => "null"
  | bool true => "boolean `true`"
  | bool false => "boolean `false`"
  | int n => "integer `" ++ toString n ++ "`"
  | float d => "floating point `" ++ d.text ++ "`"
  | str s => "string " ++ Text.quoted s
  | sequence => "sequence"
  | map => "map"
  | bareName => "unit variant"

def Json.shape : Json → Shape
  | .null => .null
  | .bool b => .bool b
  | .int n => .int n
  | .float d => .float d
  | .str s => .str s
  | .arr _ => .sequence
  | .obj _ => .map

inductive Base64Error where
  | symbol (byte : UInt8) (offset : Nat)
  | lastSymbol (byte : UInt8) (offset : Nat)
  | length (length : Nat)
  | padding
deriving DecidableEq

def Base64Error.message : Base64Error → String
  | symbol b i => "Invalid symbol " ++ toString b.toNat ++ ", offset " ++ toString i ++ "."
  | lastSymbol b i => "Invalid last symbol " ++ toString b.toNat ++ ", offset " ++ toString i ++ "."
  | length n => "Invalid input length: " ++ toString n
  | padding => "Invalid padding"

/-- Why a typed value could not be read. -/
inductive DecodeError where
  | wrongType (found : Shape) (expected : String)
  | wrongValue (found : Shape) (expected : String)
  | missing (field : String)
  | tooShort (position : Nat) (record : String) (fields : Nat)
  | tooLong (length : Nat)
  | tooLongFor (length fields : Nat)
  | unknownVariant (name expected : String)
  | noVariant (choice : String)
  | time (error : TimeError)
  | base64 (error : Base64Error)
deriving DecidableEq

namespace DecodeError

def named (name : String) : String := "`" ++ name ++ "`"

def message : DecodeError → String
  | wrongType found expected => "invalid type: " ++ found.describe ++ ", expected " ++ expected
  | wrongValue found expected => "invalid value: " ++ found.describe ++ ", expected " ++ expected
  | missing field => "missing field " ++ named field
  | tooShort n record k =>
      "invalid length " ++ toString n ++ ", expected struct " ++ record ++ " with " ++ toString k ++
        (if k = 1 then " element" else " elements")
  | tooLong n => "invalid length " ++ toString n ++ ", expected fewer elements in array"
  | tooLongFor n k =>
      "invalid length " ++ toString n ++ ", expected " ++ toString k ++
        (if k = 1 then " element" else " elements") ++ " in sequence"
  | unknownVariant name expected => "unknown variant " ++ named name ++ ", expected " ++ named expected
  | noVariant choice => "no variant of enum " ++ choice ++ " found in flattened data"
  | time e => e.message
  | base64 e => e.message

end DecodeError

abbrev Decoder (α : Type) := Json → Except DecodeError α

namespace Decode

def mismatch (expected : String) (json : Json) : Except DecodeError α :=
  .error (.wrongType json.shape expected)

def str : Decoder String
  | .str s => .ok s
  | json => mismatch "a string" json

def bool : Decoder Bool
  | .bool b => .ok b
  | json => mismatch "a boolean" json

def intWithin (low high : Int) (type : String) : Decoder Int
  | .int n => if low ≤ n ∧ n ≤ high then .ok n else .error (.wrongValue (.int n) type)
  | json => mismatch type json

def u16 : Decoder UInt16 := fun json =>
  (intWithin 0 65535 "u16" json).map fun n => UInt16.ofNat n.toNat

def u32 : Decoder UInt32 := fun json =>
  (intWithin 0 4294967295 "u32" json).map fun n => UInt32.ofNat n.toNat

def u64 : Decoder UInt64 := fun json =>
  (intWithin 0 18446744073709551615 "u64" json).map fun n => UInt64.ofNat n.toNat

def i32 : Decoder Int32 := fun json =>
  (intWithin (-2147483648) 2147483647 "i32" json).map Int32.ofInt

def i64 : Decoder Int64 := fun json =>
  (intWithin (-9223372036854775808) 9223372036854775807 "i64" json).map Int64.ofInt

def items (item : Decoder α) : List Json → Except DecodeError (List α)
  | [] => .ok []
  | json :: rest => do
      let a ← item json
      let as ← items item rest
      .ok (a :: as)

def list (item : Decoder α) : Decoder (List α)
  | .arr js => items item js
  | json => mismatch "a sequence" json

def bindings (value : Decoder α) : Members → Except DecodeError (List (String × α))
  | [] => .ok []
  | (key, json) :: rest => do
      let a ← value json
      let as ← bindings value rest
      .ok ((key, a) :: as)

def map (value : Decoder α) : Decoder (SortedMap α)
  | .obj members => (bindings value members).map SortedMap.ofList
  | json => mismatch "a map" json

def stringMap : Decoder StringMap := map str

def instant : Decoder Instant
  | .str s => (Instant.ofText s).mapError .time
  | json => mismatch "an RFC 3339 formatted date and time string" json

def orNull (value : Decoder α) : Decoder (Option α)
  | .null => .ok none
  | json => (value json).map some

end Decode

/-- A fault within a record, at the place that decides which fault is first: members are looked at in
ascending order of their keys, and members that are missing come after all that are present, in the
order in which the record declares them. -/
inductive FieldFault where
  | present (key : String) (error : DecodeError)
  | absent (key : String)
deriving DecidableEq

namespace FieldFault

def first : FieldFault → FieldFault → FieldFault
  | present k e, present l f => if l < k then present l f else present k e
  | present k e, absent _ => present k e
  | absent _, present l f => present l f
  | absent k, absent _ => absent k

def toError : FieldFault → DecodeError
  | present _ error => error
  | absent key => .missing key

end FieldFault

inductive PlaceFault where
  | item (error : DecodeError)
  | ended (position : Nat)

/-- How the fields of a record are read: by their keys from the members of an object, or one after
the other from the items of a list. -/
structure Fields (α : Type) where
  width : Nat
  named : Members → Except FieldFault α
  placed : Nat → List Json → Except PlaceFault (α × List Json)

namespace Fields

def done (a : α) : Fields α := ⟨0, fun _ => .ok a, fun _ items => .ok (a, items)⟩

def both (f : Except FieldFault (α → β)) (x : Except FieldFault α) : Except FieldFault β :=
  match f, x with
  | .ok g, .ok a => .ok (g a)
  | .ok _, .error e => .error e
  | .error e, .ok _ => .error e
  | .error e, .error d => .error (e.first d)

def apply (f : Fields (α → β)) (x : Fields α) : Fields β where
  width := f.width + x.width
  named members := both (f.named members) (x.named members)
  placed position items := do
    let (g, items) ← f.placed position items
    let (a, items) ← x.placed (position + f.width) items
    .ok (g a, items)

instance : Functor Fields where
  map f x := apply (done f) x

instance : Seq Fields where
  seq f x := apply f (x ())

/-- One field. `absent` is its value when there is no member for it, `ended` its value when the list
is too short to hold it. -/
def one (key : String) (value : Decoder α) (absent ended : Option α) : Fields α where
  width := 1
  named members :=
    match members.lookup key with
    | some json => (value json).mapError (.present key)
    | none => match absent with
        | some a => .ok a
        | none => .error (.absent key)
  placed position
    | json :: rest => ((value json).map (·, rest)).mapError .item
    | [] => match ended with
        | some a => .ok (a, [])
        | none => .error (.ended position)

def required (key : String) (value : Decoder α) : Fields α := one key value none none

/-- A field that may be missing or null. A list cannot leave it out. -/
def optional (key : String) (value : Decoder α) : Fields (Option α) :=
  one key (Decode.orNull value) (some none) none

/-- A field that may be missing or null, and that a list may leave out. -/
def skippable (key : String) (value : Decoder α) : Fields (Option α) :=
  one key (Decode.orNull value) (some none) (some none)

/-- A field with a default for when it is missing. Null is no value for it. -/
def defaulted (key : String) (value : Decoder α) (default : α) : Fields α :=
  one key value (some default) (some default)

/-- A field with a default for when it is missing or null. -/
def lenient (key : String) (value : Decoder α) (default : α) : Fields α :=
  one key (fun json => (Decode.orNull value json).map (·.getD default)) (some default) none

def ofMembers (fields : Fields α) (members : Members) : Except DecodeError α :=
  (fields.named members).mapError FieldFault.toError

def ofItems (fields : Fields α) (record : String) (tooLong : Nat → DecodeError)
    (items : List Json) : Except DecodeError α :=
  match fields.placed 0 items with
  | .ok (a, []) => .ok a
  | .ok (_, _ :: _) => .error (tooLong items.length)
  | .error (.item error) => .error error
  | .error (.ended position) => .error (.tooShort position record fields.width)

/-- A record of this operator, written as an object or as the list of its fields. -/
def decode (fields : Fields α) (record : String) : Decoder α
  | .obj members => fields.ofMembers members
  | .arr items => fields.ofItems record .tooLong items
  | json => Decode.mismatch ("struct " ++ record) json

/-- A record of this operator that stands within a flattened choice. -/
def decodeFlattened (fields : Fields α) (record : String) : Decoder α
  | .obj members => fields.ofMembers members
  | .arr items => fields.ofItems record (.tooLongFor · fields.width) items
  | json => Decode.mismatch ("struct " ++ record) json

/-- A record of the cluster's own kinds, written as an object only. -/
def decodeObject (fields : Fields α) (type : String) : Decoder α
  | .obj members => fields.ofMembers members
  | json => Decode.mismatch type json

end Fields
end McpOperator
