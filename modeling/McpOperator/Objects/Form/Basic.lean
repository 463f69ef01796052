import McpOperator.Objects.Meta

namespace McpOperator

/-- A required member is always written, and has a default for when there is none to read. -/
inductive Presence where
  | required
  | optional
deriving DecidableEq

mutual

/-- The forms of values that are read, passed on and written again without a look at what is in them. -/
inductive Form where
  | bool
  | int32
  | int64
  | text
  | time
  | portTarget
  | list (item : Form)
  | map (value : Form)
  | record (type : String) (members : FormMembers)

inductive FormMembers where
  | nil
  | cons (key : String) (presence : Presence) (form : Form) (rest : FormMembers)

end

def FormMembers.ofList : List (String × Presence × Form) → FormMembers
  | [] => nil
  | (key, presence, form) :: rest => cons key presence form (ofList rest)

abbrev WholeInstant := { t : Instant // t.Whole }

mutual

def Form.Value : Form → Type
  | .bool => Bool
  | .int32 => Int32
  | .int64 => Int64
  | .text => String
  | .time => WholeInstant
  | .portTarget => PortTarget
  | .list item => List item.Value
  | .map value => SortedMap value.Value
  | .record _ members => members.Values

def FormMembers.Values : FormMembers → Type
  | .nil => Unit
  | .cons _ .required form rest => form.Value × rest.Values
  | .cons _ .optional form rest => Option form.Value × rest.Values

end

mutual

def Form.decEq : (form : Form) → DecidableEq form.Value
  | .bool => inferInstanceAs (DecidableEq Bool)
  | .int32 => inferInstanceAs (DecidableEq Int32)
  | .int64 => inferInstanceAs (DecidableEq Int64)
  | .text => inferInstanceAs (DecidableEq String)
  | .time => inferInstanceAs (DecidableEq WholeInstant)
  | .portTarget => inferInstanceAs (DecidableEq PortTarget)
  | .list item =>
      have := item.decEq
      inferInstanceAs (DecidableEq (List item.Value))
  | .map value =>
      have := value.decEq
      inferInstanceAs (DecidableEq (SortedMap value.Value))
  | .record _ members => members.decEq

def FormMembers.decEq : (members : FormMembers) → DecidableEq members.Values
  | .nil => inferInstanceAs (DecidableEq Unit)
  | .cons _ .required form rest =>
      have := form.decEq
      have := rest.decEq
      inferInstanceAs (DecidableEq (form.Value × rest.Values))
  | .cons _ .optional form rest =>
      have := form.decEq
      have := rest.decEq
      inferInstanceAs (DecidableEq (Option form.Value × rest.Values))

end

mutual

def Form.default : (form : Form) → form.Value
  | .bool => false
  | .int32 => (0 : Int32)
  | .int64 => (0 : Int64)
  | .text => ""
  | .time => ⟨.epoch, rfl⟩
  | .portTarget => PortTarget.number 0
  | .list _ => []
  | .map _ => SortedMap.empty
  | .record _ members => members.default

def FormMembers.default : (members : FormMembers) → members.Values
  | .nil => ()
  | .cons _ .required form rest => (form.default, rest.default)
  | .cons _ .optional _ rest => (none, rest.default)

end

def Decode.wholeInstant : Decoder WholeInstant := fun json =>
  (instant json).map fun t => ⟨t.wholeSeconds, t.whole_wholeSeconds⟩

mutual

def Form.decode : (form : Form) → Decoder form.Value
  | .bool => Decode.bool
  | .int32 => Decode.i32
  | .int64 => Decode.i64
  | .text => Decode.str
  | .time => Decode.wholeInstant
  | .portTarget => PortTarget.decode
  | .list item => Decode.list item.decode
  | .map value => Decode.map value.decode
  | .record type members => members.fields.decodeObject type

def FormMembers.fields : (members : FormMembers) → Fields members.Values
  | .nil => Fields.done ()
  | .cons key .required form rest =>
      Prod.mk <$> Fields.lenient key form.decode form.default <*> rest.fields
  | .cons key .optional form rest => Prod.mk <$> Fields.optional key form.decode <*> rest.fields

end

mutual

def Form.encode : (form : Form) → form.Value → Json
  | .bool => .bool
  | .int32 => .ofInt32
  | .int64 => .ofInt64
  | .text => .str
  | .time => fun t : WholeInstant => .str t.1.text
  | .portTarget => PortTarget.encode
  | .list item => .ofList item.encode
  | .map value => .ofMap value.encode
  | .record _ members => fun values => .record (members.encode values)

def FormMembers.encode : (members : FormMembers) → members.Values → List (String × Option Json)
  | .nil => fun _ => []
  | .cons key .required form rest => fun (value, values) =>
      (key, some (form.encode value)) :: rest.encode values
  | .cons key .optional form rest => fun (value, values) =>
      (key, value.map form.encode) :: rest.encode values

end

def FormMembers.keys : FormMembers → List String
  | .nil => []
  | .cons key _ _ rest => key :: rest.keys

mutual

/-- In every record the members stand in ascending order of their keys. -/
def Form.ascending : Form → Bool
  | .bool | .int32 | .int64 | .text | .time | .portTarget => true
  | .list item => item.ascending
  | .map value => value.ascending
  | .record _ members => decide (members.keys.Pairwise (· < ·)) && members.ascending

def FormMembers.ascending : FormMembers → Bool
  | .nil => true
  | .cons _ _ form rest => form.ascending && rest.ascending

end

structure Layout where
  form : Form
  ascending : form.ascending = true

namespace Layout

def Value (layout : Layout) : Type := layout.form.Value

instance (layout : Layout) : DecidableEq layout.Value := layout.form.decEq

def decode (layout : Layout) : Decoder layout.Value := layout.form.decode

def encode (layout : Layout) : layout.Value → Json := layout.form.encode

end Layout
end McpOperator
