import McpOperator.Yaml.Decode
import McpOperator.Json.Value

namespace McpOperator.Yaml.Node

def floatOf? (s : String) : Option Json :=
  if isZeroLed s.toList then none
  else
    let number := match s.toList with
      | '-' :: rest => decimal? true rest
      | '+' :: rest => decimal? false rest
      | cs => decimal? false cs
    (number.filter Decimal.isFinite).map .float

def openScalar (s : String) : Json :=
  if s = "" ∨ isNull s then .null
  else match Yaml.bool? s, Yaml.int? s, floatOf? s with
    | some b, _, _ => .bool b
    | _, some n, _ => .int n
    | _, _, some f => f
    | _, _, _ => .str s

/-- Tags that begin with an exclamation mark say nothing about the type. -/
def isLocal (tag : String) : Bool := tag.toList.head? = some '!'

def scalarValue? (form : Form) (tag : Option String) (s : String) : Option Json :=
  match tag with
  | none => some (if form = .plain then openScalar s else .str s)
  | some tag =>
      if tag = coreTag "bool" then (Yaml.bool? s).map .bool
      else if tag = coreTag "int" then (Yaml.int? s).map .int
      else if tag = coreTag "float" then floatOf? s
      else if tag = coreTag "null" then if isNull s then some .null else none
      else if isLocal tag ∧ form = .plain then some (openScalar s)
      else some (.str s)

mutual

/-- None for a key that is no scalar or is given twice, and for a value that its tag does not fit. -/
def value? : Node → Option Json
  | .scalar form tag s => scalarValue? form tag s
  | .seq _ items => (values? items).map .arr
  | .map _ entries => (members? entries).map .obj
  | .enclosing => none

def values? : List Node → Option (List Json)
  | [] => some []
  | item :: rest => do
      let value ← value? item
      let values ← values? rest
      some (value :: values)

def members? : List (Node × Node) → Option Members
  | [] => some []
  | (key, node) :: rest => do
      let name ← key.text?
      let value ← value? node
      let members ← members? rest
      if (members.lookup name).isSome then none else some (Members.insert name value members)

end
end McpOperator.Yaml.Node
