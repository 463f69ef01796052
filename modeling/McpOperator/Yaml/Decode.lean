import McpOperator.Yaml.Node
import McpOperator.Yaml.Plain

namespace McpOperator.Yaml.Node

def coreTag (name : String) : String := "tag:yaml.org,2002:" ++ name

def text? : Node → Option String
  | .scalar _ _ s => some s
  | _ => none

/-- The text of a scalar whose type is left open. A literal block is one when its tag names the type.
-/
def open? (type : String) : Node → Option String
  | .scalar .plain _ s => some s
  | .scalar .literal tag s => if tag = some (coreTag type) then some s else none
  | _ => none

def bool? (node : Node) : Option Bool := (node.open? "bool").bind Yaml.bool?

def nat? (high : Nat) (node : Node) : Option Nat :=
  ((node.open? "int").bind Yaml.nat?).filter (· ≤ high)

def u16? (node : Node) : Option UInt16 := (node.nat? 0xFFFF).map UInt16.ofNat

def u64? (node : Node) : Option UInt64 := (node.nat? 0xFFFFFFFFFFFFFFFF).map UInt64.ofNat

/-- A value or nothing, which is written as a plain null or by leaving it out. -/
def orNull? (value : Node → Option α) : Node → Option (Option α)
  | node@(.scalar .plain tag s) =>
      match tag with
      | none => if s = "" ∨ isNull s then some none else (value node).map some
      | some tag =>
          if tag = coreTag "null" then if isNull s then some none else none
          else (value node).map some
  | node => (value node).map some

def entries? : Node → Option (List (Node × Node))
  | .map _ entries => some entries
  | .scalar .plain _ "" => some []
  | _ => none

/-- The fields of a record by their names. No field that the record knows is given twice. -/
def fields? (known : List String) (node : Node) : Option (List (String × Node)) := do
  let entries ← node.entries?
  let fields ← entries.mapM fun (key, value) => key.text?.map (·, value)
  let names := (fields.map (·.1)).filter (· ∈ known)
  if names.eraseDups.length = names.length then some fields else none

def required? (value : Node → Option α) (name : String) (fields : List (String × Node)) : Option α :=
  (fields.lookup name).bind value

def defaulted? (value : Node → Option α) (default : α) (name : String)
    (fields : List (String × Node)) : Option α :=
  match fields.lookup name with
  | some node => value node
  | none => some default

end McpOperator.Yaml.Node
