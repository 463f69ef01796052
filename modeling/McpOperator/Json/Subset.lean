import McpOperator.Json.Value

namespace McpOperator.Json

/-- Numbers with a fraction are equal when they are the same double. -/
def agrees : Json → Json → Bool
  | .float a, .float b => a.double == b.double
  | a, b => beq a b

mutual

/-- One tree holds everything that another sets: objects may have more members, lists have to agree
item by item, and all else has to be equal. -/
def isSubset : Json → Json → Bool
  | .obj desired, .obj live => membersSubset desired live
  | .arr desired, .arr live => itemsSubset desired live
  | desired, live => agrees desired live

def membersSubset : Members → Members → Bool
  | [], _ => true
  | (key, value) :: rest, live =>
      (match live.lookup key with
        | some other => isSubset value other
        | none => false) && membersSubset rest live

def itemsSubset : List Json → List Json → Bool
  | [], [] => true
  | value :: rest, other :: others => isSubset value other && itemsSubset rest others
  | _, _ => false

end

end McpOperator.Json
