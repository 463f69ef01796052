import McpOperator.Json.Token
import McpOperator.Table

namespace McpOperator.Json

inductive PointerError where
  | noSuchElement
  | intoScalar
deriving DecidableEq

namespace Pointer

/-- A slash and a tilde within a key are written with a tilde in front. -/
def unescape : List Char → List Char
  | '~' :: '1' :: rest => '/' :: unescape rest
  | '~' :: '0' :: rest => '~' :: unescape rest
  | c :: rest => c :: unescape rest
  | [] => []

def segments : List Char → List (List Char)
  | [] => [[]]
  | '/' :: rest => [] :: segments rest
  | c :: rest =>
      match segments rest with
      | segment :: others => (c :: segment) :: others
      | [] => [[c]]

def ofText? (s : String) : Option (List String) :=
  match s.toList with
  | [] => some []
  | '/' :: rest => some ((segments rest).map fun cs => String.ofList (unescape cs))
  | _ => none

/-- A position in a list, without leading zeros or a sign. -/
def index? (step : String) : Option Nat :=
  let cs := step.toList
  if cs.isEmpty ∨ !cs.all Char.isDigit ∨ (1 < cs.length ∧ cs.head? = some '0') then none
  else some (Token.natOfDigits cs)

end Pointer

def at? : Json → List String → Option Json
  | json, [] => some json
  | .obj members, step :: rest => do (← members.lookup step).at? rest
  | .arr items, step :: rest => do
      let i ← Pointer.index? step
      (← items[i]?).at? rest
  | _, _ => none

/-- Puts a value at a place. Objects that are missing on the way, or null, are made; elements of lists
have to be there. -/
def put (value : Json) : List String → Json → Except PointerError Json
  | [], _ => .ok value
  | step :: rest, .obj members => do
      let child ← put value rest ((members.lookup step).getD .null)
      .ok (.obj (Table.put members step child))
  | step :: rest, .null => do
      let child ← put value rest .null
      .ok (.obj [(step, child)])
  | step :: rest, .arr items =>
      match Pointer.index? step with
      | none => .error .noSuchElement
      | some i => match items[i]? with
          | none => .error .noSuchElement
          | some child => do
              let child ← put value rest child
              .ok (.arr (items.set i child))
  | _, _ => .error .intoScalar

end McpOperator.Json
