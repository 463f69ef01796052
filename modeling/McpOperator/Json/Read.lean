import McpOperator.Json.Token

namespace McpOperator.Json

inductive Frame where
  | items (before : List Json)
  | members (before : Members) (key : String)
deriving DecidableEq

inductive Expecting where
  | value
  | itemOrClose
  | keyOrClose
  | key
  | colon (key : String)
  | afterValue (value : Json)
deriving DecidableEq

structure Reading where
  frames : List Frame
  expecting : Expecting

namespace Reading

def depthLimit : Nat := 127

def start : Reading := ⟨[], .value⟩

def beginArray (r : Reading) : Option Reading :=
  if r.frames.length < depthLimit then
    some ⟨.items [] :: r.frames, .itemOrClose⟩
  else none

def beginObject (r : Reading) : Option Reading :=
  if r.frames.length < depthLimit then
    some ⟨.members [] "" :: r.frames, .keyOrClose⟩
  else none

def closeObject (r : Reading) : Option Reading :=
  match r.frames with
  | .members before _ :: frames => some { r with frames, expecting := .afterValue (.obj before) }
  | _ => none

def closeArray (r : Reading) : Option Reading :=
  match r.frames with
  | .items before :: frames =>
      some { r with frames, expecting := .afterValue (.arr before.reverse) }
  | _ => none

def beginValue (r : Reading) : Token → Option Reading
  | .openBracket => r.beginArray
  | .openBrace => r.beginObject
  | .atom value => some { r with expecting := .afterValue value }
  | _ => none

def add (r : Reading) (value : Json) : Option Reading :=
  match r.frames with
  | .items before :: frames => some { r with frames := .items (value :: before) :: frames }
  | .members before key :: frames =>
      some { r with frames := .members (before.assign key value) "" :: frames }
  | [] => none

def takeKey (r : Reading) : Token → Option Reading
  | .atom (.str key) => some { r with expecting := .colon key }
  | _ => none

def takeAfter (r : Reading) (value : Json) : Token → Option Reading
  | .comma => do
      let r ← r.add value
      match r.frames with
      | .items _ :: _ => some { r with expecting := .value }
      | _ => some { r with expecting := .key }
  | .closeBracket => do (← r.add value).closeArray
  | .closeBrace => do (← r.add value).closeObject
  | _ => none

def take (r : Reading) (token : Token) : Option Reading :=
  match r.expecting, token with
  | .itemOrClose, .closeBracket => r.closeArray
  | .keyOrClose, .closeBrace => r.closeObject
  | .value, t => r.beginValue t
  | .itemOrClose, t => r.beginValue t
  | .keyOrClose, t => r.takeKey t
  | .key, t => r.takeKey t
  | .colon key, .colon =>
      match r.frames with
      | .members before _ :: frames =>
          some { r with frames := .members before key :: frames, expecting := .value }
      | _ => none
  | .colon _, _ => none
  | .afterValue value, t => r.takeAfter value t

def result? (r : Reading) : Option Json :=
  match r.frames, r.expecting with
  | [], .afterValue value => some value
  | _, _ => none

end Reading

/-- The tree that a text is written for, if it is JSON. Of two members with one key the later one's
value stands. Containers nest at most `depthLimit` deep. -/
def ofText? (text : String) : Option Json := do
  let tokens ← Token.ofText? text
  let reading ← tokens.foldlM Reading.take Reading.start
  reading.result?

end McpOperator.Json
