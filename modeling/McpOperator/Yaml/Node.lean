import McpOperator.Yaml.Token

namespace McpOperator.Yaml

/-- A tree as it was written; the meaning of scalars is left to the reader. A reference to a
collection from inside of that collection is `enclosing`. -/
inductive Node where
  | scalar (form : Form) (tag : Option String) (text : String)
  | seq (tag : Option String) (items : List Node)
  | map (tag : Option String) (entries : List (Node × Node))
  | enclosing
deriving Inhabited

namespace Node

def missing : Node := .scalar .plain none ""

structure Reader where
  tokens : List Token
  anchors : List (String × Node)
  prefixes : List (String × String)

namespace Reader

def drop (r : Reader) : Reader := { r with tokens := r.tokens.drop 1 }

def isAt (r : Reader) (ts : List Token) : Bool := r.tokens.head?.any (· ∈ ts)

/-- Names the node that has been read. Names given inside of it to others stay with those. -/
def bind (r : Reader) (anchor : Option String) (node : Node) : Reader :=
  match anchor with
  | none => r
  | some name =>
      match r.anchors.lookup name with
      | some .enclosing | none => { r with anchors := (name, node) :: r.anchors }
      | some _ => r

def enter (r : Reader) (anchor : Option String) : Reader :=
  match anchor with
  | none => r
  | some name => { r with anchors := (name, .enclosing) :: r.anchors }

def resolve? (r : Reader) (handle suffix : String) : Option String :=
  if handle = "" then some suffix else (r.prefixes.lookup handle).map (· ++ suffix)

def properties? (r : Reader) : Option (Option String × Option String × Reader) :=
  match r.tokens with
  | .anchor name :: .tag handle suffix :: rest | .tag handle suffix :: .anchor name :: rest =>
      (r.resolve? handle suffix).map fun tag => (some name, some tag, { r with tokens := rest })
  | .anchor name :: rest => some (some name, none, { r with tokens := rest })
  | .tag handle suffix :: rest =>
      (r.resolve? handle suffix).map fun tag => (none, some tag, { r with tokens := rest })
  | _ => some (none, none, r)

end Reader

mutual

/-- The next node. `block` allows block collections and `indentless` also a list whose dashes are not
indented. The first argument bounds the number of steps. -/
def read? : Nat → Bool → Bool → Reader → Option (Node × Reader)
  | 0, _, _, _ => none
  | n + 1, block, indentless, r =>
      match r.tokens with
      | .alias name :: _ => (r.anchors.lookup name).map fun node => (node, r.drop)
      | _ => do
          let (anchor, tag, r) ← r.properties?
          let r := r.enter anchor
          let (node, r) ← match r.tokens with
            | .scalar form text :: _ =>
                some (.scalar form (tag.filter (· ≠ "!")) text, r.drop)
            | .flowSeqStart :: _ => do
                let (items, r) ← flowItems? n true r.drop
                some (.seq tag items, r)
            | .flowMapStart :: _ => do
                let (entries, r) ← flowEntries? n true r.drop
                some (.map tag entries, r)
            | .blockSeqStart :: _ => do
                if !block then none
                let (items, r) ← blockItems? n r.drop
                some (.seq tag items, r)
            | .blockMapStart :: _ => do
                if !block then none
                let (entries, r) ← blockEntries? n r.drop
                some (.map tag entries, r)
            | tokens =>
                if indentless && tokens.head? = some .dash then do
                  let (items, r) ← indentlessItems? n r
                  some (.seq tag items, r)
                else if anchor.isSome || tag.isSome then
                  some (.scalar .plain (tag.filter (· ≠ "!")) "", r)
                else none
          some (node, r.bind anchor node)

def readUnless? : Nat → Bool → Bool → List Token → Reader → Option (Node × Reader)
  | 0, _, _, _, _ => none
  | n + 1, block, indentless, ts, r =>
      if r.isAt ts then some (missing, r) else read? n block indentless r

def blockItems? : Nat → Reader → Option (List Node × Reader)
  | 0, _ => none
  | n + 1, r =>
      if r.isAt [.blockEnd] then some ([], r.drop)
      else if r.isAt [.dash] then do
        let (item, r) ← readUnless? n true false [.dash, .blockEnd] r.drop
        let (items, r) ← blockItems? n r
        some (item :: items, r)
      else none

def indentlessItems? : Nat → Reader → Option (List Node × Reader)
  | 0, _ => none
  | n + 1, r =>
      if r.isAt [.dash] then do
        let (item, r) ← readUnless? n true false [.dash, .key, .value, .blockEnd] r.drop
        let (items, r) ← indentlessItems? n r
        some (item :: items, r)
      else some ([], r)

def blockEntries? : Nat → Reader → Option (List (Node × Node) × Reader)
  | 0, _ => none
  | n + 1, r =>
      if r.isAt [.blockEnd] then some ([], r.drop)
      else if r.isAt [.key] then do
        let (key, r) ← readUnless? n true true [.key, .value, .blockEnd] r.drop
        let (value, r) ← valueOf? n true [.key, .value, .blockEnd] r
        let (entries, r) ← blockEntries? n r
        some ((key, value) :: entries, r)
      else none

def valueOf? : Nat → Bool → List Token → Reader → Option (Node × Reader)
  | 0, _, _, _ => none
  | n + 1, block, ts, r =>
      if r.isAt [.value] then readUnless? n block block ts r.drop else some (missing, r)

def flowItems? : Nat → Bool → Reader → Option (List Node × Reader)
  | 0, _, _ => none
  | n + 1, first, r =>
      if r.isAt [.flowSeqEnd] then some ([], r.drop)
      else if !first && !r.isAt [.comma] then none
      else
        let r := if first then r else r.drop
        if r.isAt [.flowSeqEnd] then some ([], r.drop)
        else do
          let (item, r) ← if r.isAt [.key] then flowPair? n r.drop else read? n false false r
          let (items, r) ← flowItems? n false r
          some (item :: items, r)

def flowPair? : Nat → Reader → Option (Node × Reader)
  | 0, _ => none
  | n + 1, r => do
      let (key, r) ←
        if r.isAt [.value, .comma, .flowSeqEnd] then some (missing, r.drop) else read? n false false r
      let (value, r) ← valueOf? n false [.comma, .flowSeqEnd] r
      some (.map none [(key, value)], r)

def flowEntries? : Nat → Bool → Reader → Option (List (Node × Node) × Reader)
  | 0, _, _ => none
  | n + 1, first, r =>
      if r.isAt [.flowMapEnd] then some ([], r.drop)
      else if !first && !r.isAt [.comma] then none
      else
        let r := if first then r else r.drop
        if r.isAt [.flowMapEnd] then some ([], r.drop)
        else do
          let (key, value, r) ←
            if r.isAt [.key] then do
              let (key, r) ← readUnless? n false false [.value, .comma, .flowMapEnd] r.drop
              let (value, r) ← valueOf? n false [.comma, .flowMapEnd] r
              some (key, value, r)
            else do
              let (key, r) ← read? n false false r
              some (key, missing, r)
          let (entries, r) ← flowEntries? n false r
          some ((key, value) :: entries, r)

end

def defaultPrefixes : List (String × String) := [("!", "!"), ("!!", "tag:yaml.org,2002:")]

/-- The directives in front of a document: at most one version, and no handle twice. -/
def directives? (versioned : Bool) (prefixes : List (String × String)) :
    List Token → Option (List (String × String) × List Token)
  | .version major minor :: rest =>
      if versioned || major ≠ 1 || !(minor = 1 || minor = 2) then none
      else directives? true prefixes rest
  | .tagPrefix handle text :: rest =>
      if (prefixes.lookup handle).isSome then none
      else directives? versioned ((handle, text) :: prefixes) rest
  | tokens => some (prefixes ++ defaultPrefixes, tokens)

def isDirective : Token → Bool
  | .version _ _ | .tagPrefix _ _ => true
  | _ => false

def endsDocument (t : Token) : Bool := isDirective t || t = .documentStart || t = .documentEnd

def steps (tokens : List Token) : Nat := 4 * tokens.length + 4

/-- All documents. Only the first one may begin without a mark. -/
def documents? : Nat → Bool → List Token → Option (List Node)
  | 0, _, _ => none
  | n + 1, bare, tokens =>
      let tokens := if bare then tokens else tokens.dropWhile (· = .documentEnd)
      match tokens with
      | [] => some []
      | t :: _ => do
          let (node, r) ←
            if bare && !isDirective t && t ≠ .documentStart then
              read? (steps tokens) true false ⟨tokens, [], defaultPrefixes⟩
            else do
              let (prefixes, tokens) ← directives? false [] tokens
              if tokens.head? ≠ some .documentStart then none
              let rest := tokens.drop 1
              if rest.head?.all endsDocument then some (missing, ⟨rest, [], prefixes⟩)
              else read? (steps rest) true false ⟨rest, [], prefixes⟩
          let rest := if r.isAt [.documentEnd] then r.tokens.drop 1 else r.tokens
          let nodes ← documents? n false rest
          some (node :: nodes)

def all? (s : String) : Option (List Node) := do
  let tokens ← tokens? s
  documents? (tokens.length + 1) true tokens

def ofText? (s : String) : Option Node :=
  match all? s with
  | some [node] => some node
  | _ => none

end Node
end McpOperator.Yaml
