import McpOperator.Yaml.Character
import McpOperator.Yaml.Plain
import McpOperator.Json.Text

namespace McpOperator.Yaml

def hasPair (p q : Char → Bool) : List Char → Bool
  | a :: b :: rest => (p a && q b) || hasPair p q (b :: rest)
  | _ => false

def hasInnerIndicator : List Char → Bool
  | a :: b :: rest =>
      (b = ':' && startsBlank rest) || (isBlank a && b = '#') || hasInnerIndicator (b :: rest)
  | _ => false

def startsIndicator : List Char → Bool
  | [] => false
  | '-' :: '-' :: '-' :: _ | '.' :: '.' :: '.' :: _ => true
  | c :: rest =>
      c ∈ ['#', ',', '[', ']', '{', '}', '&', '*', '!', '|', '>', '\'', '"', '%', '@', '\x60'] ||
        (c ∈ ['?', ':', '-'] && startsBlank rest)

inductive Style where
  | plain
  | singleQuoted
  | doubleQuoted
  | literal
deriving DecidableEq

def isSpace (c : Char) : Bool := c = ' '

def edgeBlank (cs : List Char) : Bool :=
  cs.head?.any (fun c => isSpace c || isBreak c) || cs.getLast?.any fun c => isSpace c || isBreak c

def plainAllowed (cs : List Char) : Bool :=
  !(edgeBlank cs || cs.any isBreak || cs.any isSpecial || startsIndicator cs || hasInnerIndicator cs)

def singleQuotedAllowed (cs : List Char) : Bool :=
  !(hasPair isBreak isSpace cs || hasPair isSpace isBreak cs || cs.any isSpecial)

def literalAllowed (cs : List Char) : Bool :=
  !(cs.isEmpty || cs.getLast?.any isSpace || hasPair isSpace isBreak cs || cs.any isSpecial)

/-- Text with a line feed asks for a literal block and text that would read as something else for
quotes. A key on one line with its value cannot be a block. -/
def style (isKey : Bool) (cs : List Char) : Style :=
  if cs.any (· = '\n') then
    if literalAllowed cs && !isKey then .literal else .doubleQuoted
  else if !readsAsOther (String.ofList cs) && plainAllowed cs then .plain
  else if singleQuotedAllowed cs then .singleQuoted
  else .doubleQuoted

def spaces (n : Nat) : List Char := List.replicate n ' '

def singleQuotedBody (indent : Nat) (afterBreak : Bool) : List Char → List Char
  | [] => (if afterBreak then spaces indent else []) ++ ['\'']
  | c :: rest =>
      if isBreak c then c :: singleQuotedBody indent true rest
      else
        (if afterBreak then spaces indent else []) ++
          (if c = '\'' then ['\'', '\''] else [c]) ++ singleQuotedBody indent false rest

def upperHex (width n : Nat) : List Char :=
  let ds := (Nat.toDigits 16 n).map Char.toUpper
  List.replicate (width - ds.length) '0' ++ ds

def escape (c : Char) : List Char :=
  match c.toNat with
  | 0x00 => ['\\', '0']
  | 0x07 => ['\\', 'a']
  | 0x08 => ['\\', 'b']
  | 0x09 => ['\\', 't']
  | 0x0A => ['\\', 'n']
  | 0x0B => ['\\', 'v']
  | 0x0C => ['\\', 'f']
  | 0x0D => ['\\', 'r']
  | 0x1B => ['\\', 'e']
  | 0x22 => ['\\', '"']
  | 0x5C => ['\\', '\\']
  | 0x85 => ['\\', 'N']
  | 0x2028 => ['\\', 'L']
  | 0x2029 => ['\\', 'P']
  | n =>
      if n ≤ 0xFF then '\\' :: 'x' :: upperHex 2 n
      else if n ≤ 0xFFFF then '\\' :: 'u' :: upperHex 4 n
      else '\\' :: 'U' :: upperHex 8 n

def doubleQuotedBody (cs : List Char) : List Char :=
  cs.flatMap fun c => if isSpecial c || isBreak c || c = '"' || c = '\\' then escape c else [c]

def literalHints (cs : List Char) : List Char :=
  (if cs.head?.any (fun c => isSpace c || isBreak c) then ['2'] else []) ++
    match cs.reverse with
    | [] => ['-']
    | last :: before =>
        if !isBreak last then ['-']
        else match before with
          | [] => ['+']
          | c :: _ => if isBreak c then ['+'] else []

def literalBody (indent : Nat) (afterBreak : Bool) : List Char → List Char
  | [] => []
  | c :: rest =>
      if isBreak c then c :: literalBody indent true rest
      else (if afterBreak then spaces indent else []) ++ c :: literalBody indent false rest

def scalar (isKey : Bool) (indent : Nat) (s : String) : List Char :=
  let cs := s.toList
  match style isKey cs with
  | .plain => cs
  | .singleQuoted => '\'' :: singleQuotedBody indent false cs
  | .doubleQuoted => '"' :: doubleQuotedBody cs ++ ['"']
  | .literal => '|' :: literalHints cs ++ '\n' :: literalBody indent true cs

def endLine (cs : List Char) : List Char := if cs.getLast?.any isBreak then cs else cs ++ ['\n']

/-- A key that cannot stand on one line with its value. -/
def needsOwnLine (key : String) : Bool := key.toList.any isBreak || 128 < key.utf8ByteSize

def keyChars (indent : Nat) (key : String) : List Char :=
  if needsOwnLine key then
    endLine ('?' :: ' ' :: scalar false (indent + 2) key) ++ spaces indent ++ [':']
  else scalar true (indent + 2) key ++ [':']

mutual

/-- The text of a value behind a key or dash that stands at `indent`, up to the end of its last line.
-/
def valueChars (indent : Nat) : Json → List Char
  | .null => " null\n".toList
  | .bool true => " true\n".toList
  | .bool false => " false\n".toList
  | .int n => ' ' :: (toString n).toList ++ ['\n']
  | .float d => ' ' :: d.text.toList ++ ['\n']
  | .str s => endLine (' ' :: scalar false (indent + 2) s)
  | .arr [] => " []\n".toList
  | .arr (item :: items) => '\n' :: itemChars indent (item :: items)
  | .obj [] => " \x7b\x7d\n".toList
  | .obj (member :: members) => '\n' :: memberChars (indent + 2) (member :: members)

def itemChars (indent : Nat) : List Json → List Char
  | [] => []
  | item :: rest => spaces indent ++ '-' :: dashed indent item ++ itemChars indent rest

def dashed (indent : Nat) : Json → List Char
  | .obj (member :: members) =>
      ' ' :: (memberChars (indent + 2) (member :: members)).drop (indent + 2)
  | .arr (item :: items) => ' ' :: (itemChars (indent + 2) (item :: items)).drop (indent + 2)
  | json => valueChars indent json

def memberChars (indent : Nat) : Members → List Char
  | [] => []
  | (key, value) :: rest =>
      spaces indent ++ keyChars indent key ++ valueChars indent value ++ memberChars indent rest

end

def render (json : Json) : String :=
  String.ofList <| match json with
    | .obj (member :: members) => memberChars 0 (member :: members)
    | .arr (item :: items) => itemChars 0 (item :: items)
    | json => (valueChars 0 json).drop 1

end McpOperator.Yaml
