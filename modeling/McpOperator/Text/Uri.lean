namespace McpOperator.Uri

def isWithin (low high : Nat) (c : Char) : Bool := low ≤ c.toNat && c.toNat ≤ high

def isPathChar (c : Char) : Bool :=
  c ∈ ['!', '=', '|', '"', '{', '}'] || isWithin 0x24 0x3B c || isWithin 0x40 0x5F c ||
    isWithin 0x61 0x7A c || 0x7E ≤ c.toNat

def isQueryChar (c : Char) : Bool := c = '!' || isWithin 0x24 0x3B c || c = '=' || 0x3F ≤ c.toNat

/-- What is left of a query once a fragment is cut off; none when it holds a character that has to be
escaped. -/
def query? : List Char → Option (List Char)
  | [] => some []
  | '#' :: _ => some []
  | c :: rest => if isQueryChar c then (query? rest).map (c :: ·) else none

def pathAndQuery? : List Char → Option (List Char)
  | [] => some []
  | '?' :: rest => (query? rest).map ('?' :: ·)
  | '#' :: _ => some []
  | c :: rest => if isPathChar c then (pathAndQuery? rest).map (c :: ·) else none

def isSchemeChar (c : Char) : Bool := c.isAlphanum || c ∈ ['+', '-', '.']

def isAuthorityChar (c : Char) : Bool :=
  c.isAlphanum || c ∈ ['!', '$', '&', '\'', '(', ')', '*', '+', ',', '-', '.', ';', '=', '_', '~']

/-- What has been met of an authority: colons since the last bracket or sign, the brackets, escapes
since then, and whether the sign was the last character. -/
structure AuthorityScan where
  colons : Nat
  opened : Bool
  closed : Bool
  escaped : Bool
  afterSign : Bool
deriving DecidableEq

namespace AuthorityScan

def start : AuthorityScan := ⟨0, false, false, false, false⟩

def step? (s : AuthorityScan) (c : Char) : Option AuthorityScan :=
  let s := { s with afterSign := false }
  if c = ':' then if s.colons < 8 then some { s with colons := s.colons + 1 } else none
  else if c = '[' then if s.escaped || s.opened then none else some { s with opened := true }
  else if c = ']' then
    if !s.opened || s.closed then none
    else some { s with closed := true, colons := 0, escaped := false }
  else if c = '@' then some { s with colons := 0, escaped := false, afterSign := true }
  else if c = '%' then some { s with escaped := true }
  else if isAuthorityChar c then some s
  else none

def isComplete (s : AuthorityScan) : Bool :=
  s.opened = s.closed && s.colons ≤ 1 && !s.afterSign && !s.escaped

end AuthorityScan

def isAuthority (cs : List Char) : Bool :=
  (cs.foldlM AuthorityScan.step? AuthorityScan.start).any (·.isComplete)

def afterScheme? (cs : List Char) : Option (List Char) :=
  match cs.dropWhile isSchemeChar with
  | ':' :: '/' :: '/' :: rest => some rest
  | _ => none

def schemeLength (cs : List Char) : Nat := (cs.takeWhile isSchemeChar).length

def endsAuthority (c : Char) : Bool := c = '/' || c = '?' || c = '#'

def maxBytes : Nat := 65534

def isValid (s : String) : Bool :=
  let cs := s.toList
  if cs = [] ∨ maxBytes < s.utf8ByteSize then false
  else if cs = ['*'] then true
  else if cs.head? = some '/' then (pathAndQuery? cs).isSome
  else match afterScheme? cs with
    | some rest =>
        let authority := rest.takeWhile fun c => !endsAuthority c
        schemeLength cs ≤ 64 && !authority.isEmpty && isAuthority authority &&
          (pathAndQuery? (rest.drop authority.length)).isSome
    | none => cs.all (fun c => !endsAuthority c) && isAuthority cs

end McpOperator.Uri
