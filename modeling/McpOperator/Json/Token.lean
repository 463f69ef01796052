import McpOperator.Json.Value

namespace McpOperator.Json

inductive Token where
  | openBracket | closeBracket | openBrace | closeBrace | comma | colon
  | atom (value : Json)
deriving DecidableEq

namespace Token

def digitValue (c : Char) : Nat := c.toNat - 48

def natOfDigits (ds : List Char) : Nat := ds.foldl (fun n c => 10 * n + digitValue c) 0

def hexValue? (c : Char) : Option Nat :=
  if '0' ≤ c ∧ c ≤ '9' then some (c.toNat - 48)
  else if 'a' ≤ c ∧ c ≤ 'f' then some (c.toNat - 87)
  else if 'A' ≤ c ∧ c ≤ 'F' then some (c.toNat - 55)
  else none

def unit16? : List Char → Option (Nat × List Char)
  | a :: b :: c :: d :: rest => do
      let a ← hexValue? a
      let b ← hexValue? b
      let c ← hexValue? c
      let d ← hexValue? d
      some (4096 * a + 256 * b + 16 * c + d, rest)
  | _ => none

def simpleEscape? : Char → Option Char
  | '"' => some '"'
  | '\\' => some '\\'
  | '/' => some '/'
  | 'b' => some '\x08'
  | 'f' => some '\x0c'
  | 'n' => some '\n'
  | 'r' => some '\r'
  | 't' => some '\t'
  | _ => none

/-- A character written as one escaped unit, or as a high unit directly followed by a low one. -/
def unicodeEscape? (cs : List Char) : Option (Char × List Char) := do
  let (high, rest) ← unit16? cs
  if 0xD800 ≤ high ∧ high < 0xDC00 then
    match rest with
    | '\\' :: 'u' :: rest =>
        let (low, rest) ← unit16? rest
        if 0xDC00 ≤ low ∧ low < 0xE000 then
          some (Char.ofNat (0x10000 + (high - 0xD800) * 0x400 + (low - 0xDC00)), rest)
        else none
    | _ => none
  else if 0xDC00 ≤ high ∧ high < 0xE000 then none
  else some (Char.ofNat high, rest)

def text? : Nat → List Char → Option (List Char × List Char)
  | 0, _ => none
  | _ + 1, [] => none
  | _ + 1, '"' :: rest => some ([], rest)
  | n + 1, '\\' :: 'u' :: rest => do
      let (c, rest) ← unicodeEscape? rest
      let (cs, rest) ← text? n rest
      some (c :: cs, rest)
  | n + 1, '\\' :: e :: rest => do
      let c ← simpleEscape? e
      let (cs, rest) ← text? n rest
      some (c :: cs, rest)
  | n + 1, c :: rest =>
      if c.toNat < 32 then none
      else do
        let (cs, rest) ← text? n rest
        some (c :: cs, rest)

def exponent? (cs : List Char) : Option (Int × List Char) :=
  let (negative, cs) := match cs with
    | '-' :: rest => (true, rest)
    | '+' :: rest => (false, rest)
    | rest => (false, rest)
  let ds := cs.takeWhile Char.isDigit
  if ds.isEmpty then none
  else
    let e : Int := natOfDigits ds
    some (if negative then -e else e, cs.dropWhile Char.isDigit)

/-- Whole numbers of 64 bits stay whole; all other numbers are doubles, which have to be finite. -/
def numberValue? (negative : Bool) (whole fraction : List Char) (exponent : Int) (plain : Bool) :
    Option Json :=
  let n := natOfDigits whole
  if plain ∧ !negative ∧ n < 0x10000000000000000 then some (.int n)
  else if plain ∧ negative ∧ 0 < n ∧ n ≤ 0x8000000000000000 then some (.int (-n))
  else
    let d : Decimal := ⟨negative, natOfDigits (whole ++ fraction), exponent - fraction.length⟩
    if d.isFinite then some (.float d) else none

def fraction? : List Char → Option (Option (List Char) × List Char)
  | '.' :: rest =>
      let ds := rest.takeWhile Char.isDigit
      if ds.isEmpty then none else some (some ds, rest.dropWhile Char.isDigit)
  | rest => some (none, rest)

def power? : List Char → Option (Option Int × List Char)
  | 'e' :: rest => (exponent? rest).map fun (e, rest) => (some e, rest)
  | 'E' :: rest => (exponent? rest).map fun (e, rest) => (some e, rest)
  | rest => some (none, rest)

def unsigned? (negative : Bool) (cs : List Char) : Option (Json × List Char) := do
  let whole := cs.takeWhile Char.isDigit
  if whole.isEmpty ∨ (1 < whole.length ∧ whole.head? = some '0') then none
  let (fraction, cs) ← fraction? (cs.dropWhile Char.isDigit)
  let (exponent, cs) ← power? cs
  let value ← numberValue? negative whole (fraction.getD []) (exponent.getD 0)
    (fraction.isNone && exponent.isNone)
  some (value, cs)

def number? : List Char → Option (Json × List Char)
  | '-' :: rest => unsigned? true rest
  | cs => unsigned? false cs

def scan? : Nat → List Char → Option (List Token)
  | _, [] => some []
  | 0, _ => none
  | n + 1, c :: rest =>
      match c with
      | ' ' | '\n' | '\t' | '\r' => scan? n rest
      | '[' => (scan? n rest).map (openBracket :: ·)
      | ']' => (scan? n rest).map (closeBracket :: ·)
      | '{' => (scan? n rest).map (openBrace :: ·)
      | '}' => (scan? n rest).map (closeBrace :: ·)
      | ',' => (scan? n rest).map (comma :: ·)
      | ':' => (scan? n rest).map (colon :: ·)
      | '"' => do
          let (cs, rest) ← text? (rest.length + 1) rest
          let ts ← scan? n rest
          some (atom (.str (String.ofList cs)) :: ts)
      | 'n' => match rest with
          | 'u' :: 'l' :: 'l' :: rest => (scan? n rest).map (atom .null :: ·)
          | _ => none
      | 't' => match rest with
          | 'r' :: 'u' :: 'e' :: rest => (scan? n rest).map (atom (.bool true) :: ·)
          | _ => none
      | 'f' => match rest with
          | 'a' :: 'l' :: 's' :: 'e' :: rest => (scan? n rest).map (atom (.bool false) :: ·)
          | _ => none
      | c => do
          let (value, rest) ← number? (c :: rest)
          let ts ← scan? n rest
          some (atom value :: ts)

/-- Every word takes at least one character, so the length of the text bounds their number. -/
def ofText? (text : String) : Option (List Token) :=
  let cs := text.toList
  scan? (cs.length + 1) cs

end Token
end McpOperator.Json
