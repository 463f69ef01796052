import McpOperator.Json.Token

namespace McpOperator.Yaml

def isNull (s : String) : Bool := s ∈ ["null", "Null", "NULL", "~"]

def bool? (s : String) : Option Bool :=
  if s ∈ ["true", "True", "TRUE"] then some true
  else if s ∈ ["false", "False", "FALSE"] then some false
  else none

/-- The value of digits in a base; none when there are no digits or others. -/
def digits? (base : Nat) : List Char → Option Nat
  | [] => none
  | cs => cs.foldlM (fun n c => do
      let v ← Json.Token.hexValue? c
      if v < base then some (base * n + v) else none) 0

def based? : List Char → Option Nat
  | '0' :: 'x' :: cs => digits? 16 cs
  | '0' :: 'o' :: cs => digits? 8 cs
  | '0' :: 'b' :: cs => digits? 2 cs
  | _ => none

/-- Two or more digits that begin with zero are text, with a sign or without one. -/
def isZeroLed (cs : List Char) : Bool :=
  let cs := match cs with
    | '-' :: rest | '+' :: rest => rest
    | cs => cs
  match cs with
  | '0' :: c :: rest => (c :: rest).all Char.isDigit
  | _ => false

def nat? (s : String) : Option Nat :=
  let cs := s.toList
  if isZeroLed cs then none
  else
    let rest := match cs with
      | '+' :: rest => rest
      | cs => cs
    (based? rest).or (digits? 10 rest)

def int? (s : String) : Option Int :=
  match s.toList with
  | '-' :: rest =>
      if isZeroLed ('-' :: rest) then none
      else match (based? rest).or (digits? 10 rest) with
        | some n => if n ≤ Nat.pow 2 127 then some (-n) else none
        | none => none
  | _ =>
      match nat? s with
      | some n => if n < Nat.pow 2 128 then some n else none
      | none => none

def decimal? (negative : Bool) (cs : List Char) : Option Decimal :=
  let whole := cs.takeWhile Char.isDigit
  let rest := cs.dropWhile Char.isDigit
  let (fraction, rest) := match rest with
    | '.' :: rest => (rest.takeWhile Char.isDigit, rest.dropWhile Char.isDigit)
    | rest => ([], rest)
  if whole.isEmpty ∧ fraction.isEmpty then none
  else
    let number (e : Int) : Decimal :=
      ⟨negative, Json.Token.natOfDigits (whole ++ fraction), e - fraction.length⟩
    match rest with
    | [] => some (number 0)
    | 'e' :: rest | 'E' :: rest =>
        match Json.Token.exponent? rest with
        | some (e, []) => some (number e)
        | _ => none
    | _ => none

def isInfinity (cs : List Char) : Bool :=
  cs = ['.', 'i', 'n', 'f'] ∨ cs = ['.', 'I', 'n', 'f'] ∨ cs = ['.', 'I', 'N', 'F']

/-- Numbers that are not whole, among them the infinite ones and the one that is none. -/
def isFloat (s : String) : Bool :=
  let cs := s.toList
  if isZeroLed cs then false
  else if s ∈ [".nan", ".NaN", ".NAN"] then true
  else
    let (negative, rest) := match cs with
      | '-' :: rest => (true, rest)
      | '+' :: rest => (false, rest)
      | cs => (false, cs)
    isInfinity rest || (decimal? negative rest).any Decimal.isFinite

/-- Text that has to be quoted to stay text. -/
def readsAsOther (s : String) : Bool :=
  s = "" || isNull s || (bool? s).isSome || (int? s).isSome || isFloat s || isZeroLed s.toList

end McpOperator.Yaml
