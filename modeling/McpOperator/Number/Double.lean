namespace McpOperator

/-- The number `digits · 10 ^ exponent`, with its sign kept apart so that zero has two. -/
structure Decimal where
  negative : Bool
  digits : Nat
  exponent : Int
deriving DecidableEq, Inhabited

namespace Decimal

def digitCount (n : Nat) : Nat := if n = 0 then 0 else (Nat.toDigits 10 n).length

/-- Exponents far outside the range of doubles are cut, which changes neither zero nor infinity as
the rounded value and keeps the powers of ten small. -/
def clampedExponent (d : Decimal) : Int :=
  let lead : Int := digitCount d.digits
  max (-400 - lead) (min (400 - lead) d.exponent)

def fraction (d : Decimal) : Nat × Nat :=
  match d.clampedExponent with
  | .ofNat e => (d.digits * Nat.pow 10 e, 1)
  | .negSucc e => (d.digits, Nat.pow 10 (e + 1))

/-- The nearest integer to `num / den`; a tie goes to the even one. -/
def roundHalfEven (num den : Nat) : Nat :=
  let q := num / den
  let r := num % den
  if 2 * r < den then q
  else if den < 2 * r then q + 1
  else if q % 2 = 0 then q else q + 1

def scaled (num den : Nat) : Int → Nat × Nat
  | .ofNat q => (num, den * Nat.pow 2 q)
  | .negSucc q => (num * Nat.pow 2 (q + 1), den)

/-- The binary exponent at which the significand of a double near `num / den` has 53 bits, or the
least one that doubles have. -/
def binaryExponent (num den : Nat) : Int :=
  let guess : Int := (Nat.log2 num : Int) - (Nat.log2 den : Int) - 53
  let (a, b) := scaled num den guess
  let q := if a / b < Nat.pow 2 53 then guess else guess + 1
  max q (-1074)

structure Binary where
  significand : Nat
  exponent : Int
deriving DecidableEq

/-- The double nearest to the magnitude of the decimal; none when that is infinite. -/
def nearest (d : Decimal) : Option Binary :=
  if d.digits = 0 then some ⟨0, -1074⟩ else
  let (num, den) := d.fraction
  let q := binaryExponent num den
  let (a, b) := scaled num den q
  let m := roundHalfEven a b
  let r : Binary := if m < Nat.pow 2 53 then ⟨m, q⟩ else ⟨m / 2, q + 1⟩
  if r.exponent ≤ 971 then some r else none

def isFinite (d : Decimal) : Bool := d.nearest.isSome

/-- The double nearest to the decimal, with its sign. The two zeros are one. -/
def double (d : Decimal) : Bool × Option Binary :=
  (d.negative && d.nearest ≠ some ⟨0, -1074⟩, d.nearest)

def toDigits (d : Decimal) (n : Nat) : Decimal :=
  let count := digitCount d.digits
  if count ≤ n then d
  else
    let cut := count - n
    let m := roundHalfEven d.digits (Nat.pow 10 cut)
    ⟨d.negative, m, d.exponent + cut⟩

def Binary.toDecimal (b : Binary) : Decimal :=
  match b.exponent with
  | .ofNat e => ⟨false, b.significand * Nat.pow 2 e, 0⟩
  | .negSucc e => ⟨false, b.significand * Nat.pow 5 (e + 1), -(e + 1 : Int)⟩

def trimmed (d : Decimal) : Decimal :=
  go (digitCount d.digits) d
where
  go : Nat → Decimal → Decimal
    | 0, d => d
    | n + 1, d =>
        if d.digits ≠ 0 ∧ d.digits % 10 = 0 then go n ⟨d.negative, d.digits / 10, d.exponent + 1⟩
        else d

/-- The shortest decimal that rounds to the same double, the nearest one of that length. -/
def shortest (d : Decimal) : Option Decimal :=
  d.nearest.map fun b =>
    let exact := b.toDecimal
    let hit := (List.range 18).findSome? fun n =>
      let candidate := exact.toDigits n
      if candidate.nearest = some b then some candidate else none
    { (hit.getD exact).trimmed with negative := d.negative }

/-- The text of a number: positional with a fraction when the point falls within sixteen places
before or five after the first digit, else one digit before the point and an exponent. -/
def text (d : Decimal) : String :=
  let sign := if d.negative then "-" else ""
  match d.shortest with
  | none => sign ++ "inf"
  | some s =>
      if s.digits = 0 then sign ++ "0.0"
      else
        let digits := Nat.toDigits 10 s.digits
        let point : Int := digits.length + s.exponent
        sign ++ String.ofList (
          if 0 ≤ s.exponent ∧ point ≤ 16 then
            digits ++ List.replicate s.exponent.toNat '0' ++ ['.', '0']
          else if 0 < point ∧ point ≤ 16 then
            digits.take point.toNat ++ '.' :: digits.drop point.toNat
          else if -5 < point ∧ point ≤ 0 then
            '0' :: '.' :: List.replicate (-point).toNat '0' ++ digits
          else
            let lead := digits.take 1 ++ (if digits.length = 1 then [] else '.' :: digits.drop 1)
            lead ++ 'e' :: (toString (point - 1)).toList)

end Decimal
end McpOperator
