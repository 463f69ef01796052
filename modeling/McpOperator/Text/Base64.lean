import McpOperator.Json.Decode

namespace McpOperator.Base64

def symbol (n : Nat) : UInt8 :=
  if n < 26 then UInt8.ofNat (65 + n)
  else if n < 52 then UInt8.ofNat (71 + n)
  else if n < 62 then UInt8.ofNat (n - 4)
  else if n = 62 then 43
  else 47

def value? (b : UInt8) : Option Nat :=
  if 65 ≤ b ∧ b ≤ 90 then some (b.toNat - 65)
  else if 97 ≤ b ∧ b ≤ 122 then some (b.toNat - 71)
  else if 48 ≤ b ∧ b ≤ 57 then some (b.toNat + 4)
  else if b = 43 then some 62
  else if b = 47 then some 63
  else none

def pad : UInt8 := 61

def encode : List UInt8 → List UInt8
  | [] => []
  | [a] => [symbol (a.toNat / 4), symbol (a.toNat % 4 * 16), pad, pad]
  | [a, b] =>
      [symbol (a.toNat / 4), symbol (a.toNat % 4 * 16 + b.toNat / 16), symbol (b.toNat % 16 * 4), pad]
  | a :: b :: c :: rest =>
      symbol (a.toNat / 4) :: symbol (a.toNat % 4 * 16 + b.toNat / 16) ::
        symbol (b.toNat % 16 * 4 + c.toNat / 64) :: symbol (c.toNat % 64) :: encode rest

def valueAt (offset : Nat) (b : UInt8) : Except Base64Error Nat :=
  match value? b with
  | some n => .ok n
  | none => .error (.symbol b offset)

def valuesFrom (offset : Nat) : List UInt8 → Except Base64Error (List Nat)
  | [] => .ok []
  | b :: rest => do
      let n ← valueAt offset b
      let ns ← valuesFrom (offset + 1) rest
      .ok (n :: ns)

/-- The last group, of up to four symbols. Padding may only follow two or three symbols, and the
bits that it leaves over have to be zero. -/
def lastGroup (offset : Nat) (bs : List UInt8) : Except Base64Error (List UInt8) := do
  let symbols := bs.takeWhile (· ≠ pad)
  let tail := bs.dropWhile (· ≠ pad)
  let ns ← valuesFrom offset symbols
  if !tail.isEmpty ∧ symbols.length < 2 then .error (.symbol pad (offset + symbols.length))
  if tail.any (· ≠ pad) then .error (.symbol pad (offset + symbols.length))
  if symbols.length < 2 then .error (.length (offset + symbols.length))
  if bs.length ≠ 4 then .error .padding
  match symbols, ns with
  | [_, s], [a, b] =>
      if b % 16 = 0 then .ok [UInt8.ofNat (a * 4 + b / 16)]
      else .error (.lastSymbol s (offset + 1))
  | [_, _, s], [a, b, c] =>
      if c % 4 = 0 then .ok [UInt8.ofNat (a * 4 + b / 16), UInt8.ofNat (b % 16 * 16 + c / 4)]
      else .error (.lastSymbol s (offset + 2))
  | _, [a, b, c, d] =>
      .ok [UInt8.ofNat (a * 4 + b / 16), UInt8.ofNat (b % 16 * 16 + c / 4),
        UInt8.ofNat (c % 4 * 64 + d)]
  | _, _ => .error .padding

def groups (offset : Nat) : List UInt8 → Except Base64Error (List UInt8)
  | a :: b :: c :: d :: e :: rest => do
      let a ← valueAt offset a
      let b ← valueAt (offset + 1) b
      let c ← valueAt (offset + 2) c
      let d ← valueAt (offset + 3) d
      let more ← groups (offset + 4) (e :: rest)
      .ok (UInt8.ofNat (a * 4 + b / 16) :: UInt8.ofNat (b % 16 * 16 + c / 4) ::
        UInt8.ofNat (c % 4 * 64 + d) :: more)
  | bs => lastGroup offset bs

/-- A last byte that stands alone in its group and is no symbol is found before all else. -/
def decode (bs : List UInt8) : Except Base64Error (List UInt8) :=
  match bs.getLast? with
  | none => .ok []
  | some last =>
      if bs.length % 4 = 1 ∧ last ≠ pad ∧ (value? last).isNone then
        .error (.symbol last (bs.length - 1))
      else groups 0 bs

end McpOperator.Base64
