import McpOperator.Objects.Kind
import McpOperator.Table

namespace McpOperator

/-- A span of time of at most 64 bits of seconds. -/
structure Duration where
  nanos : Nat
  bounded : nanos < 0x10000000000000000 * 1000000000
deriving DecidableEq

namespace Duration

def limit : Nat := 0x10000000000000000 * 1000000000 - 1

def ofNanos (n : Nat) : Duration := ⟨min n limit, by unfold limit; omega⟩

def ofSeconds (s : UInt64) : Duration := ⟨s.toNat * 1000000000, by have := s.toNat_lt; omega⟩

def zero : Duration := ofNanos 0

def seconds (d : Duration) : Nat := d.nanos / 1000000000

def subsecond (d : Duration) : Nat := d.nanos % 1000000000

def times (d : Duration) (n : Nat) : Duration := ofNanos (d.nanos * n)

protected def min (a b : Duration) : Duration := if a.nanos ≤ b.nanos then a else b

def decimals (places n : Nat) : List Char :=
  let ds := Nat.toDigits 10 n
  let padded := List.replicate (places - ds.length) '0' ++ ds
  (padded.reverse.dropWhile (· = '0')).reverse

def inUnit (whole places rest : Nat) (unit : String) : String :=
  let fraction := if rest = 0 then [] else '.' :: decimals places rest
  toString whole ++ String.ofList fraction ++ unit

def text (d : Duration) : String :=
  let n := d.nanos
  if 1000000000 ≤ n then inUnit (n / 1000000000) 9 (n % 1000000000) "s"
  else if 1000000 ≤ n then inUnit (n / 1000000) 6 (n % 1000000) "ms"
  else if 1000 ≤ n then inUnit (n / 1000) 3 (n % 1000) "µs"
  else inUnit n 0 0 "ns"

end Duration

/-- Delays double from `base` up to `max`. Failures are counted for each object. -/
structure Backoff where
  base : Duration
  max : Duration
  failures : Table Key UInt32

namespace Backoff

def new (base max : Duration) : Backoff := ⟨base, max, []⟩

def failuresOf (b : Backoff) (key : Key) : UInt32 := (b.failures.get? key).getD 0

/-- The power of two, cut at the largest number of 32 bits. -/
def factor (failures : UInt32) : Nat := if failures < 32 then Nat.pow 2 failures.toNat else 0xFFFFFFFF

def delay (b : Backoff) (failures : UInt32) : Duration := (b.base.times (factor failures)).min b.max

def succSaturating (n : UInt32) : UInt32 := if n = 0xFFFFFFFF then n else n + 1

def next (b : Backoff) (key : Key) : Duration × Backoff :=
  let n := b.failuresOf key
  (b.delay n, { b with failures := b.failures.put key (succSaturating n) })

def reset (b : Backoff) (key : Key) : Backoff := { b with failures := b.failures.erase key }

end Backoff
end McpOperator
