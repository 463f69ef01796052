import McpOperator.Text.Blank

namespace McpOperator

def Instant.earliest : Int := -8334601228800

def Instant.latest : Int := 8210266876799

/-- Seconds since 1970-01-01T00:00:00Z and the nanoseconds within the second. A leap second is the
second before it with a thousand million nanoseconds more. -/
structure Instant where
  seconds : Int
  nanos : Nat
  inRange : Instant.earliest ≤ seconds ∧ seconds ≤ Instant.latest
  fraction : nanos < 1000000000 ∨ (nanos < 2000000000 ∧ seconds % 60 = 59)
deriving DecidableEq

inductive TimeError where
  | tooShort
  | invalid
  | outOfRange
  | impossible
  | trailing
deriving DecidableEq

def TimeError.message : TimeError → String
  | tooShort => "premature end of input"
  | invalid => "input contains invalid characters"
  | outOfRange => "input is out of range"
  | impossible => "no possible date and time matching input"
  | trailing => "trailing input"

namespace Instant

def epoch : Instant := ⟨0, 0, by decide, by decide⟩

def of? (seconds : Int) (nanos : Nat) : Option Instant :=
  if h : (earliest ≤ seconds ∧ seconds ≤ latest) ∧
      (nanos < 1000000000 ∨ (nanos < 2000000000 ∧ seconds % 60 = 59)) then
    some ⟨seconds, nanos, h.1, h.2⟩
  else none

def wholeSeconds (t : Instant) : Instant where
  seconds := t.seconds
  nanos := if 1000000000 ≤ t.nanos then 1000000000 else 0
  inRange := t.inRange
  fraction := by
    have := t.fraction
    split <;> omega

/-- A leap second is a second of its own. -/
def Whole (t : Instant) : Prop := t.nanos % 1000000000 = 0

instance (t : Instant) : Decidable t.Whole := inferInstanceAs (Decidable (_ = _))

theorem whole_wholeSeconds (t : Instant) : t.wholeSeconds.Whole := by
  simp only [Whole, wholeSeconds]
  split <;> rfl

/-- Days from 1970-01-01 to a day of the Gregorian calendar, counted in years that begin in March. -/
def daysFromCivil (year : Int) (month day : Nat) : Int :=
  let y := if month ≤ 2 then year - 1 else year
  let era := y / 400
  let yearOfEra := (y - era * 400).toNat
  let dayOfYear := (153 * (if month > 2 then month - 3 else month + 9) + 2) / 5 + day - 1
  let dayOfEra := yearOfEra * 365 + yearOfEra / 4 - yearOfEra / 100 + dayOfYear
  era * 146097 + dayOfEra - 719468

def civilFromDays (days : Int) : Int × Nat × Nat :=
  let z := days + 719468
  let era := z / 146097
  let dayOfEra := (z - era * 146097).toNat
  let yearOfEra := (dayOfEra - dayOfEra / 1460 + dayOfEra / 36524 - dayOfEra / 146096) / 365
  let dayOfYear := dayOfEra - (365 * yearOfEra + yearOfEra / 4 - yearOfEra / 100)
  let m := (5 * dayOfYear + 2) / 153
  let day := dayOfYear - (153 * m + 2) / 5 + 1
  let month := if m < 10 then m + 3 else m - 9
  let year : Int := yearOfEra + era * 400
  (if month ≤ 2 then year + 1 else year, month, day)

def isLeapYear (year : Int) : Bool := (year % 4 = 0 && year % 100 ≠ 0) || year % 400 = 0

def daysInMonth (year : Int) (month : Nat) : Nat :=
  if month = 2 then if isLeapYear year then 29 else 28
  else if month ∈ [4, 6, 9, 11] then 30 else 31

abbrev Chars := List Char

def digitValue (c : Char) : Nat := c.toNat - 48

def natOfDigits (ds : Chars) : Nat := ds.foldl (fun n c => 10 * n + digitValue c) 0

def skipBlanks (cs : Chars) : Chars := cs.dropWhile Text.isBlank

def number (width : Option Nat) (cs : Chars) : Except TimeError (Nat × Chars) :=
  let ds := (cs.takeWhile Char.isDigit).take (width.getD cs.length)
  if cs.isEmpty then .error .tooShort
  else if ds.isEmpty then .error .invalid
  else .ok (natOfDigits ds, cs.drop ds.length)

def expect (c : Char) : Chars → Except TimeError Chars
  | [] => .error .tooShort
  | d :: rest => if d = c then .ok rest else .error .invalid

def within (low high : Int) (n : Int) : Except TimeError Unit :=
  if low ≤ n ∧ n ≤ high then .ok () else .error .outOfRange

def part (low high : Nat) (cs : Chars) : Except TimeError (Nat × Chars) := do
  let (n, cs) ← number (some 2) (skipBlanks cs)
  within low high n
  .ok (n, cs)

def year (cs : Chars) : Except TimeError (Int × Chars) := do
  let (year, cs) ← match skipBlanks cs with
    | '-' :: rest => (number none rest).map fun (n, rest) => (-(n : Int), rest)
    | '+' :: rest => (number none rest).map fun (n, rest) => ((n : Int), rest)
    | rest => (number (some 4) rest).map fun (n, rest) => ((n : Int), rest)
  within (-2147483648) 2147483647 year
  .ok (year, cs)

def separator : Chars → Except TimeError Chars
  | [] => .error .tooShort
  | c :: rest => if c = 'T' ∨ c = 't' ∨ c = ' ' then .ok rest else .error .invalid

/-- Nanoseconds of a fraction; digits after the ninth are dropped. -/
def readFraction : Chars → Except TimeError (Nat × Chars)
  | '.' :: cs => do
      let (_, rest) ← number none cs
      let kept := (cs.takeWhile Char.isDigit).take 9
      .ok (natOfDigits kept * Nat.pow 10 (9 - kept.length), rest)
  | cs => .ok (0, cs)

/-- Two digits. A lone character is too little only when it is ASCII. -/
def twoDigits : Chars → Except TimeError (Nat × Chars)
  | a :: b :: rest =>
      if a.isDigit ∧ b.isDigit then .ok (natOfDigits [a, b], rest) else .error .invalid
  | [a] => if a.toNat < 128 then .error .tooShort else .error .invalid
  | [] => .error .tooShort

def offsetSign : Chars → Except TimeError (Int × Chars)
  | [] => .error .tooShort
  | '+' :: rest => .ok (1, rest)
  | '-' :: rest => .ok (-1, rest)
  | '−' :: rest => .ok (-1, rest)
  | _ => .error .invalid

/-- The seconds that local time is ahead. Colons and blanks may stand between hours and minutes. -/
def signedOffset (cs : Chars) : Except TimeError (Int × Chars) := do
  let (sign, cs) ← offsetSign cs
  let (hours, cs) ← twoDigits cs
  let (minutes, cs) ← twoDigits (cs.dropWhile fun c => c = ':' || Text.isBlank c)
  within 0 59 minutes
  .ok (sign * (hours * 3600 + minutes * 60 : Nat), cs)

def offset (cs : Chars) : Except TimeError (Int × Chars) :=
  match cs with
  | 'Z' :: rest | 'z' :: rest => .ok (0, rest)
  | u :: t :: c :: rest =>
      if u.toUpper = 'U' ∧ t.toUpper = 'T' ∧ c.toUpper = 'C' then .ok (0, rest) else signedOffset cs
  | cs => signedOffset cs

def ofChars (cs : Chars) : Except TimeError Instant := do
  let (year, cs) ← year cs
  let cs ← expect '-' cs
  let (month, cs) ← part 1 12 cs
  let cs ← expect '-' cs
  let (day, cs) ← part 1 31 cs
  let cs ← separator cs
  let (hour, cs) ← part 0 23 cs
  let cs ← expect ':' cs
  let (minute, cs) ← part 0 59 cs
  let cs ← expect ':' cs
  let (second, cs) ← part 0 60 cs
  let (nanos, cs) ← readFraction cs
  let (ahead, cs) ← offset (skipBlanks cs)
  if !(skipBlanks cs).isEmpty then .error .trailing
  within (-262143) 262142 year
  within 1 (daysInMonth year month) day
  within (-86399) 86399 ahead
  let clock : Nat := hour * 3600 + minute * 60 + min second 59
  let leap : Nat := if second = 60 then 1000000000 else 0
  match of? (daysFromCivil year month day * 86400 + clock - ahead) (leap + nanos) with
  | some t => .ok t
  | none => .error .impossible

def ofText (s : String) : Except TimeError Instant := ofChars s.toList

def padded (width n : Nat) : List Char :=
  let ds := Nat.toDigits 10 n
  List.replicate (width - ds.length) '0' ++ ds

def yearChars : Int → List Char
  | .ofNat y => if y ≤ 9999 then padded 4 y else '+' :: padded 4 y
  | .negSucc y => '-' :: padded 4 (y + 1)

/-- The text in universal time; the fraction of the second is cut off. -/
def text (t : Instant) : String :=
  let days := t.seconds / 86400
  let clock := (t.seconds - days * 86400).toNat
  let (year, month, day) := civilFromDays days
  let second := clock % 60 + (if 1000000000 ≤ t.nanos then 1 else 0)
  String.ofList (yearChars year ++ '-' :: padded 2 month ++ '-' :: padded 2 day ++ 'T' ::
    padded 2 (clock / 3600) ++ ':' :: padded 2 (clock / 60 % 60) ++ ':' :: padded 2 second ++ ['Z'])

end Instant
end McpOperator
