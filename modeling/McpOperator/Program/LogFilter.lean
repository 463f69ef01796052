namespace McpOperator

inductive LogLevel where
  | off
  | error
  | warn
  | info
  | debug
  | trace
deriving DecidableEq

namespace LogLevel

def rank : LogLevel → Nat
  | off => 0
  | error => 1
  | warn => 2
  | info => 3
  | debug => 4
  | trace => 5

def all : List LogLevel := [off, error, warn, info, debug, trace]

def name : LogLevel → String
  | off => "off"
  | error => "error"
  | warn => "warn"
  | info => "info"
  | debug => "debug"
  | trace => "trace"

/-- Levels are written as words in any case, or as numbers. -/
def ofText? (s : String) : Option LogLevel :=
  let lower := String.ofList (s.toList.map Char.toLower)
  all.find? fun l => l.name = lower || toString l.rank = s

end LogLevel

/-- A level for the targets that begin with a text. A directive for spans says nothing about the lines
outside of them. -/
inductive LogDirective where
  | lines (target : String) (level : LogLevel)
  | spans
deriving DecidableEq

namespace LogDirective

def startsWell (c : Char) : Bool := c.isAlphanum || c ∈ ['-', ':', '_'] || 127 < c.toNat

def ofText? (s : String) : Option LogDirective :=
  let cs := s.toList
  let target := cs.takeWhile fun c => c ≠ '=' && c ≠ '['
  match cs.drop target.length with
  | '[' :: _ => if target.head?.all startsWell && cs.contains ']' then some .spans else none
  | _ :: level =>
      if !target.head?.any startsWell then none
      else if level = [] then some (.lines (String.ofList target) .trace)
      else (LogLevel.ofText? (String.ofList level)).map (.lines (String.ofList target) ·)
  | [] =>
      if !target.head?.any startsWell then none
      else match LogLevel.ofText? s with
        | some level => some (.lines "" level)
        | none => some (.lines s .trace)

end LogDirective

structure LogFilter where
  directives : List LogDirective
deriving DecidableEq

namespace LogFilter

/-- Directives that cannot be read are passed over; without any only errors are shown. -/
def ofText (s : String) : LogFilter :=
  match (s.splitOn ",").filterMap LogDirective.ofText? with
  | [] => ⟨[.lines "" .error]⟩
  | ds => ⟨ds⟩

/-- The level for a target: that of the longest text it begins with, the later one of two alike. -/
def level? (f : LogFilter) (target : String) : Option LogLevel :=
  let best := f.directives.foldl (fun (best : Option (Nat × LogLevel)) d =>
    match d with
    | .spans => best
    | .lines start level =>
        if start.toList.isPrefixOf target.toList && best.all (·.1 ≤ start.length) then
          some (start.length, level)
        else best) none
  best.map (·.2)

def shows (f : LogFilter) (target : String) (level : LogLevel) : Bool :=
  (f.level? target).any fun l => level.rank ≤ l.rank

end LogFilter
end McpOperator
