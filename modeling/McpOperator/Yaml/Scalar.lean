import McpOperator.Json.Token
import McpOperator.Yaml.Character

namespace McpOperator.Yaml

/-- Blanks and line breaks between two words, the last one first. The first break is none when it was
escaped. -/
inductive Gap where
  | blanks (chars : List Char)
  | breaks (first : Option Char) (more : List Char)
deriving DecidableEq

namespace Gap

def empty : Gap := blanks []

def addBlank (c : Char) : Gap → Gap
  | blanks cs => blanks (c :: cs)
  | gap => gap

def addBreak (c : Char) : Gap → Gap
  | blanks _ => breaks (some c) []
  | breaks first more => breaks first (c :: more)

def isBroken : Gap → Bool
  | blanks _ => false
  | breaks _ _ => true

def folded : Gap → List Char
  | blanks cs => cs
  | breaks (some '\n') [] => [' ']
  | breaks (some '\n') more => more
  | breaks first more => more ++ first.toList

end Gap

/-- The characters read so far, the last one first, and the gap behind them. -/
structure Folding where
  chars : List Char
  gap : Gap
deriving DecidableEq

namespace Folding

def empty : Folding := ⟨[], .empty⟩

def space (f : Folding) (g : Glyph) : Folding :=
  { f with gap := if g.isBreak then f.gap.addBreak g.char else f.gap.addBlank g.char }

def close (f : Folding) : Folding := ⟨f.gap.folded ++ f.chars, .empty⟩

def push (f : Folding) (c : Char) : Folding := { f.close with chars := c :: f.close.chars }

def text (f : Folding) : String := String.ofList f.chars.reverse

end Folding

def isFlowIndicator (c : Char) : Bool := c ∈ [',', '[', ']', '{', '}']

/-- A colon in front of a blank, and inside of brackets anything that belongs to them. -/
def endsPlain (flow : Bool) (g : Glyph) (rest : List Glyph) : Bool :=
  (g.char = ':' && Glyph.endsWord rest) || (flow && isFlowIndicator g.char)

/-- Inside of brackets a colon may not stand right before one of them. -/
def isMisplacedColon (flow : Bool) (g : Glyph) (rest : List Glyph) : Bool :=
  flow && g.char = ':' && rest.head?.any fun h => isFlowIndicator h.char || h.char = '?'

/-- Plain text from a place on. Lines after the first begin at `indent` at least, unless brackets are
open. The gap that is left over has not become part of the text. -/
def plain? (flow : Bool) (indent : Nat) (f : Folding) : List Glyph → Option (Folding × List Glyph)
  | [] => some (f, [])
  | g :: rest =>
      if g.isBreak then plain? flow indent (f.space g) rest
      else if g.isSpace then
        if f.gap.isBroken && g.column < indent && g.char = '\t' then none
        else plain? flow indent (f.space g) rest
      else if f.gap ≠ .empty ∧ ((f.gap.isBroken ∧ !flow ∧ g.column < indent) ∨
          Glyph.isDocumentMark (g :: rest) ∨ g.char = '#') then some (f, g :: rest)
      else if isMisplacedColon flow g rest then none
      else if endsPlain flow g rest then some (f, g :: rest)
      else plain? flow indent (f.push g.char) rest

/-- Text between single quotes, behind the first of them. A quote inside is written twice. -/
def singleQuoted? (f : Folding) : List Glyph → Option (Folding × List Glyph)
  | [] => none
  | g :: rest =>
      if Glyph.isDocumentMark (g :: rest) then none
      else if g.isBreak || g.isSpace then singleQuoted? (f.space g) rest
      else if g.char = '\'' then
        match rest with
        | h :: rest =>
            if h.char = '\'' then singleQuoted? (f.push '\'') rest else some (f.close, h :: rest)
        | [] => some (f.close, [])
      else singleQuoted? (f.push g.char) rest

def escaped? : Char → Option Char
  | '0' => some (Char.ofNat 0x00)
  | 'a' => some (Char.ofNat 0x07)
  | 'b' => some (Char.ofNat 0x08)
  | 't' | '\t' => some (Char.ofNat 0x09)
  | 'n' => some (Char.ofNat 0x0A)
  | 'v' => some (Char.ofNat 0x0B)
  | 'f' => some (Char.ofNat 0x0C)
  | 'r' => some (Char.ofNat 0x0D)
  | 'e' => some (Char.ofNat 0x1B)
  | ' ' => some ' '
  | '"' => some '"'
  | '/' => some '/'
  | '\\' => some '\\'
  | 'N' => some (Char.ofNat 0x85)
  | '_' => some (Char.ofNat 0xA0)
  | 'L' => some (Char.ofNat 0x2028)
  | 'P' => some (Char.ofNat 0x2029)
  | _ => none

def codeWidth? : Char → Option Nat
  | 'x' => some 2
  | 'u' => some 4
  | 'U' => some 8
  | _ => none

def coded? (gs : List Glyph) : Option Char := do
  let n ← gs.foldlM (fun n g => (Json.Token.hexValue? g.char).map fun v => 16 * n + v) 0
  if (0xD800 ≤ n ∧ n ≤ 0xDFFF) ∨ 0x10FFFF < n then none else some (Char.ofNat n)

/-- Text between double quotes, behind the first of them. `skip` characters belong to an escape that
has been read already. -/
def doubleQuoted? (f : Folding) (skip : Nat) : List Glyph → Option (Folding × List Glyph)
  | [] => none
  | g :: rest =>
      match skip with
      | n + 1 => doubleQuoted? f n rest
      | 0 =>
          if Glyph.isDocumentMark (g :: rest) then none
          else if g.isBreak || g.isSpace then doubleQuoted? (f.space g) 0 rest
          else if g.char = '"' then some (f.close, rest)
          else if g.char = '\\' then
            match rest with
            | [] => none
            | h :: after =>
                if h.isBreak then doubleQuoted? { f.close with gap := .breaks none [] } 1 rest
                else match escaped? h.char, codeWidth? h.char with
                  | some c, _ => doubleQuoted? (f.push c) 1 rest
                  | none, some width =>
                      if (after.take width).length = width then
                        match coded? (after.take width) with
                        | some c => doubleQuoted? (f.push c) (width + 1) rest
                        | none => none
                      else none
                  | none, none => none
          else doubleQuoted? (f.push g.char) 0 rest

inductive Chomping where
  | strip
  | clip
  | keep
deriving DecidableEq

/-- What stands behind the sign that opens a block: how its end is treated and how much deeper than
its surroundings it is indented, when that is said. -/
structure BlockHeader where
  chomping : Chomping
  increment : Option Nat
deriving DecidableEq

namespace BlockHeader

def chomping? : Char → Option Chomping
  | '+' => some .keep
  | '-' => some .strip
  | _ => none

def increment? (c : Char) : Option Nat :=
  if '1' ≤ c ∧ c ≤ '9' then some (c.toNat - 48) else none

def ofSigns? : List Char → Option BlockHeader
  | [] => some ⟨.clip, none⟩
  | [a] => match chomping? a, increment? a with
      | some c, _ => some ⟨c, none⟩
      | _, some n => some ⟨.clip, some n⟩
      | _, _ => none
  | [a, b] => match chomping? a, increment? b, increment? a, chomping? b with
      | some c, some n, _, _ => some ⟨c, some n⟩
      | _, _, some n, some c => some ⟨c, some n⟩
      | _, _, _, _ => none
  | _ => none

def read? (gs : List Glyph) : Option (BlockHeader × List Glyph) := do
  let signs := gs.takeWhile fun g => !g.isSpace && !g.isBreak && g.char ≠ '#'
  let rest := (gs.drop signs.length).dropWhile (·.isSpace)
  let header ← ofSigns? (signs.map (·.char))
  match Glyph.skipComment rest with
  | [] => some (header, [])
  | g :: rest => if g.isBreak then some (header, rest) else none

end BlockHeader

/-- Empty lines, then the column where the first other line begins. When the indentation is not known
it is the deepest column met, and tabs may not stand in it. -/
def blockIndent? (known : Option Nat) (deepest : Nat) (breaks : List Char) :
    List Glyph → Option (Nat × List Char × List Glyph)
  | [] => some (deepest, breaks, [])
  | g :: rest =>
      let deepest := max deepest g.column
      let inside := known.all (g.column < ·)
      if g.isBreak then blockIndent? known deepest (g.char :: breaks) rest
      else if inside && g.char = ' ' then blockIndent? known deepest breaks rest
      else if inside && g.char = '\t' then none
      else some (deepest, breaks, g :: rest)

/-- The lines of a block read so far. `ending` is the break that ended the last line and `breaks` are
the empty lines after it. -/
structure Block where
  chars : List Char
  ending : Option Char
  breaks : List Char
  lastBlank : Bool
  inLine : Bool
deriving DecidableEq

namespace Block

/-- Begins a line with a character. A folded break between two lines that both begin with a word
becomes a blank. -/
def begin (folded : Bool) (b : Block) (g : Glyph) : Block :=
  let joined := folded && b.ending = some '\n' && !b.lastBlank && !g.isSpace
  let ending := if joined then (if b.breaks.isEmpty then [' '] else []) else b.ending.toList
  { chars := g.char :: (b.breaks ++ ending ++ b.chars)
    ending := none
    breaks := []
    lastBlank := g.isSpace
    inLine := true }

def finish (chomping : Chomping) (b : Block) : String :=
  let chars := match chomping with
    | .strip => b.chars
    | .clip => b.ending.toList ++ b.chars
    | .keep => b.breaks ++ b.ending.toList ++ b.chars
  String.ofList chars.reverse

def lines? (folded : Bool) (indent : Nat) (b : Block) : List Glyph → Option (Block × List Glyph)
  | [] => some (b, [])
  | g :: rest =>
      if g.isBreak then
        if b.inLine then lines? folded indent { b with ending := some g.char, inLine := false } rest
        else lines? folded indent { b with breaks := g.char :: b.breaks } rest
      else if b.inLine then lines? folded indent { b with chars := g.char :: b.chars } rest
      else if g.column < indent then
        if g.char = ' ' then lines? folded indent b rest
        else if g.char = '\t' then none
        else some (b, g :: rest)
      else lines? folded indent (b.begin folded g) rest

end Block

/-- A block behind the sign that opens it; `outer` is the indentation of its surroundings, if there is
one. -/
def block? (folded : Bool) (outer : Option Nat) (gs : List Glyph) : Option (String × List Glyph) := do
  let (header, rest) ← BlockHeader.read? gs
  let known := header.increment.map (outer.getD 0 + ·)
  let (deepest, breaks, rest) ← blockIndent? known 0 [] rest
  let least := max 1 (outer.elim 0 (· + 1))
  let indent := known.getD (max deepest least)
  let (b, rest) ← Block.lines? folded indent ⟨[], none, breaks, false, false⟩ rest
  some (b.finish header.chomping, rest)

end McpOperator.Yaml
