namespace McpOperator.Yaml

def isBreak (c : Char) : Bool :=
  c = '\n' || c = '\r' || c.toNat = 0x85 || c.toNat = 0x2028 || c.toNat = 0x2029

def isSpecial (c : Char) : Bool :=
  let n := c.toNat
  !(n = 0x0A || (0x20 ≤ n && n ≤ 0x7E) || 0xA0 ≤ n) || n = 0xFEFF || n = 0xFFFE || n = 0xFFFF

/-- Blanks end words; so does the end of the text. -/
def isBlank (c : Char) : Bool := c = ' ' || c = '\t' || c.toNat = 0 || isBreak c

def startsBlank : List Char → Bool
  | [] => true
  | c :: _ => isBlank c

structure Glyph where
  char : Char
  line : Nat
  column : Nat
  index : Nat
deriving DecidableEq

namespace Glyph

def isAllowed (c : Char) : Bool :=
  let n := c.toNat
  n = 0x09 || n = 0x0A || n = 0x0D || (0x20 ≤ n && n ≤ 0x7E) || n = 0x85 ||
    (0xA0 ≤ n && n ≤ 0xFFFD) || 0x10000 ≤ n

/-- All line breaks but the two separators count as line feeds. -/
def unifyBreaks : List Char → List Char
  | '\r' :: '\n' :: rest => '\n' :: unifyBreaks rest
  | c :: rest => (if c = '\r' || c.toNat = 0x85 then '\n' else c) :: unifyBreaks rest
  | [] => []

def place (line column index : Nat) : List Char → List Glyph
  | [] => []
  | c :: rest =>
      ⟨c, line, column, index⟩ ::
        if isBreak c then place (line + 1) 0 (index + 1) rest
        else place line (column + 1) (index + 1) rest

def ofText? (s : String) : Option (List Glyph) :=
  if s.toList.all isAllowed then some (place 0 0 0 (unifyBreaks s.toList)) else none

def isBreak (g : Glyph) : Bool := Yaml.isBreak g.char

def isSpace (g : Glyph) : Bool := g.char = ' ' || g.char = '\t'

def endsWord : List Glyph → Bool
  | [] => true
  | g :: _ => g.isSpace || g.isBreak

/-- Whether a line begins with three times the character and no more of a word. -/
def isMark (c : Char) : List Glyph → Bool
  | a :: b :: d :: rest => a.column = 0 && a.char = c && b.char = c && d.char = c && endsWord rest
  | _ => false

def isDocumentMark (gs : List Glyph) : Bool := isMark '-' gs || isMark '.' gs

/-- What is left of a line behind a comment that begins here, if one does. -/
def skipComment : List Glyph → List Glyph
  | [] => []
  | g :: rest => if g.char = '#' then rest.dropWhile fun h => !h.isBreak else g :: rest

end Glyph
end McpOperator.Yaml
