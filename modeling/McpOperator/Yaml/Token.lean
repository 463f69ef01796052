import McpOperator.Yaml.Scalar

namespace McpOperator.Yaml

inductive Form where
  | plain
  | literal
  | other
deriving DecidableEq

inductive Token where
  | version (major minor : Nat)
  | tagPrefix (handle text : String)
  | documentStart
  | documentEnd
  | blockSeqStart
  | blockMapStart
  | blockEnd
  | flowSeqStart
  | flowSeqEnd
  | flowMapStart
  | flowMapEnd
  | dash
  | comma
  | key
  | value
  | alias (name : String)
  | anchor (name : String)
  | tag (handle suffix : String)
  | scalar (form : Form) (text : String)
deriving DecidableEq

/-- A place where a key may have begun, with the number of tokens before it. A key is required where
the line begins at the indentation of the mapping. -/
structure KeyPlace where
  required : Bool
  count : Nat
  glyph : Glyph
deriving DecidableEq

/-- What has been read so far. The innermost indentation, the innermost brackets and the last token
come first; `keys` has one entry more than there are open brackets. -/
structure Lexer where
  indents : List Nat
  keys : List (Option KeyPlace)
  keyAllowed : Bool
  tokens : List Token
deriving DecidableEq

namespace Lexer

def start : Lexer := ⟨[], [none], true, []⟩

def inFlow (s : Lexer) : Bool := 1 < s.keys.length

def emit (s : Lexer) (t : Token) : Lexer := { s with tokens := t :: s.tokens }

def inner (s : Lexer) : Nat := s.indents.head?.elim 0 (· + 1)

def closeBlocks (column : Nat) : List Nat → List Token → List Nat × List Token
  | [], tokens => ([], tokens)
  | i :: rest, tokens =>
      if column < i then closeBlocks column rest (.blockEnd :: tokens) else (i :: rest, tokens)

def unroll (s : Lexer) (column : Nat) : Lexer :=
  if s.inFlow then s
  else
    let (indents, tokens) := closeBlocks column s.indents s.tokens
    { s with indents, tokens }

def unrollAll (s : Lexer) : Lexer :=
  if s.inFlow then s
  else { s with indents := [], tokens := List.replicate s.indents.length .blockEnd ++ s.tokens }

def insertAt (s : Lexer) (count : Nat) (t : Token) : Lexer :=
  { s with tokens := s.tokens.insertIdx (s.tokens.length - count) t }

def roll (s : Lexer) (column count : Nat) (t : Token) : Lexer :=
  if s.inFlow || !s.indents.head?.all (· < column) then s
  else { s.insertAt count t with indents := column :: s.indents }

/-- Gives up the place where a key may have begun, which fails when the key was required. -/
def dropKey (s : Lexer) : Option Lexer :=
  match s.keys with
  | some k :: rest => if k.required then none else some { s with keys := none :: rest }
  | _ => some s

def markKey (s : Lexer) (g : Glyph) : Option Lexer :=
  if s.keyAllowed then do
    let s ← s.dropKey
    let required := !s.inFlow && s.indents.head? = some g.column
    some { s with keys := some ⟨required, s.tokens.length, g⟩ :: s.keys.drop 1 }
  else some s

/-- Keys are on one line with their colon and not too far away from it. -/
def isStale (g : Glyph) (k : KeyPlace) : Bool :=
  k.glyph.line < g.line || k.glyph.index + 1024 < g.index

def dropStale (s : Lexer) (g : Glyph) : Option Lexer :=
  if s.keys.any fun k => k.any fun k => isStale g k && k.required then none
  else some { s with keys := s.keys.map fun k => k.filter fun k => !isStale g k }

/-- Blanks, comments and line breaks between tokens. A new line allows for a key, unless brackets are
open; tabs may not stand where a key could. -/
def skipGap (flow : Bool) : Bool → Bool → List Glyph → Bool × List Glyph
  | allowed, _, [] => (allowed, [])
  | allowed, comment, g :: rest =>
      if g.isBreak then skipGap flow (allowed || !flow) false rest
      else if comment || g.char = '#' then skipGap flow allowed true rest
      else if g.char = ' ' || (g.char = '\t' && (flow || !allowed)) ||
          (g.char.toNat = 0xFEFF && g.column = 0) then skipGap flow allowed false rest
      else (allowed, g :: rest)

def isNameChar (g : Glyph) : Bool := g.char.isAlphanum || g.char = '_' || g.char = '-'

def textOf (gs : List Glyph) : String := String.ofList (gs.map (·.char))

def name? (gs : List Glyph) : Option (String × List Glyph) :=
  let name := gs.takeWhile isNameChar
  let rest := gs.drop name.length
  if name.isEmpty then none
  else if Glyph.endsWord rest ||
      rest.head?.any (fun g => g.char ∈ ['?', ':', ',', ']', '}', '%', '@', '\x60']) then
    some (textOf name, rest)
  else none

def isTagChar (all : Bool) (g : Glyph) : Bool :=
  isNameChar g ||
    g.char ∈ [';', '/', '?', ':', '@', '&', '=', '+', '$', '.', '%', '!', '~', '*', '\'', '(', ')'] ||
    (all && g.char ∈ [',', '[', ']'])

def tagBytes : List Char → Option (List UInt8)
  | [] => some []
  | '%' :: a :: b :: rest => do
      let a ← Json.Token.hexValue? a
      let b ← Json.Token.hexValue? b
      let bytes ← tagBytes rest
      some (UInt8.ofNat (16 * a + b) :: bytes)
  | '%' :: _ => none
  | c :: rest => (tagBytes rest).map ((String.singleton c).toUTF8.toList ++ ·)

def tagText? (gs : List Glyph) : Option String := do
  let bytes ← tagBytes (gs.map (·.char))
  String.fromUTF8? ⟨bytes.toArray⟩

/-- The tag of one exclamation mark alone has no handle. -/
def localTag (suffix : String) : Token := if suffix = "" then .tag "" "!" else .tag "!" suffix

def tag? (flow : Bool) (gs : List Glyph) : Option (Token × List Glyph) := do
  let (t, rest) ← match gs with
    | g :: after =>
        if g.char = '<' then
          let body := after.takeWhile (isTagChar true)
          match after.drop body.length with
          | h :: rest =>
              if h.char = '>' ∧ body ≠ [] then (tagText? body).map fun s => (Token.tag "" s, rest)
              else none
          | [] => none
        else
          let word := gs.takeWhile isNameChar
          match gs.drop word.length with
          | h :: rest =>
              if h.char = '!' then
                let body := rest.takeWhile (isTagChar false)
                if body = [] then none
                else (tagText? body).map fun s =>
                  (Token.tag ("!" ++ textOf word ++ "!") s, rest.drop body.length)
              else
                let body := gs.takeWhile (isTagChar false)
                (tagText? body).map fun s => (localTag s, gs.drop body.length)
          | [] => some (localTag (textOf word), [])
    | [] => some (localTag "", [])
  if (flow && rest.head?.any fun g => g.char = ',') || Glyph.endsWord rest then some (t, rest)
  else none

def number? (gs : List Glyph) : Option (Nat × List Glyph) :=
  let digits := gs.takeWhile fun g => g.char.isDigit
  if digits.isEmpty ∨ 9 < digits.length then none
  else some (Json.Token.natOfDigits (digits.map (·.char)), gs.drop digits.length)

def skipSpace (gs : List Glyph) : List Glyph := gs.dropWhile (·.isSpace)

def directive? (gs : List Glyph) : Option (Token × List Glyph) := do
  let word := gs.takeWhile isNameChar
  let rest := gs.drop word.length
  if word.isEmpty || !Glyph.endsWord rest then none
  let (t, rest) ← match textOf word with
    | "YAML" => do
        let (major, rest) ← number? (skipSpace rest)
        match rest with
        | g :: rest =>
            if g.char = '.' then
              let (minor, rest) ← number? rest
              some (Token.version major minor, rest)
            else none
        | [] => none
    | "TAG" => do
        match skipSpace rest with
        | g :: rest =>
            let word := rest.takeWhile isNameChar
            let (handle, rest) ← match rest.drop word.length with
              | h :: after =>
                  if h.char = '!' then some ("!" ++ textOf word ++ "!", after)
                  else if word = [] then some ("!", h :: after) else none
              | [] => if word = [] then some ("!", []) else none
            if g.char ≠ '!' ∨ !(rest.head?.any (·.isSpace)) then none
            let rest := skipSpace rest
            let body := rest.takeWhile (isTagChar true)
            if body = [] || !Glyph.endsWord (rest.drop body.length) then none
            let s ← tagText? body
            some (Token.tagPrefix handle s, rest.drop body.length)
        | [] => none
    | _ => none
  let rest := Glyph.skipComment (skipSpace rest)
  if rest.head?.all (·.isBreak) then some (t, rest) else none

def openFlow (s : Lexer) (g : Glyph) (t : Token) : Option Lexer := do
  let s ← s.markKey g
  some { s.emit t with keys := none :: s.keys, keyAllowed := true }

def closeFlow (s : Lexer) (t : Token) : Option Lexer := do
  let s ← s.dropKey
  let keys := if s.inFlow then s.keys.drop 1 else s.keys
  some { s.emit t with keys, keyAllowed := false }

def breakOff (s : Lexer) : Option Lexer := do
  let s ← s.unrollAll.dropKey
  some { s with keyAllowed := false }

def dash (s : Lexer) (g : Glyph) : Option Lexer := do
  if !s.inFlow && !s.keyAllowed then none
  let s ← (s.roll g.column s.tokens.length .blockSeqStart).dropKey
  some { s.emit .dash with keyAllowed := true }

def explicitKey (s : Lexer) (g : Glyph) : Option Lexer := do
  if !s.inFlow && !s.keyAllowed then none
  let s ← (s.roll g.column s.tokens.length .blockMapStart).dropKey
  some { s.emit .key with keyAllowed := !s.inFlow }

def colon (s : Lexer) (g : Glyph) : Option Lexer :=
  match s.keys with
  | some k :: rest =>
      let s := (s.insertAt k.count .key).roll k.glyph.column k.count .blockMapStart
      some { s.emit .value with keys := none :: rest, keyAllowed := false }
  | _ =>
      if !s.inFlow && !s.keyAllowed then none
      else
        let s := s.roll g.column s.tokens.length .blockMapStart
        some { s.emit .value with keyAllowed := !s.inFlow }

/-- A token that may be or begin a key. -/
def content (s : Lexer) (g : Glyph) (t : Token) : Option Lexer := do
  let s ← s.markKey g
  some { s.emit t with keyAllowed := false }

def step (s : Lexer) : List Glyph → Option (Lexer × List Glyph)
  | [] => none
  | g :: rest =>
      let gs := g :: rest
      if g.column = 0 ∧ g.char = '%' then do
        let s ← s.breakOff
        let (t, rest) ← directive? rest
        some (s.emit t, rest)
      else if Glyph.isMark '-' gs then do some ((← s.breakOff).emit .documentStart, rest.drop 2)
      else if Glyph.isMark '.' gs then do some ((← s.breakOff).emit .documentEnd, rest.drop 2)
      else if g.char = '[' then do some (← s.openFlow g .flowSeqStart, rest)
      else if g.char = '{' then do some (← s.openFlow g .flowMapStart, rest)
      else if g.char = ']' then do some (← s.closeFlow .flowSeqEnd, rest)
      else if g.char = '}' then do some (← s.closeFlow .flowMapEnd, rest)
      else if g.char = ',' then do
        let s ← s.dropKey
        some ({ s.emit .comma with keyAllowed := true }, rest)
      else if g.char = '-' ∧ Glyph.endsWord rest then do some (← s.dash g, rest)
      else if g.char = '?' ∧ (s.inFlow ∨ Glyph.endsWord rest) then do some (← s.explicitKey g, rest)
      else if g.char = ':' ∧ (s.inFlow ∨ Glyph.endsWord rest) then do some (← s.colon g, rest)
      else if g.char = '*' then do
        let (name, rest) ← name? rest
        some (← s.content g (.alias name), rest)
      else if g.char = '&' then do
        let (name, rest) ← name? rest
        some (← s.content g (.anchor name), rest)
      else if g.char = '!' then do
        let (t, rest) ← tag? s.inFlow rest
        some (← s.content g t, rest)
      else if (g.char = '|' ∨ g.char = '>') ∧ !s.inFlow then do
        let s ← s.dropKey
        let (text, rest) ← block? (g.char = '>') s.indents.head? rest
        let form := if g.char = '|' then Form.literal else Form.other
        some ({ s.emit (.scalar form text) with keyAllowed := true }, rest)
      else if g.char = '\'' then do
        let (f, rest) ← singleQuoted? .empty rest
        some (← s.content g (.scalar .other f.text), rest)
      else if g.char = '"' then do
        let (f, rest) ← doubleQuoted? .empty 0 rest
        some (← s.content g (.scalar .other f.text), rest)
      else if g.isSpace ∨ g.char ∈ ['%', '@', '\x60', '|', '>'] then none
      else do
        let s ← s.content g (.scalar .plain "")
        let (f, rest) ← plain? s.inFlow s.inner .empty gs
        some ({ s with
          tokens := .scalar .plain f.text :: s.tokens.drop 1
          keyAllowed := f.gap.isBroken }, rest)

def finish (s : Lexer) : Option (List Token) := do
  let s ← s.breakOff
  some s.tokens.reverse

def run (s : Lexer) (gs : List Glyph) : Option (List Token) :=
  match skipGap s.inFlow s.keyAllowed false gs with
  | (_, []) => s.finish
  | (keyAllowed, g :: rest) =>
      match dropStale { s with keyAllowed } g with
      | none => none
      | some s =>
          match (s.unroll g.column).step (g :: rest) with
          | none => none
          | some (s, after) => if after.length < gs.length then s.run after else none
termination_by gs.length

end Lexer

/-- The tokens of a text; none when some part of it is no token, or stands where it may not. -/
def tokens? (s : String) : Option (List Token) := (Glyph.ofText? s).bind (Lexer.run .start)

end McpOperator.Yaml
