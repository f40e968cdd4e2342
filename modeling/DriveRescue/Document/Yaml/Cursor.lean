import DriveRescue.Document.Reader

/-! Places in a YAML text, and the folding of line ends within scalars. -/
namespace DriveRescue.Document.Yaml

def isBreak (c : Char) : Bool := c == '\n' || c == '\r'

def isBlank (c : Char) : Bool := c == ' ' || c == '\t'

def isWordChar (c : Char) : Bool := c.isAlphanum || c == '_' || c == '-'

structure Cursor where
  rest : List Char
  index : Nat
  line : Nat
  column : Nat

namespace Cursor

/-- A zero character ends the text. -/
def start (text : List Char) : Cursor := ⟨text.takeWhile (·.toNat ≠ 0), 0, 0, 0⟩

def head? (c : Cursor) : Option Char := c.rest.head?

def second? (c : Cursor) : Option Char := c.rest[1]?

def skip (c : Cursor) : Cursor :=
  match c.rest with
  | [] => c
  | '\n' :: rest => ⟨rest, c.index + 1, c.line + 1, 0⟩
  | _ :: rest => ⟨rest, c.index + 1, c.line, c.column + 1⟩

def skipMany (c : Cursor) : (count : Nat) → Cursor
  | 0 => c
  | count + 1 => c.skip.skipMany count

def skipTo (c : Cursor) (rest : List Char) : Cursor := c.skipMany (c.rest.length - rest.length)

def skipWhile (c : Cursor) (kind : Char → Bool) : Cursor :=
  c.skipMany (c.rest.takeWhile kind).length

def skipBreak (c : Cursor) : Cursor :=
  match c.rest with
  | '\r' :: '\n' :: _ => c.skipMany 2
  | _ => c.skip

def atBreak (c : Cursor) : Bool := c.head?.any isBreak

def atBlank (c : Cursor) : Bool := c.head?.any isBlank

/-- A blank, the end of a line or the end of the text is ahead. -/
def atGap (c : Cursor) : Bool := c.head?.all fun d => isBlank d || isBreak d

/-- Three of one mark begin the line, with a gap behind them. -/
def atMarker (c : Cursor) (mark : Char) : Bool :=
  c.column = 0 && [mark, mark, mark].isPrefixOf c.rest && (c.skipMany 3).atGap

def atDocumentMarker (c : Cursor) : Bool := c.atMarker '-' || c.atMarker '.'

def skipToLineEnd (c : Cursor) : Cursor :=
  let c := c.skipWhile isBlank
  if c.head? == some '#' then c.skipWhile (!isBreak ·) else c

/-- Goes over blanks and a comment to the next line; none if anything else is there. -/
def nextLine? (c : Cursor) : Option Cursor :=
  let c := c.skipToLineEnd
  if c.rest.isEmpty then some c else if c.atBreak then some c.skipBreak else none

end Cursor

structure Gap where
  blanks : List Char
  /-- The first line end, which the other ones swallow. -/
  first : Bool
  /-- How many line ends follow it. -/
  more : Nat
  /-- Blanks belong to the margin of a line. -/
  margin : Bool

namespace Gap

def empty : Gap := ⟨[], false, 0, false⟩

def escaped : Gap := ⟨[], false, 0, true⟩

/-- What a gap stands for: its blanks, or its line ends, of which a first one counts as a space if it
is the only one and as nothing otherwise. -/
def text (g : Gap) : List Char :=
  if !g.margin then g.blanks
  else if g.first && g.more = 0 then [' ']
  else List.replicate g.more '\n'

/-- Goes over blanks and line ends. A tab left of `indent` is refused in the margin of a line. -/
def gather (indent : Nat) : (bound : Nat) → Gap → Cursor → Option (Gap × Cursor)
  | 0, g, c => some (g, c)
  | bound + 1, g, c =>
    if c.atBreak then
      let g := if g.margin then { g with more := g.more + 1 } else ⟨[], true, g.more, true⟩
      gather indent bound g c.skipBreak
    else match c.head? with
      | some d =>
        if !isBlank d then some (g, c)
        else if g.margin then
          if d == '\t' && c.column < indent then none else gather indent bound g c.skip
        else gather indent bound { g with blanks := g.blanks ++ [d] } c.skip
      | none => some (g, c)

end Gap

end DriveRescue.Document.Yaml
