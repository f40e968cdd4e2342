import DriveRescue.Document.Yaml.Scalar
import DriveRescue.Document.Yaml.Tag

/-! Tokens of YAML. Indentation becomes tokens that begin and end blocks, and a key without a mark of
its own gets one in front as soon as the colon behind it is seen. -/
namespace DriveRescue.Document.Yaml

inductive Token where
  | directive
  | documentStart
  | documentEnd
  | blockSequence
  | blockMapping
  | blockEnd
  | flowSequence
  | flowSequenceEnd
  | flowMapping
  | flowMappingEnd
  | blockEntry
  | flowEntry
  | key
  | value
  | anchor (name : String)
  | alias (name : String)
  /-- The name of one of the common kinds; none for any other tag. -/
  | tag (common : Option String)
  | scalar (isPlain : Bool) (text : List Char)
  deriving DecidableEq

structure Candidate where
  /-- Where the key's mark would go among the tokens. -/
  position : Nat
  /-- A colon has to come. -/
  required : Bool
  place : Cursor

structure Lexer where
  cursor : Cursor
  tokens : Array Token
  /-- A key may begin here. -/
  keyAllowed : Bool
  /-- The candidates by flow level, innermost first. -/
  candidates : List (Option Candidate)
  /-- The columns of the open blocks, innermost first. -/
  indents : List Nat
  /-- How many flow collections are open. -/
  flow : Nat
  /-- Where a colon need not be followed by a gap, because a quoted scalar ended there. -/
  adjacent : Option Nat

namespace Lexer

def start (text : List Char) : Lexer := ⟨.start text, #[], true, [none], [], 0, none⟩

def emit (l : Lexer) (t : Token) : Lexer := { l with tokens := l.tokens.push t }

private def insert (l : Lexer) (position : Nat) (t : Token) : Lexer :=
  { l with tokens := l.tokens.insertIdxIfInBounds position t }

def allowKey (l : Lexer) (keyAllowed : Bool) : Lexer := { l with keyAllowed }

private def take (l : Lexer) (count : Nat) (t : Token) : Lexer :=
  { l with cursor := l.cursor.skipMany count }.emit t

/-- The indentation of the innermost block is left of a column. -/
private def isDeeper (l : Lexer) (column : Nat) : Bool := l.indents.head?.all (· < column)

/-- Opens a block at a column unless one is open there. Its token goes to a position, or to the
end. -/
private def openBlock (l : Lexer) (column : Nat) (position : Option Nat) (t : Token) : Lexer :=
  if 0 < l.flow || !l.isDeeper column then l
  else
    let l := { l with indents := column :: l.indents }
    match position with
    | some position => l.insert position t
    | none => l.emit t

private def closeBlocks (l : Lexer) (column : Option Nat) : Lexer :=
  if 0 < l.flow then l
  else
    let gone := l.indents.takeWhile fun n => column.all (· < n)
    { l with
      indents := l.indents.drop gone.length
      tokens := l.tokens ++ Array.replicate gone.length .blockEnd }

private def dropCandidate (l : Lexer) : Option Lexer :=
  match l.candidates with
  | some c :: rest => if c.required then none else some { l with candidates := none :: rest }
  | _ => some l

/-- Makes the token to come a candidate where a key may begin. -/
private def addCandidate (l : Lexer) : Option Lexer :=
  if !l.keyAllowed then some l
  else do
    let l ← l.dropCandidate
    let required := 0 < l.flow && l.indents.head? == some l.cursor.column
    return { l with
      candidates := some ⟨l.tokens.size, required, l.cursor⟩ :: l.candidates.drop 1 }

def keyLength : Nat := 1024

/-- Gives up the candidates that lie on another line or too far back. -/
private def dropStale (l : Lexer) : Option Lexer := do
  let candidates ← l.candidates.mapM fun
    | none => some none
    | some c =>
      if c.place.line < l.cursor.line || c.place.index + keyLength < l.cursor.index then
        if c.required then none else some none
      else some (some c)
  return { l with candidates }

/-- Goes over blanks, comments and line ends. A tab is no blank where a key may begin. -/
private def skipGap : (bound : Nat) → Lexer → Lexer
  | 0, l => l
  | bound + 1, l =>
    match l.cursor.head? with
    | some d =>
      if d == ' ' || (d == '\t' && (0 < l.flow || !l.keyAllowed)) then
        skipGap bound { l with cursor := l.cursor.skip }
      else if isBreak d then
        skipGap bound
          { l with cursor := l.cursor.skipBreak, keyAllowed := l.keyAllowed || l.flow = 0 }
      else if d == '#' then skipGap bound { l with cursor := l.cursor.skipWhile (!isBreak ·) }
      else l
    | none => l

private def directive (l : Lexer) : Option Lexer := do
  let l ← (l.closeBlocks none).dropCandidate
  return { l.allowKey false with cursor := ← directive? l.cursor }.emit .directive

private def documentMarker (l : Lexer) (t : Token) : Option Lexer := do
  let l ← (l.closeBlocks none).dropCandidate
  return (l.allowKey false).take 3 t

private def openFlow (l : Lexer) (t : Token) : Option Lexer := do
  let l ← l.addCandidate
  if 255 ≤ l.flow then none
  return { l with candidates := none :: l.candidates, flow := l.flow + 1, keyAllowed := true }.take 1 t

private def closeFlow (l : Lexer) (t : Token) : Option Lexer := do
  let l ← l.dropCandidate
  let l := if 0 < l.flow then { l with flow := l.flow - 1, candidates := l.candidates.drop 1 } else l
  return (l.allowKey false).take 1 t

private def flowEntry (l : Lexer) : Option Lexer := do
  return ((← l.dropCandidate).allowKey true).take 1 .flowEntry

private def blockEntry (l : Lexer) : Option Lexer := do
  if 0 < l.flow || !l.keyAllowed then none
  let l ← (l.openBlock l.cursor.column none .blockSequence).dropCandidate
  return (l.allowKey true).take 1 .blockEntry

private def markedKey (l : Lexer) : Option Lexer := do
  if l.flow = 0 && !l.keyAllowed then none
  let l ← (l.openBlock l.cursor.column none .blockMapping).dropCandidate
  return (l.allowKey (l.flow = 0)).take 1 .key

private def colon (l : Lexer) : Option Lexer :=
  match l.candidates with
  | some c :: rest =>
    let l := l.insert c.position .key
    let l := l.openBlock c.place.column (some c.position) .blockMapping
    some (({ l with candidates := none :: rest }.allowKey false).take 1 .value)
  | _ => do
    if l.flow = 0 && !l.keyAllowed then none
    let l := l.openBlock l.cursor.column none .blockMapping
    return (l.allowKey (l.flow = 0)).take 1 .value

private def reference (l : Lexer) (isAlias : Bool) : Option Lexer := do
  let l := (← l.addCandidate).allowKey false
  let c := l.cursor.skip
  let name := c.rest.takeWhile isWordChar
  let c := c.skipMany name.length
  let ends := c.atGap || c.head?.any ("?:,]\x7d%@" ++ (Char.ofNat 0x60).toString).toList.contains
  if name.isEmpty || !ends then none
  return { l with cursor := c }.emit
    (if isAlias then .alias (.ofList name) else .anchor (.ofList name))

private def tag (l : Lexer) : Option Lexer := do
  let l := (← l.addCandidate).allowKey false
  let (common, c) ← tag? l.cursor
  return { l with cursor := c }.emit (.tag common)

private def blockScalar (l : Lexer) (literal : Bool) : Option Lexer := do
  let l := (← l.addCandidate).allowKey true
  let (text, c) ← block literal l.indents.head? l.cursor
  return { l with cursor := c }.emit (.scalar false text)

private def quotedScalar (l : Lexer) (single : Bool) : Option Lexer := do
  let l := (← l.addCandidate).allowKey false
  let (text, c) ← quoted single l.cursor
  return { l with cursor := c, adjacent := some c.index }.emit (.scalar false text)

private def plainScalar (l : Lexer) : Option Lexer := do
  let l := (← l.addCandidate).allowKey false
  let (text, left, c) ← plain (0 < l.flow) ((l.indents.head?.map (· + 1)).getD 0) l.cursor
  return { l with cursor := c, keyAllowed := left }.emit (.scalar true text)

private def next (l : Lexer) (d : Char) : Option Lexer :=
  let c := l.cursor
  let gap := c.skip.atGap
  let atColon := gap ||
    (0 < l.flow && (c.second?.any isFlowMark || l.adjacent == some c.index))
  if c.column = 0 && d == '%' then l.directive
  else if c.atMarker '-' then l.documentMarker .documentStart
  else if c.atMarker '.' then l.documentMarker .documentEnd
  else if d == '[' then l.openFlow .flowSequence
  else if d == '\x7b' then l.openFlow .flowMapping
  else if d == ']' then l.closeFlow .flowSequenceEnd
  else if d == '\x7d' then l.closeFlow .flowMappingEnd
  else if d == ',' then l.flowEntry
  else if d == '-' && gap then l.blockEntry
  else if d == '?' && gap then l.markedKey
  else if d == ':' && atColon then l.colon
  else if d == '*' then l.reference true
  else if d == '&' then l.reference false
  else if d == '!' then l.tag
  else if d == '|' && l.flow = 0 then l.blockScalar true
  else if d == '>' && l.flow = 0 then l.blockScalar false
  else if d == '\'' then l.quotedScalar true
  else if d == '"' then l.quotedScalar false
  else if d == '%' || d == '@' || d.toNat = 0x60 then none
  else l.plainScalar

private def run : (bound : Nat) → Lexer → Option Lexer
  | 0, _ => none
  | bound + 1, l => do
    let l ← (skipGap (l.cursor.rest.length + 1) l).dropStale
    let l := l.closeBlocks (some l.cursor.column)
    match l.cursor.head? with
    | some d => run bound (← l.next d)
    | none => (l.closeBlocks none).dropCandidate

end Lexer

def tokens? (text : List Char) : Option (List Token) :=
  (Lexer.run (text.length + 1) (.start text)).map (·.tokens.toList)

end DriveRescue.Document.Yaml
