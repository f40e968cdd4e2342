import DriveRescue.Document.Yaml.Cursor
import DriveRescue.Document.Yaml.Reading

/-! Scalars of YAML: plain, between quotes, and in blocks. -/
namespace DriveRescue.Document.Yaml

def isFlowMark (c : Char) : Bool := c == ',' || c == '[' || c == ']' || c == '\x7b' || c == '\x7d'

/-! Plain scalars. -/

/-- The end of the word that begins at a place. In a flow collection its marks end a word too. -/
private def skipWord (inFlow : Bool) : (bound : Nat) → Cursor → Cursor
  | 0, c => c
  | bound + 1, c =>
    match c.head? with
    | none => c
    | some d =>
      if isBlank d || isBreak d then c
      else if d == ':' && (c.skip.atGap || (inFlow && c.second?.any isFlowMark)) then c
      else if inFlow && isFlowMark d then c
      else skipWord inFlow bound c.skip

private def plainFrom (inFlow : Bool) (indent : Nat) : (bound : Nat) → (done : List Char) → Gap →
    Cursor → Option (List Char × Gap × Cursor)
  | 0, _, _, _ => none
  | bound + 1, done, g, c =>
    if c.atDocumentMarker || c.head? == some '#' then some (done, g, c)
    else do
      let behind := skipWord inFlow (c.rest.length + 1) c
      let word := c.rest.take (c.rest.length - behind.rest.length)
      let (done, g) := if word.isEmpty then (done, g) else (done ++ g.text ++ word, Gap.empty)
      if !behind.atBlank && !behind.atBreak then return (done, g, behind)
      let (g, c) ← g.gather indent (behind.rest.length + 1) behind
      if !inFlow && c.column < indent then return (done, g, c)
      plainFrom inFlow indent bound done g c

/-- A plain scalar whose further lines are indented at least to `indent`, and whether the line on
which it ends was left. -/
def plain (inFlow : Bool) (indent : Nat) (c : Cursor) : Option (List Char × Bool × Cursor) :=
  (plainFrom inFlow indent (c.rest.length + 1) [] .empty c).map fun (s, g, c) => (s, g.margin, c)

/-! Scalars between quotes. -/

/-- What a backslash and the character behind it stand for, and how many hexadecimal digits follow
if they give a code. -/
private def escape? (c : Char) : Option (Char ⊕ Nat) :=
  match c with
  | '0' => some (.inl (Char.ofNat 0))
  | 'a' => some (.inl (Char.ofNat 7))
  | 'b' => some (.inl (Char.ofNat 8))
  | 't' | '\t' => some (.inl '\t')
  | 'n' => some (.inl '\n')
  | 'v' => some (.inl (Char.ofNat 11))
  | 'f' => some (.inl (Char.ofNat 12))
  | 'r' => some (.inl '\r')
  | 'e' => some (.inl (Char.ofNat 27))
  | ' ' | '"' | '\'' | '\\' => some (.inl c)
  | 'N' => some (.inl (Char.ofNat 0x85))
  | '_' => some (.inl (Char.ofNat 0xa0))
  | 'L' => some (.inl (Char.ofNat 0x2028))
  | 'P' => some (.inl (Char.ofNat 0x2029))
  | 'x' => some (.inr 2)
  | 'u' => some (.inr 4)
  | 'U' => some (.inr 8)
  | _ => none

/-- The word at a place, up to a gap or the closing quote. The mark tells whether an escaped line end
was behind it. -/
private def quotedWord (single : Bool) : (bound : Nat) → Cursor → Option (List Char × Bool × Cursor)
  | 0, _ => none
  | bound + 1, c =>
    let go := fun (d : Char) (c : Cursor) =>
      (quotedWord single bound c).map fun (s, e, c) => (d :: s, e, c)
    match c.rest with
    | [] => some ([], false, c)
    | d :: rest =>
      if isBlank d || isBreak d then some ([], false, c)
      else if single then
        if d ≠ '\'' then go d c.skip
        else if rest.head? == some '\'' then go d (c.skipMany 2)
        else some ([], false, c)
      else if d == '"' then some ([], false, c)
      else if d ≠ '\\' then go d c.skip
      else match rest with
        | [] => none
        | e :: digits =>
          if isBreak e then some ([], true, c.skip.skipBreak)
          else match escape? e with
            | none => none
            | some (.inl d) => go d (c.skipMany 2)
            | some (.inr n) => (coded n digits).bind fun (d, _) => go d (c.skipMany (n + 2))

private def quotedFrom (single : Bool) : (bound : Nat) → (done : List Char) → Cursor →
    Option (List Char × Cursor)
  | 0, _, _ => none
  | bound + 1, done, c =>
    if c.atDocumentMarker || c.rest.isEmpty then none
    else do
      let (word, escaped, c) ← quotedWord single (c.rest.length + 1) c
      let done := done ++ word
      if c.head? == some (if single then '\'' else '"') then return (done, c.skip)
      let (g, c) ← (if escaped then Gap.escaped else .empty).gather 0 (c.rest.length + 1) c
      quotedFrom single bound (done ++ g.text) c

/-- A scalar between single or double quotes, the opening one of which is ahead. -/
def quoted (single : Bool) (c : Cursor) : Option (List Char × Cursor) :=
  quotedFrom single (c.rest.length + 1) [] c.skip

/-! Scalars in blocks. -/

/-- What becomes of the line ends behind a block. -/
private inductive Chomping where
  | strip | clip | keep
  deriving DecidableEq

/-- How many lines without text come next, up to the margin of one with text. An `indent` that is
not known yet is the widest of these margins. -/
private def emptyLines (least : Nat) : (bound : Nat) → (indent : Option Nat) → (widest count : Nat) →
    Cursor → Option (Nat × Nat × Cursor)
  | 0, _, _, _, _ => none
  | bound + 1, indent, widest, count, c =>
    let room := match indent with
      | some n => n - c.column
      | none => c.rest.length
    let c := c.skipMany (min room (c.rest.takeWhile (· == ' ')).length)
    let widest := max widest c.column
    if indent.all (c.column < ·) && c.head? == some '\t' then none
    else if c.atBreak then emptyLines least bound indent widest (count + 1) c.skipBreak
    else some (indent.getD (max widest least), count, c)

/-- The lines of a block from a place on. `gap` counts the empty lines before them, `ended` tells
whether the line before those had an end, and `flush` whether it began without a blank. -/
private def blockLines (literal : Bool) (indent : Nat) : (bound : Nat) → (done : List Char) →
    (ended flush : Bool) → (gap : Nat) → Cursor → Option (List Char × Bool × Nat × Cursor)
  | 0, _, _, _, _, _ => none
  | bound + 1, done, ended, flush, gap, c =>
    if c.column ≠ indent || c.rest.isEmpty then some (done, ended, gap, c)
    else
      let blank := c.atBlank
      let join :=
        if !literal && ended && flush && !blank then if gap = 0 then [' '] else []
        else if ended then ['\n'] else []
      let line := c.rest.takeWhile (!isBreak ·)
      let done := done ++ join ++ List.replicate gap '\n' ++ line
      let c := c.skipMany line.length
      if c.rest.isEmpty then some (done, false, 0, c)
      else do
        let c := c.skipBreak
        let (_, gap, c) ← emptyLines 0 (c.rest.length + 1) (some indent) 0 0 c
        blockLines literal indent bound done true (!blank) gap c

private def chomping? : Option Char → Option Chomping
  | some '+' => some .keep
  | some '-' => some .strip
  | _ => none

private def width? : Option Char → Option Nat
  | some d => if d.isDigit then some (d.toNat - '0'.toNat) else none
  | none => none

def block (literal : Bool) (outer : Option Nat) (c : Cursor) : Option (List Char × Cursor) := do
  let c := c.skip
  let (chomp, width, c) :=
    match chomping? c.head?, width? c.head? with
    | some chomp, _ =>
      match width? c.second? with
      | some n => (chomp, some n, c.skipMany 2)
      | none => (chomp, none, c.skip)
    | none, some n =>
      match chomping? c.second? with
      | some chomp => (chomp, some n, c.skipMany 2)
      | none => (.clip, some n, c.skip)
    | none, none => (.clip, none, c)
  if width == some 0 then none
  let c ← c.nextLine?
  let least := max 1 ((outer.map (· + 1)).getD 0)
  let (indent, gap, c) ←
    emptyLines least (c.rest.length + 1) (width.map (outer.getD 0 + ·)) 0 0 c
  let (text, ended, gap, c) ← blockLines literal indent (c.rest.length + 1) [] false false gap c
  let tail := (if ended && chomp ≠ .strip then ['\n'] else []) ++
    if chomp = .keep then List.replicate gap '\n' else []
  return (text ++ tail, c)

/-! What plain scalars stand for. -/

private def integer? (base : Nat) (cs : List Char) : Option Int :=
  let (negative, digits) := match cs with
    | '-' :: rest => (true, rest)
    | '+' :: rest => (false, rest)
    | cs => (false, cs)
  (natIn? base digits).bind (signed64? negative)

/-- The names of numbers that are not finite have no text that reads as a number. -/
private def isUnreadable (s : String) : Bool :=
  [".inf", ".Inf", ".INF", "+.inf", "+.Inf", "+.INF", "-.inf", "-.Inf", "-.INF", ".nan",
    ".NAN"].contains s

private def whole? (cs : List Char) : Option Int :=
  let base := fun (base : Nat) (mark : List Char) =>
    if mark.isPrefixOf cs then integer? base (cs.drop mark.length) else none
  (base 16 ['0', 'x']).or ((base 8 ['0', 'o']).or (base 10 ['+']))

def plainReading (cs : List Char) : Reading :=
  let s := String.ofList cs
  match whole? cs with
  | some n => .known (.integer n)
  | none =>
    if s == "~" || s == "null" then .known .null
    else if s == "true" then .known (.boolean true)
    else if s == "false" then .known (.boolean false)
    else match integer? 10 cs with
      | some n => .known (.integer n)
      | none =>
        if isUnreadable s then .unreadable
        else .known ((real? cs).elim (.text s) .real)

/-- What a plain scalar with the name of a tag stands for. Names of no common kind leave it a
text. -/
def taggedReading (tag : String) (cs : List Char) : Reading :=
  let s := String.ofList cs
  let fitting := fun (d? : Option Datum) => d?.elim Reading.misfit .known
  match tag with
  | "bool" =>
    fitting (if s == "true" then some (.boolean true)
      else if s == "false" then some (.boolean false) else none)
  | "int" => fitting ((integer? 10 cs).map .integer)
  | "float" => if isUnreadable s then .unreadable else fitting ((real? cs).map .real)
  | "null" => fitting (if s == "~" || s == "null" then some .null else none)
  | _ => .known (.text s)

end DriveRescue.Document.Yaml
