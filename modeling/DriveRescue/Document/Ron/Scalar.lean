import DriveRescue.Document.Reader

/-! What RON documents are made of between their brackets: blanks, names, numbers and texts. -/
namespace DriveRescue.Document.Ron

/-! Blanks and comments, which nest. -/

private def behindBlock : (level : Nat) → List Char → Option (List Char)
  | 0, cs => some cs
  | _, [] => none
  | level + 1, '/' :: '*' :: rest => behindBlock (level + 2) rest
  | level + 1, '*' :: '/' :: rest => behindBlock level rest
  | level + 1, _ :: rest => behindBlock (level + 1) rest

private def isSpace (c : Char) : Bool := c == ' ' || c == '\t' || c == '\n' || c == '\r'

private def skip : (bound : Nat) → List Char → Option (List Char)
  | 0, cs => some cs
  | bound + 1, cs =>
    match cs.dropWhile isSpace with
    | '/' :: '/' :: rest => skip bound (rest.dropWhile (· ≠ '\n'))
    | '/' :: '*' :: rest => (behindBlock 1 rest).bind (skip bound)
    | '/' :: _ => none
    | rest => some rest

def skipBlanks (cs : List Char) : Option (List Char) := skip (cs.length + 1) cs

/-! Names. -/

private def beginsName (c : Char) : Bool := c.isAlpha || c == '_'

private def continuesName (c : Char) : Bool := beginsName c || c.isDigit

private def isRawName (c : Char) : Bool := continuesName c || c == '.' || c == '+' || c == '-'

/-- A name. What begins a raw string is none, and a raw name is marked like one. -/
def name : Reader (List Char)
  | 'r' :: '#' :: c :: rest =>
    if isRawName c then
      some ((c :: rest).takeWhile isRawName, (c :: rest).dropWhile isRawName)
    else none
  | ['r'] | 'r' :: '#' :: [] | 'r' :: '"' :: _ => none
  | c :: rest =>
    if beginsName c then some (c :: rest.takeWhile continuesName, rest.dropWhile continuesName)
    else none
  | [] => none

def behindWord (word : String) (cs : List Char) : Option (List Char) :=
  let rest := cs.drop word.length
  if word.toList.isPrefixOf cs && !rest.head?.any continuesName then some rest else none

/-! Numbers. -/

private def isRealChar (c : Char) : Bool :=
  c.isDigit || c == 'e' || c == 'E' || c == '.' || c == '+' || c == '-'

private def isWholeChar (c : Char) : Bool := isDigitIn 16 c || c == '_'

private def unsign : List Char → Bool × List Char
  | '-' :: rest => (true, rest)
  | '+' :: rest => (false, rest)
  | cs => (false, cs)

private def whole? (cs : List Char) : Option (Nat × List Char) :=
  let (base, cs) : Nat × List Char := match cs with
    | '0' :: 'x' :: rest => (16, rest)
    | '0' :: 'o' :: rest => (8, rest)
    | '0' :: 'b' :: rest => (2, rest)
    | cs => (10, cs)
  let digits := cs.takeWhile isWholeChar
  if digits.head? == some '_' then none
  else (natIn? base (digits.filter (· ≠ '_'))).map (·, cs.dropWhile isWholeChar)

def realWord (cs : List Char) : Option (Binary64 × List Char) :=
  let words : List (String × Binary64) :=
    [("inf", .infinite false), ("+inf", .infinite false), ("-inf", .infinite true), ("NaN", .nan),
      ("+NaN", .nan), ("-NaN", .nan)]
  words.findSome? fun (word, x) => (behindWord word cs).map (x, ·)

/-- A whole number has no more than 128 bits, one of which is for its sign if it has one. -/
private def isHeld (signed negative : Bool) (n : Nat) : Bool :=
  if signed then n < Nat.pow 2 127 || (negative && n = Nat.pow 2 127) else n < Nat.pow 2 128

/-- Reads a number as a whole one if that is possible, else as a real one. Of whole numbers, those
of 64 bits with their sign stay exact. -/
def number (cs : List Char) : Option (Datum × List Char) :=
  let (negative, digits) := unsign cs
  let real := do
    let text := cs.takeWhile isRealChar
    return (Datum.real (← real? text), cs.drop text.length)
  if (digits.takeWhile isWholeChar).length < (digits.takeWhile isRealChar).length then real
  else match whole? digits with
    | none => real
    | some (n, rest) =>
      if !isHeld (digits.length < cs.length) negative n then real
      else match signed64? negative n with
        | some n => some (.integer n, rest)
        | none =>
          let x := Binary64.ofNat n
          some (.real (if negative then x.negate else x), rest)

/-! Strings and characters. -/

private def bracedCode (cs : List Char) : Option (Char × List Char) :=
  match cs with
  | '{' :: rest =>
    let digits := (rest.take 6).takeWhile (isDigitIn 16)
    match rest.drop digits.length with
    | '}' :: rest =>
      (natIn? 16 digits).bind fun n =>
        if n.isValidChar then some (Char.ofNat n, rest) else none
    | _ => none
  | _ => none

private def escaped : Reader Char
  | '\'' :: rest => some ('\'', rest)
  | '"' :: rest => some ('"', rest)
  | '\\' :: rest => some ('\\', rest)
  | 'n' :: rest => some ('\n', rest)
  | 'r' :: rest => some ('\r', rest)
  | 't' :: rest => some ('\t', rest)
  | '0' :: rest => some (Char.ofNat 0, rest)
  | 'x' :: rest => coded 2 rest
  | 'u' :: rest => bracedCode rest
  | _ => none

private def stringRest : (bound : Nat) → Reader (List Char)
  | 0, _ => none
  | _, [] => none
  | bound + 1, c :: rest =>
    if c == '"' then some ([], rest)
    else do
      let (c, rest) ← if c == '\\' then escaped rest else some (c, rest)
      let (more, rest) ← stringRest bound rest
      return (c :: more, rest)

/-- The text up to a quote with `marks` behind it. -/
private def rawRest (marks : List Char) : Reader (List Char)
  | [] => none
  | c :: rest =>
    if c == '"' && marks.isPrefixOf rest then some ([], rest.drop marks.length)
    else (rawRest marks rest).map fun (s, rest) => (c :: s, rest)

def string (cs : List Char) : Option (String × List Char) :=
  let text := fun (r : Option (List Char × List Char)) => r.map fun (s, rest) => (.ofList s, rest)
  match cs with
  | '"' :: rest => text (stringRest (rest.length + 1) rest)
  | 'r' :: rest =>
    let marks := rest.takeWhile (· == '#')
    match rest.drop marks.length with
    | '"' :: rest => text (rawRest marks rest)
    | _ => none
  | _ => none

def character (cs : List Char) : Option (Char × List Char) :=
  match cs with
  | '\\' :: rest =>
    match escaped rest with
    | some (c, '\'' :: rest) => some (c, rest)
    | _ => none
  | c :: '\'' :: rest => if c == '\'' then none else some (c, rest)
  | _ => none

end DriveRescue.Document.Ron
