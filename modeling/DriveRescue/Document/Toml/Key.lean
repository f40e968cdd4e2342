import DriveRescue.Document.Reader

/-! Strings and keys of TOML. -/
namespace DriveRescue.Document.Toml

def isSpace (c : Char) : Bool := c == ' ' || c == '\t'

def skipSpaces (cs : List Char) : List Char := cs.dropWhile isSpace

/-- A character of a bare word. Keys, numbers and dates consist of such words. -/
def isBare (c : Char) : Bool := c.isAlphanum || c == '_' || c == '-'

def word (cs : List Char) : List Char × List Char := (cs.takeWhile isBare, cs.dropWhile isBare)

/-- A character that may stand in a string as it is. -/
private def isPlain (c : Char) : Bool := c == '\t' || (0x20 ≤ c.toNat && c.toNat ≠ 0x7f)

private def escaped : Reader Char
  | 'b' :: rest => some (Char.ofNat 8, rest)
  | 't' :: rest => some ('\t', rest)
  | 'n' :: rest => some ('\n', rest)
  | 'f' :: rest => some (Char.ofNat 12, rest)
  | 'r' :: rest => some ('\r', rest)
  | '"' :: rest => some ('"', rest)
  | '\\' :: rest => some ('\\', rest)
  | 'u' :: rest => coded 4 rest
  | 'U' :: rest => coded 8 rest
  | _ => none

private def restLine (quote : Char) (escapes : Bool) : (bound : Nat) → Reader (List Char)
  | 0, _ => none
  | _, [] => none
  | bound + 1, c :: rest =>
    if c == quote then some ([], rest)
    else if escapes && c == '\\' then do
      let (c, rest) ← escaped rest
      let (more, rest) ← restLine quote escapes bound rest
      return (c :: more, rest)
    else if isPlain c then do
      let (more, rest) ← restLine quote escapes bound rest
      return (c :: more, rest)
    else none

/-- The rest of a string over several lines up to three closing quotes. One or two more quotes
right before them belong to the string. -/
private def restLines (quote : Char) (escapes : Bool) : (bound : Nat) → Reader (List Char)
  | 0, _ => none
  | _, [] => none
  | bound + 1, c :: rest =>
    if [quote, quote, quote].isPrefixOf (c :: rest) then
      let closing := ((c :: rest).take 5).takeWhile (· == quote)
      some (closing.drop 3, (c :: rest).drop closing.length)
    else if escapes && c == '\\' then
      let behind := skipSpaces rest
      if behind.head? == some '\n' then
        restLines quote escapes bound (behind.dropWhile fun c => isSpace c || c == '\n')
      else do
        let (c, rest) ← escaped rest
        let (more, rest) ← restLines quote escapes bound rest
        return (c :: more, rest)
    else if isPlain c || c == '\n' then do
      let (more, rest) ← restLines quote escapes bound rest
      return (c :: more, rest)
    else none

private def oneLine (quote : Char) : Reader String := fun cs =>
  (restLine quote (quote == '"') (cs.length + 1) cs).map fun (s, rest) => (.ofList s, rest)

private def manyLines (quote : Char) : Reader String := fun cs =>
  let cs := if cs.head? == some '\n' then cs.drop 1 else cs
  (restLines quote (quote == '"') (cs.length + 1) cs).map fun (s, rest) => (.ofList s, rest)

def string : Reader String
  | '"' :: '"' :: '"' :: rest => manyLines '"' rest
  | '\'' :: '\'' :: '\'' :: rest => manyLines '\'' rest
  | '"' :: rest => oneLine '"' rest
  | '\'' :: rest => oneLine '\'' rest
  | _ => none

private def keyPart : Reader String
  | '"' :: rest => oneLine '"' rest
  | '\'' :: rest => oneLine '\'' rest
  | cs =>
    match word cs with
    | ([], _) => none
    | (name, rest) => some (.ofList name, rest)

private def keyParts : (bound : Nat) → Reader (List String)
  | 0, _ => none
  | bound + 1, cs => do
    let (part, rest) ← keyPart cs
    match skipSpaces rest with
    | '.' :: rest =>
      let (parts, rest) ← keyParts bound (skipSpaces rest)
      return (part :: parts, rest)
    | rest => return ([part], rest)

def key : Reader (List String) := fun cs => keyParts (cs.length + 1) cs

end DriveRescue.Document.Toml
