import DriveRescue.Document.Yaml.Cursor

/-! Tags of YAML, and the directives, which change nothing but have to be well formed. -/
namespace DriveRescue.Document.Yaml

private def isTagChar (c : Char) : Bool :=
  isWordChar c || ";/?:@&=+$,.!~*'()[]%".toList.contains c

private def octet : Reader Nat
  | '%' :: a :: b :: rest => (natIn? 16 [a, b]).map (·, rest)
  | _ => none

/-- The character of one octet, or of a row of octets whose first one tells how many they are. They
are put together whole, so that rows of more than two are beyond all codes. -/
private def octets : Reader Char := fun cs => do
  let (lead, rest) ← octet cs
  if lead < 0x80 then return (Char.ofNat lead, rest)
  if lead < 0xc0 || 0xe0 ≤ lead then none
  let (trail, rest) ← octet rest
  let code := 256 * lead + trail
  if trail < 0x80 || 0xc0 ≤ trail || !code.isValidChar then none
  return (Char.ofNat code, rest)

private def tagName : (bound : Nat) → Reader (List Char)
  | 0, _ => none
  | _, [] => some ([], [])
  | bound + 1, c :: rest =>
    if !isTagChar c then some ([], c :: rest)
    else do
      let (d, rest) ← if c == '%' then octets (c :: rest) else some (c, rest)
      let (more, rest) ← tagName bound rest
      return (d :: more, rest)

private def name : Reader (List Char) := fun cs => tagName (cs.length + 1) cs

/-- An exclamation mark, a word, and one more exclamation mark if it is there. -/
private def handle (cs : List Char) : List Char × List Char :=
  let word := (cs.drop 1).takeWhile isWordChar
  let mark := ((cs.drop (word.length + 1)).take 1).filter (· == '!')
  (cs.take 1 ++ word ++ mark, cs.drop (word.length + mark.length + 1))

private def isClosed (handle : List Char) : Bool :=
  2 ≤ handle.length && handle.getLast? == some '!'

/-- The tag whose exclamation mark is ahead. Only a name behind two exclamation marks is that of a
common kind. -/
def tag? (c : Cursor) : Option (Option String × Cursor) := do
  let (common, rest) ← match c.rest with
    | '!' :: '<' :: rest =>
      match ← name rest with
      | (_ :: _, '>' :: rest) => some (none, rest)
      | _ => none
    | cs =>
      let (mark, rest) := handle cs
      let (s, rest) ← name rest
      if isClosed mark && s.isEmpty then none
      else some (if mark == ['!', '!'] then some (.ofList s) else none, rest)
  let c := c.skipTo rest
  if c.atGap then some (common, c) else none

private def versionNumber? (c : Cursor) : Option Cursor :=
  let digits := c.rest.takeWhile Char.isDigit
  if digits.isEmpty || 9 < digits.length then none else some (c.skipMany digits.length)

private def version? (c : Cursor) : Option Cursor := do
  let c ← versionNumber? (c.skipWhile isBlank)
  if c.head? ≠ some '.' then none
  versionNumber? c.skip

private def tagPrefix? (c : Cursor) : Option Cursor := do
  let c := c.skipWhile isBlank
  let (mark, rest) := handle c.rest
  if mark ≠ ['!'] && !(mark.head? == some '!' && isClosed mark) then none
  let c := (c.skipTo rest).skipWhile isBlank
  let (s, rest) ← name c.rest
  let c := c.skipTo rest
  if s.isEmpty || !c.atGap then none else some c

def directive? (c : Cursor) : Option Cursor := do
  let word := (c.rest.drop 1).takeWhile isWordChar
  let c := c.skipMany (word.length + 1)
  if word.isEmpty || !c.atGap then none
  let c ← match String.ofList word with
    | "YAML" => version? c
    | "TAG" => tagPrefix? c
    | _ => some (c.skipWhile (!isBreak ·))
  c.nextLine?

end DriveRescue.Document.Yaml
