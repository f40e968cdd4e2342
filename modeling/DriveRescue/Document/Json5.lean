import DriveRescue.Document.Reader
import DriveRescue.Text.Blank
import DriveRescue.Text.WordPart

/-! JSON5 documents: JSON with comments, bare names, single quotes, more kinds of numbers, and commas
behind last items. -/
namespace DriveRescue.Document.Json5

def isLineEnd (c : Char) : Bool :=
  c == '\n' || c == '\r' || c.toNat == 0x2028 || c.toNat == 0x2029

def isSpace (c : Char) : Bool :=
  (Text.isBlank c && c.toNat ≠ 0x85) || c.toNat == 0xfeff

private def behindBlock : List Char → Option (List Char)
  | '*' :: '/' :: rest => some rest
  | _ :: rest => behindBlock rest
  | [] => none

/-- Blanks and comments. The bound is the number of characters. A comment without end stays. -/
private def skip : (bound : Nat) → List Char → List Char
  | 0, cs => cs
  | bound + 1, cs =>
    match cs.dropWhile isSpace with
    | '/' :: '/' :: rest => skip bound (rest.dropWhile (!isLineEnd ·))
    | '/' :: '*' :: rest =>
      match behindBlock rest with
      | some rest => skip bound rest
      | none => '/' :: '*' :: rest
    | rest => rest

def skipBlanks (cs : List Char) : List Char := skip (cs.length + 1) cs

/-! Numbers. -/

private def signOf : List Char → List Char × List Char
  | '+' :: rest => (['+'], rest)
  | '-' :: rest => (['-'], rest)
  | cs => ([], cs)

private def exponentText (cs : List Char) : List Char × List Char :=
  match cs with
  | mark :: rest =>
    let (sign, digits) := signOf rest
    if (mark == 'e' || mark == 'E') && digits.head?.any Char.isDigit then
      (mark :: sign ++ digits.takeWhile Char.isDigit, digits.dropWhile Char.isDigit)
    else ([], cs)
  | [] => ([], [])

/-- A row of digits without needless zeros in front. -/
private def wholeText (cs : List Char) : List Char × List Char :=
  match cs with
  | '0' :: rest => (['0'], rest)
  | cs => (cs.takeWhile Char.isDigit, cs.dropWhile Char.isDigit)

/-- The value of a decimal number with a point or an exponent. Infinity is none. -/
private def decimal? (negative : Bool) (whole part power : List Char) : Option Datum := do
  let (sign, power) := signOf (power.drop 1)
  let power ← if power.isEmpty then some 0 else Text.digits? power
  let power : Int := if sign == ['-'] then -power else power
  match Binary64.ofDecimal negative (← Text.digits? (whole ++ part)) (power - part.length) with
  | .finite negative m e => some (.real (.finite negative m e))
  | _ => none

private def number : Reader Datum := fun cs =>
  let (sign, cs) := signOf cs
  let negative := sign == ['-']
  match cs with
  | 'I' :: 'n' :: 'f' :: 'i' :: 'n' :: 'i' :: 't' :: 'y' :: rest =>
    if sign == ['+'] then none else some (.real (.infinite negative), rest)
  | 'N' :: 'a' :: 'N' :: rest => if sign == ['+'] then none else some (.real .nan, rest)
  | cs =>
    let hex := match cs with
      | '0' :: 'x' :: rest | '0' :: 'X' :: rest => rest.takeWhile (isDigitIn 16)
      | _ => []
    if !hex.isEmpty then
      -- Hexadecimal numbers have no sign and no more than 32 bits.
      match natIn? 16 hex with
      | some n =>
        if sign.isEmpty && n < Nat.pow 2 32 then some (.integer n, cs.drop (hex.length + 2)) else none
      | none => none
    else
      let (whole, rest) := wholeText cs
      match rest with
      | '.' :: behind =>
        let part := behind.takeWhile Char.isDigit
        let (power, behind) := exponentText (behind.drop part.length)
        (decimal? negative whole part power).map (·, behind)
      | rest =>
        if whole.isEmpty then none
        else
          let (power, behind) := exponentText rest
          if power.isEmpty then
            ((Text.digits? whole).bind (signed64? negative)).map fun n => (.integer n, rest)
          else (decimal? negative whole [] power).map (·, behind)

/-! Strings and names. -/

/-- The text behind line ends that vanish, as each of them stands behind a backslash. -/
private def behindLineEnds : List Char → List Char
  | '\\' :: '\r' :: '\n' :: rest => behindLineEnds rest
  | '\\' :: c :: rest => if isLineEnd c then behindLineEnds rest else '\\' :: c :: rest
  | cs => cs

/-- The bits of two halves of a code, with the bit set that tells it from a shorter one. -/
private def joinHalves (high low : Nat) : Nat := (high <<< 10 ||| low) ||| 0x10000

private def escaped : Reader (List Char)
  | '\r' :: '\n' :: rest => some ([], rest)
  | 'b' :: rest => some ([Char.ofNat 8], rest)
  | 't' :: rest => some (['\t'], rest)
  | 'n' :: rest => some (['\n'], rest)
  | 'v' :: rest => some ([Char.ofNat 11], rest)
  | 'f' :: rest => some ([Char.ofNat 12], rest)
  | 'r' :: rest => some (['\r'], rest)
  | '0' :: rest => some ([Char.ofNat 0], rest)
  | 'x' :: rest => (coded 2 rest).map fun (c, rest) => ([c], rest)
  | 'u' :: rest =>
    (codedInHalves behindLineEnds joinHalves rest).map fun (c, rest) => ([c], rest)
  | c :: rest =>
    if c.isDigit then none else some (if isLineEnd c then [] else [c], rest)
  | [] => none

private def stringRest (quote : Char) : (bound : Nat) → Reader (List Char)
  | 0, _ => none
  | _, [] => none
  | bound + 1, c :: rest =>
    if c == quote then some ([], rest)
    else do
      let (cs, rest) ← if c == '\\' then escaped rest
        else if isLineEnd c then none
        else some ([c], rest)
      let (more, rest) ← stringRest quote bound rest
      return (cs ++ more, rest)

private def string (quote : Char) : Reader String := fun cs =>
  (stringRest quote (cs.length + 1) cs).map fun (s, rest) => (.ofList s, rest)

private def beginsName (c : Char) : Bool := c == '$' || c == '_' || Text.isLetter c

/-- Marks that join or part letters without showing continue a name, too. -/
private def continuesName (c : Char) : Bool :=
  c == '$' || c.toNat == 0x200c || c.toNat == 0x200d || Text.isWordPart c

private def nameRest : (bound : Nat) → (first : Bool) → List Char → Option (List Char × List Char)
  | 0, _, _ => none
  | bound + 1, first, cs =>
    match cs with
    | '\\' :: 'u' :: rest => do
      let (c, rest) ← codedInHalves id joinHalves rest
      let (more, rest) ← nameRest bound false rest
      return (c :: more, rest)
    | c :: rest =>
      if (if first then beginsName c else continuesName c) then
        (nameRest bound false rest).map fun (more, rest) => (c :: more, rest)
      else some ([], cs)
    | [] => some ([], [])

private def name : Reader String
  | '"' :: rest => string '"' rest
  | '\'' :: rest => string '\'' rest
  | cs =>
    match nameRest (cs.length + 1) true cs with
    | some ([], _) | none => none
    | some (cs, rest) => some (.ofList cs, rest)

mutual

private def value : (bound : Nat) → Reader Datum
  | 0, _ => none
  | bound + 1, cs =>
    match cs with
    | 'n' :: 'u' :: 'l' :: 'l' :: rest => some (.null, rest)
    | 't' :: 'r' :: 'u' :: 'e' :: rest => some (.boolean true, rest)
    | 'f' :: 'a' :: 'l' :: 's' :: 'e' :: rest => some (.boolean false, rest)
    | '"' :: rest => (string '"' rest).map fun (s, rest) => (.text s, rest)
    | '\'' :: rest => (string '\'' rest).map fun (s, rest) => (.text s, rest)
    | '[' :: rest =>
      match skipBlanks rest with
      | ']' :: rest => some (.list [], rest)
      | rest => (items bound rest).map fun (ds, rest) => (.list ds, rest)
    | '{' :: rest =>
      match skipBlanks rest with
      | '}' :: rest => some (.table [], rest)
      | rest => (fields bound [] rest).map fun (ds, rest) => (.table ds, rest)
    | cs => number cs

private def items : (bound : Nat) → Reader (List Datum)
  | 0, _ => none
  | bound + 1, cs => do
    let (d, rest) ← value bound cs
    match skipBlanks rest with
    | ',' :: rest =>
      match skipBlanks rest with
      | ']' :: rest => return ([d], rest)
      | rest =>
        let (ds, rest) ← items bound rest
        return (d :: ds, rest)
    | ']' :: rest => return ([d], rest)
    | _ => none

private def fields : (bound : Nat) → List (String × Datum) → Reader (List (String × Datum))
  | 0, _, _ => none
  | bound + 1, done, cs => do
    let (name, rest) ← name cs
    match skipBlanks rest with
    | ':' :: rest =>
      let (d, rest) ← value bound (skipBlanks rest)
      let done := Datum.putField name d done
      match skipBlanks rest with
      | ',' :: rest =>
        match skipBlanks rest with
        | '}' :: rest => return (done, rest)
        | rest => fields bound done rest
      | '}' :: rest => return (done, rest)
      | _ => none
    | _ => none

end

def parse? (text : String) : Option Datum := do
  let (d, rest) ← value (text.length + 1) (skipBlanks text.toList)
  if (skipBlanks rest).isEmpty then some d else none

end DriveRescue.Document.Json5
