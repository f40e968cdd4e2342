import DriveRescue.Document.Reader

/-! JSON documents. -/
namespace DriveRescue.Document.Json

def skipBlanks (cs : List Char) : List Char :=
  cs.dropWhile fun c => c == ' ' || c == '\n' || c == '\t' || c == '\r'

/-! A number that is no whole number of 64 bits is held in two parts, a word and a power of ten, and
is rounded once more when they are put together. -/

/-- Takes decimal digits into a word as long as it holds them. The count is that of the digits left
over. -/
private def fillWord (word : Nat) : List Char → Nat × Nat
  | [] => (word, 0)
  | c :: rest =>
    let longer := 10 * word + (c.toNat - '0'.toNat)
    if longer < Text.wordBound then fillWord longer rest else (word, rest.length + 1)

/-- A word times a power of ten. There is none beyond the greatest number. -/
private def scaled? : (bound : Nat) → (x : Binary64) → (exponent : Int) → Option Binary64
  | 0, _, _ => none
  | bound + 1, x, exponent =>
    let ten := fun (e : Nat) => Binary64.ofDecimal false 1 e
    if exponent.natAbs ≤ 308 then
      match (if exponent < 0 then x.dividedBy (ten exponent.natAbs) else x.times (ten exponent.natAbs)) with
      | .finite negative m e => some (.finite negative m e)
      | _ => none
    else if x.isZero then some x
    else if 0 < exponent then none
    else scaled? bound (x.dividedBy (ten 308)) (exponent + 308)

/-- The power of ten behind an `e`, and whether it is too great to be told. -/
private def exponent : Reader (Int × Bool) := fun cs =>
  let (negative, cs) := match cs with
    | '+' :: rest => (false, rest)
    | '-' :: rest => (true, rest)
    | cs => (false, cs)
  (Text.digits? (cs.takeWhile Char.isDigit)).map fun n =>
    ((if negative then -n else n, Nat.pow 2 31 ≤ n), cs.dropWhile Char.isDigit)

private def unsigned (negative : Bool) : Reader Datum := fun cs => do
  let whole := cs.takeWhile Char.isDigit
  let rest := cs.dropWhile Char.isDigit
  if whole.isEmpty || (whole.head? == some '0' && whole.length ≠ 1) then none
  let (word, left) := fillWord 0 whole
  let (word, scale, isWhole, rest) ← match rest with
    | '.' :: rest =>
      match rest.takeWhile Char.isDigit with
      | [] => none
      | part =>
        let (word, left') := fillWord word part
        some (word, (left + left' : Int) - part.length, false, rest.drop part.length)
    | rest => some (word, (left : Int), left = 0, rest)
  let real := fun (scale : Int) (rest : List Char) =>
    (scaled? 4 (.ofNat word) scale).map fun x => (.real (if negative then x.negate else x), rest)
  match rest with
  | 'e' :: rest | 'E' :: rest =>
    let ((power, beyond), rest) ← exponent rest
    if beyond then
      if word ≠ 0 && 0 < power then none else real (if word = 0 then 0 else -1000) rest
    else real (scale + power) rest
  | rest =>
    if isWhole && !(negative && word = 0) then
      match signed64? negative word with
      | some n => some (.integer n, rest)
      | none => real 0 rest
    else real scale rest

def number : Reader Datum
  | '-' :: cs => unsigned true cs
  | cs => unsigned false cs

private def escaped : Reader Char
  | 'b' :: rest => some (Char.ofNat 8, rest)
  | 't' :: rest => some ('\t', rest)
  | 'n' :: rest => some ('\n', rest)
  | 'f' :: rest => some (Char.ofNat 12, rest)
  | 'r' :: rest => some ('\r', rest)
  | '"' :: rest => some ('"', rest)
  | '\\' :: rest => some ('\\', rest)
  | '/' :: rest => some ('/', rest)
  | 'u' :: rest => codedInHalves id (fun high low => 0x10000 + high * 0x400 + low) rest
  | _ => none

private def stringRest : (bound : Nat) → Reader (List Char)
  | 0, _ => none
  | _, [] => none
  | bound + 1, c :: rest =>
    if c == '"' then some ([], rest)
    else do
      let (c, rest) ← if c == '\\' then escaped rest
        else if c.toNat < 0x20 then none
        else some (c, rest)
      let (more, rest) ← stringRest bound rest
      return (c :: more, rest)

private def string : Reader String
  | '"' :: rest => (stringRest (rest.length + 1) rest).map fun (s, rest) => (.ofList s, rest)
  | _ => none

mutual

/-- A value, within lists and tables that may still go `depth` levels down. -/
private def value : (bound depth : Nat) → Reader Datum
  | 0, _, _ => none
  | bound + 1, depth, cs =>
    match cs with
    | 'n' :: 'u' :: 'l' :: 'l' :: rest => some (.null, rest)
    | 't' :: 'r' :: 'u' :: 'e' :: rest => some (.boolean true, rest)
    | 'f' :: 'a' :: 'l' :: 's' :: 'e' :: rest => some (.boolean false, rest)
    | '"' :: _ => (string cs).map fun (s, rest) => (.text s, rest)
    | '[' :: rest =>
      if depth ≤ 1 then none
      else match skipBlanks rest with
        | ']' :: rest => some (.list [], rest)
        | rest => (items bound (depth - 1) rest).map fun (ds, rest) => (.list ds, rest)
    | '{' :: rest =>
      if depth ≤ 1 then none
      else match skipBlanks rest with
        | '}' :: rest => some (.table [], rest)
        | rest => (fields bound (depth - 1) [] rest).map fun (ds, rest) => (.table ds, rest)
    | cs => number cs

private def items : (bound depth : Nat) → Reader (List Datum)
  | 0, _, _ => none
  | bound + 1, depth, cs => do
    let (d, rest) ← value bound depth cs
    match skipBlanks rest with
    | ',' :: rest =>
      let (ds, rest) ← items bound depth (skipBlanks rest)
      return (d :: ds, rest)
    | ']' :: rest => return ([d], rest)
    | _ => none

/-- Fields up to the closing brace. Of two with one name the later counts. -/
private def fields : (bound depth : Nat) → List (String × Datum) → Reader (List (String × Datum))
  | 0, _, _, _ => none
  | bound + 1, depth, done, cs => do
    let (name, rest) ← string cs
    match skipBlanks rest with
    | ':' :: rest =>
      let (d, rest) ← value bound depth (skipBlanks rest)
      let done := Datum.putField name d done
      match skipBlanks rest with
      | ',' :: rest => fields bound depth done (skipBlanks rest)
      | '}' :: rest => return (done, rest)
      | _ => none
    | _ => none

end

def depthBound : Nat := 128

def parse? (text : String) : Option Datum := do
  let (d, rest) ← value (text.length + 1) depthBound (skipBlanks text.toList)
  if (skipBlanks rest).isEmpty then some d else none

end DriveRescue.Document.Json
