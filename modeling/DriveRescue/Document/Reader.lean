import DriveRescue.Datum
import DriveRescue.Text.Number

/-! Reading documents: a reader takes what it reads off the head of a text. -/
namespace DriveRescue.Document

abbrev Reader (α : Type) := List Char → Option (α × List Char)

def digitIn? (base : Nat) (c : Char) : Option Nat :=
  let n := c.toLower.toNat
  let value := if c.isDigit then n - '0'.toNat else n - 'a'.toNat + 10
  if (c.isDigit || 'a' ≤ c.toLower && c.toLower ≤ 'f') && value < base then some value else none

def isDigitIn (base : Nat) (c : Char) : Bool := (digitIn? base c).isSome

def natIn? (base : Nat) (cs : List Char) : Option Nat :=
  if cs.isEmpty then none
  else cs.foldlM (fun n c => (digitIn? base c).map fun v => base * n + v) 0

/-- The character with a code of `n` hexadecimal digits. -/
def coded (n : Nat) : Reader Char := fun cs =>
  if cs.length < n then none
  else (natIn? 16 (cs.take n)).bind fun v =>
    if v.isValidChar then some (Char.ofNat v, cs.drop n) else none

def fourDigits : Reader Nat := fun cs =>
  if cs.length < 4 then none else (natIn? 16 (cs.take 4)).map (·, cs.drop 4)

/-- The numbers that stand for the first and for the second half of a longer code. -/
def isHighHalf (n : Nat) : Bool := 0xd800 ≤ n && n < 0xdc00

def isLowHalf (n : Nat) : Bool := 0xdc00 ≤ n && n < 0xe000

/-- The character whose code of four hexadecimal digits stands behind `\u`. A longer code stands in
two halves, each behind such a mark. `between` goes over what may lie between them, and `join` puts
them together. -/
def codedInHalves (between : List Char → List Char) (join : Nat → Nat → Nat) : Reader Char :=
  fun cs => do
    let (high, rest) ← fourDigits cs
    if isHighHalf high then
      match between rest with
      | '\\' :: 'u' :: rest =>
        let (low, rest) ← fourDigits rest
        if !isLowHalf low then none
        else some (Char.ofNat (join (high - 0xd800) (low - 0xdc00)), rest)
      | _ => none
    else if isLowHalf high then none
    else some (Char.ofNat high, rest)

/-- A whole number, if it has no more than 64 bits with its sign. -/
def signed64? (negative : Bool) (n : Nat) : Option Int :=
  if n < Text.signedBound then some (if negative then -n else n)
  else if negative && n == Text.signedBound then some (-n)
  else none

/-- The value of decimal text: digits with at most one point among them, an exponent behind them, a
sign in front; or a word for infinity or for what is no number. -/
def real? (cs : List Char) : Option Binary64 :=
  let sign := fun (cs : List Char) => match cs with
    | '-' :: rest => (true, rest)
    | '+' :: rest => (false, rest)
    | cs => (false, cs)
  let (negative, cs) := sign cs
  let small := cs.map Char.toLower
  if small == "inf".toList || small == "infinity".toList then some (.infinite negative)
  else if small == "nan".toList then some .nan
  else do
    let whole := cs.takeWhile Char.isDigit
    let (part, rest) := match cs.dropWhile Char.isDigit with
      | '.' :: rest => (rest.takeWhile Char.isDigit, rest.dropWhile Char.isDigit)
      | rest => ([], rest)
    let power : Int ← match rest with
      | [] => some 0
      | mark :: power =>
        if mark ≠ 'e' && mark ≠ 'E' then none
        else
          let (negative, power) := sign power
          (Text.digits? power).map fun n => if negative then -(n : Int) else n
    let n ← Text.digits? (whole ++ part)
    return .ofDecimal negative n (power - part.length)

/-- Line ends of two characters become line ends of one. -/
def foldLineEnds : List Char → List Char
  | '\r' :: '\n' :: rest => '\n' :: foldLineEnds rest
  | c :: rest => c :: foldLineEnds rest
  | [] => []

end DriveRescue.Document
