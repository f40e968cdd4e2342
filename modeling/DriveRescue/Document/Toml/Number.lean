import DriveRescue.Document.Toml.Key

/-! Numbers of TOML: a bare word, with further words behind a point or behind a plus sign in front
of an exponent. -/
namespace DriveRescue.Document.Toml

inductive Number where
  | integer (value : Int)
  | real (value : Binary64)

private def moreDigits (base : Nat) (alone : Bool) : (bar : Bool) → Reader (List Char)
  | bar, [] => if bar then none else some ([], [])
  | bar, c :: rest =>
    if isDigitIn base c then
      if alone then none
      else (moreDigits base alone false rest).map fun (ds, rest) => (c :: ds, rest)
    else if c == '_' && !bar then moreDigits base alone true rest
    else if bar then none
    else some ([], c :: rest)

/-- A row of digits, without the bars between them. A zero in front stands alone unless `zeros` is
set. -/
private def digitRow (base : Nat) (zeros : Bool) : Reader (List Char)
  | [] => none
  | c :: rest =>
    if isDigitIn base c then
      (moreDigits base (c == '0' && !zeros) false rest).map fun (ds, rest) => (c :: ds, rest)
    else none

private def minus : List Char → Bool × List Char
  | '-' :: rest => (true, rest)
  | cs => (false, cs)

/-- The power of ten behind a number's digits, which is zero if nothing is there. After a plus sign
the power is a word of its own. -/
private def exponent (behind rest : List Char) : Option (Int × List Char) :=
  let power := fun (negative : Bool) (cs : List Char) =>
    match digitRow 10 true cs with
    | some (ds, []) => (Text.digits? ds).map fun n => if negative then -(n : Int) else n
    | _ => none
  match behind with
  | [] => some (0, rest)
  | mark :: behind =>
    if mark ≠ 'e' && mark ≠ 'E' then none
    else if behind.isEmpty then
      let (digits, rest) := word (if rest.head? == some '+' then rest.drop 1 else rest)
      (power false digits).map (·, rest)
    else
      let (negative, digits) := minus behind
      (power negative digits).map (·, rest)

private def real (whole : List Char) (part : Option (List Char)) (rest : List Char) :
    Option (Number × List Char) := do
  let (negative, whole) := minus whole
  let (whole, behind) ← digitRow 10 false whole
  let (digits, behind) ← match part with
    | none => some ([], behind)
    | some part => if behind.isEmpty then digitRow 10 true part else none
  let (power, rest) ← exponent behind rest
  let n ← Text.digits? (whole ++ digits)
  match Binary64.ofDecimal negative n (power - digits.length) with
  | .finite negative m e => return (.real (.finite negative m e), rest)
  | _ => none

private def integer (base : Nat) (cs : List Char) : Option Int :=
  let (negative, cs) := if base = 10 then minus cs else (false, cs)
  match digitRow base (base ≠ 10) cs with
  | some (ds, []) => (natIn? base ds).bind (signed64? negative)
  | _ => none

/-- The number that begins with a bare word. -/
def number (first rest : List Char) : Option (Number × List Char) :=
  let whole := fun (n : Option Int) => n.map fun n => (Number.integer n, rest)
  match first, rest with
  | '0' :: 'x' :: digits, _ => whole (integer 16 digits)
  | '0' :: 'o' :: digits, _ => whole (integer 8 digits)
  | '0' :: 'b' :: digits, _ => whole (integer 2 digits)
  | _, _ =>
    if first.contains 'e' || first.contains 'E' then real first none rest
    else match rest with
      | '.' :: behind => real first (some (word behind).1) (word behind).2
      | _ =>
        if first == "inf".toList then some (.real (.infinite false), rest)
        else if first == "-inf".toList then some (.real (.infinite true), rest)
        else if first == "nan".toList || first == "-nan".toList then some (.real .nan, rest)
        else whole (integer 10 first)

end DriveRescue.Document.Toml
