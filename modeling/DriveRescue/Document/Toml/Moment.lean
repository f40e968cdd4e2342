import DriveRescue.Document.Toml.Key

/-! Dates and times of TOML. They stand for their text: with a capital letter between date and
time, without needless zeros behind a second, and with the offset as a number of hours. -/
namespace DriveRescue.Document.Toml

private def count (n : Nat) : Reader Nat := fun cs =>
  if cs.length < n then none else (Text.digits? (cs.take n)).map (·, cs.drop n)

private def mark (c : Char) : List Char → Option (List Char)
  | d :: rest => if d == c then some rest else none
  | [] => none

private def padded (width n : Nat) : String :=
  let s := toString n
  "".pushn '0' (width - s.length) ++ s

private def date : Reader String := fun cs => do
  let (year, cs) ← count 4 cs
  let (month, cs) ← count 2 (← mark '-' cs)
  let (day, cs) ← count 2 (← mark '-' cs)
  if month < 1 || 12 < month || day < 1 || 31 < day then none
  return (s!"{padded 4 year}-{padded 2 month}-{padded 2 day}", cs)

/-- The digits behind a second, of which nine count. -/
private def fraction : Reader String
  | '.' :: cs =>
    match cs.takeWhile Char.isDigit with
    | [] => none
    | digits =>
      let kept := ((digits.take 9).reverse.dropWhile (· == '0')).reverse
      some (if kept.isEmpty then "" else "." ++ .ofList kept, cs.drop digits.length)
  | cs => some ("", cs)

private def time : Reader String := fun cs => do
  let (hour, cs) ← count 2 cs
  let (minute, cs) ← count 2 (← mark ':' cs)
  let (second, cs) ← count 2 (← mark ':' cs)
  let (part, cs) ← fraction cs
  if 24 < hour || 59 < minute || 59 < second then none
  return (s!"{padded 2 hour}:{padded 2 minute}:{padded 2 second}" ++ part, cs)

/-- The offset of a time. It takes its sign from its hours, so that one of less than an hour is
shown with a plus. -/
private def offset : List Char → Option String
  | [] => some ""
  | ['Z'] | ['z'] => some "Z"
  | sign :: cs => do
    if sign ≠ '+' && sign ≠ '-' then none
    let (hours, cs) ← count 2 cs
    let (minutes, cs) ← count 2 (← mark ':' cs)
    if !cs.isEmpty then none
    let sign := if sign == '-' && hours ≠ 0 then "-" else "+"
    return s!"{sign}{padded 2 hours}:{padded 2 minutes}"

/-- The text of a date, a time, or both with a letter or a blank between them. An offset stands only
behind both. -/
def moment? (cs : List Char) : Option String :=
  if cs[2]? == some ':' then
    match time cs with
    | some (time, []) => some time
    | _ => none
  else do
    let (date, cs) ← date cs
    match cs with
    | [] => return date
    | mark :: cs =>
      if mark ≠ 'T' && mark ≠ 't' && mark ≠ ' ' then none
      let (time, cs) ← time cs
      return date ++ "T" ++ time ++ (← offset cs)

private def someWord (cs : List Char) : Option (List Char) :=
  match word cs with
  | ([], _) => none
  | (_, rest) => some rest

private def wordBehind (c : Char) (cs : List Char) : Option (List Char) :=
  match mark c cs with
  | some rest => someWord rest
  | none => some cs

private def clock (cs : List Char) : Option (List Char) := do
  let cs ← someWord cs
  let cs ← someWord (← mark ':' cs)
  wordBehind ':' (← wordBehind '+' (← wordBehind '.' cs))

/-- Where the text of a date or a time ends that begins with a bare word. A single blank may stand
between a date and its time. -/
def momentEnd? (behind : List Char) : Option (List Char) :=
  let time := fun (cs : List Char) =>
    match mark ':' cs with
    | some rest => clock rest
    | none => some cs
  match behind with
  | ' ' :: rest => ((someWord rest).map time).getD (some behind)
  | cs => time cs

end DriveRescue.Document.Toml
