import DriveRescue.Document.Toml.Moment
import DriveRescue.Document.Toml.Number

/-! TOML documents as they are written: values, and entries in sections under headers. -/
namespace DriveRescue.Document.Toml

/-- A value as it is written. Nothing is said yet about names that stand twice in a table. -/
inductive Item where
  | boolean (value : Bool)
  | number (value : Number)
  | text (value : String)
  /-- A date or a time. -/
  | moment (written : List Char)
  | list (items : List Item)
  /-- A table on one line, or one that keys with dots make. -/
  | table (entries : List (String × Item)) (dotted : Bool)
  deriving Inhabited

abbrev Entries := List (String × Item)

structure Section where
  header : List String
  /-- The header stands in two pairs of brackets, so that the section is a table of a list. -/
  isElement : Bool
  entries : Entries

private def skipComment (cs : List Char) : List Char :=
  match cs with
  | '#' :: rest => rest.dropWhile fun c => c == '\t' || 0x20 ≤ c.toNat
  | cs => cs

/-- Spaces, comments and line ends. The bound is the number of characters. -/
private def skipLines : (bound : Nat) → List Char → List Char
  | 0, cs => cs
  | bound + 1, cs =>
    match skipComment (skipSpaces cs) with
    | '\n' :: rest => skipLines bound rest
    | rest => rest

/-- Nothing but a comment is left on the line, which is taken off. -/
private def endLine (cs : List Char) : Option (List Char) :=
  match skipComment (skipSpaces cs) with
  | [] => some []
  | '\n' :: rest => some rest
  | _ => none

/-- Puts a value under a key. All parts of the key but the last name tables that such keys make. -/
def assign (entries : Entries) (value : Item) : (key : List String) → Option Entries
  | [] => none
  | [name] => some (entries ++ [(name, value)])
  | name :: key =>
    match entries.lookup name with
    | none => (assign [] value key).map fun inner => entries ++ [(name, .table inner true)]
    | some (.table inner true) =>
      (assign inner value key).map fun inner =>
        let (before, behind) := entries.span (·.1 ≠ name)
        before ++ (name, .table inner true) :: behind.drop 1
    | some _ => none

/-- A word is a date if it has a letter `t` in it, or a dash that is neither the sign of the number
nor that of its exponent. -/
private def isMoment (word : List Char) : Bool :=
  let marked := fun mark => (word.zip (word.drop 1)).contains (mark, '-')
  word.contains 'T' || word.contains 't' ||
    ((word.drop 1).contains '-' && !marked 'e' && !marked 'E')

private def scalar (cs : List Char) : Option (Item × List Char) :=
  let number := fun (first rest : List Char) =>
    (number first rest).map fun (n, rest) => (Item.number n, rest)
  match cs with
  | '+' :: cs =>
    match word cs with
    | ([], _) => none
    | (first, rest) => number first rest
  | _ =>
    let (first, rest) := word cs
    if first == "true".toList then some (.boolean true, rest)
    else if first == "false".toList then some (.boolean false, rest)
    else if first == "inf".toList || first == "nan".toList then number first rest
    else if !first.head?.any fun c => c == '-' || c.isDigit then none
    else if isMoment first || rest.head? == some ':' then
      (momentEnd? rest).map fun behind => (.moment (cs.take (cs.length - behind.length)), behind)
    else number first rest

mutual

private def value : (bound : Nat) → Reader Item
  | 0, _ => none
  | bound + 1, cs =>
    match cs with
    | '[' :: rest => (items bound rest).map fun (ds, rest) => (.list ds, rest)
    | '{' :: rest =>
      match skipSpaces rest with
      | '}' :: rest => some (.table [] false, rest)
      | rest => (fields bound [] rest).map fun (entries, rest) => (.table entries false, rest)
    | '"' :: _ | '\'' :: _ => (string cs).map fun (s, rest) => (.text s, rest)
    | _ => scalar cs

private def items : (bound : Nat) → Reader (List Item)
  | 0, _ => none
  | bound + 1, cs =>
    match skipLines (cs.length + 1) cs with
    | ']' :: rest => some ([], rest)
    | cs => do
      let (d, rest) ← value bound cs
      match skipLines (rest.length + 1) rest with
      | ',' :: rest =>
        let (ds, rest) ← items bound rest
        return (d :: ds, rest)
      | ']' :: rest => return ([d], rest)
      | _ => none

private def fields : (bound : Nat) → Entries → Reader Entries
  | 0, _, _ => none
  | bound + 1, entries, cs => do
    let (k, rest) ← key (skipSpaces cs)
    match rest with
    | '=' :: rest =>
      let (d, rest) ← value bound (skipSpaces rest)
      let entries ← assign entries d k
      match skipSpaces rest with
      | ',' :: rest => fields bound entries rest
      | '}' :: rest => return (entries, rest)
      | _ => none
    | _ => none

end

/-- Puts a value into the last section, which comes first. Where there is none yet, one without
header begins. -/
private def addEntry (sections : List Section) (k : List String) (d : Item) :
    Option (List Section) :=
  match sections with
  | [] => (assign [] d k).map fun entries => [⟨[], false, entries⟩]
  | s :: sections => (assign s.entries d k).map fun entries => { s with entries } :: sections

/-- One line that is not blank: a header, or an entry of the section before it. -/
private def line (sections : List Section) (cs : List Char) :
    Option (List Section × List Char) :=
  match cs with
  | '[' :: '[' :: rest => do
    let (header, rest) ← key (skipSpaces rest)
    match rest with
    | ']' :: ']' :: rest => return (⟨header, true, []⟩ :: sections, ← endLine rest)
    | _ => none
  | '[' :: rest => do
    let (header, rest) ← key (skipSpaces rest)
    match rest with
    | ']' :: rest => return (⟨header, false, []⟩ :: sections, ← endLine rest)
    | _ => none
  | cs => do
    let (k, rest) ← key cs
    match rest with
    | '=' :: rest =>
      let (d, rest) ← value (rest.length + 1) (skipSpaces rest)
      return (← addEntry sections k d, ← endLine rest)
    | _ => none

private def lines : (bound : Nat) → List Section → List Char → Option (List Section)
  | 0, _, _ => none
  | bound + 1, sections, cs =>
    match skipLines (cs.length + 1) cs with
    | [] => some sections.reverse
    | cs => (line sections cs).bind fun (sections, rest) => lines bound sections rest

/-- The sections of a document in order. Entries above the first header have a section without
header, which is not there without them. -/
def sections? (text : List Char) : Option (List Section) :=
  let cs := foldLineEnds text
  let cs := if cs.head? == some (Char.ofNat 0xfeff) then cs.drop 1 else cs
  lines (cs.length + 1) [] cs

end DriveRescue.Document.Toml
