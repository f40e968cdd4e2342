import DriveRescue.Document.Reader
import DriveRescue.Text.Blank

/-! INI documents: keys and values on lines of their own, in sections. All values are texts. -/
namespace DriveRescue.Document.Ini

private def isLineEnd (c : Char) : Bool := c == '\n' || c == '\r'

private def code? (cs : List Char) : Option Char :=
  let digits := match cs with
    | '+' :: rest => rest
    | cs => cs
  (natIn? 16 digits).bind fun n => if n.isValidChar then some (Char.ofNat n) else none

/-- What stands behind a backslash. The end of a line vanishes. -/
private def escaped : Reader (List Char)
  | '0' :: rest => some ([Char.ofNat 0], rest)
  | 'a' :: rest => some ([Char.ofNat 7], rest)
  | 'b' :: rest => some ([Char.ofNat 8], rest)
  | 't' :: rest => some (['\t'], rest)
  | 'r' :: rest => some (['\r'], rest)
  | 'n' :: rest => some (['\n'], rest)
  | '\n' :: rest => some ([], rest)
  | 'x' :: rest =>
    if rest.length < 4 then none else (code? (rest.take 4)).map fun c => ([c], rest.drop 4)
  | c :: rest => some ([c], rest)
  | [] => none

/-- The text up to a character of a kind, or up to the end if it may be missing. -/
private def upTo (stops : Char → Bool) (orEnd : Bool) : (bound : Nat) → Reader (List Char)
  | 0, _ => none
  | _, [] => if orEnd then some ([], []) else none
  | bound + 1, c :: rest =>
    if stops c then some ([], c :: rest)
    else do
      let (cs, rest) ← if c == '\\' then escaped rest else some ([c], rest)
      let (more, rest) ← upTo stops orEnd bound rest
      return (cs ++ more, rest)

private def through (stop : Char) : Reader (List Char) := fun cs =>
  (upTo (· == stop) false (cs.length + 1) cs).map fun (s, rest) => (s, rest.drop 1)

/-- The rest of a line. A quote that begins it closes the part in front, and quotes behind that part
are plain text. -/
private def value (cs : List Char) : Option (List Char × List Char) :=
  let line := fun (cs : List Char) => upTo isLineEnd true (cs.length + 1) cs
  let quoted := fun (quote : Char) (rest : List Char) => do
    let (part, rest) ← through quote rest
    let (more, rest) ← line rest
    return (part ++ more, rest)
  match cs with
  | '"' :: rest => quoted '"' rest
  | '\'' :: rest => quoted '\'' rest
  | cs => line cs

private def trimmed (cs : List Char) : String := Text.trim (.ofList cs)

structure Draft where
  general : List (String × Datum)
  /-- The sections with their entries, last one first. -/
  sections : List (String × List (String × Datum))

/-- Puts an entry into the last section. Of two with one name the later counts. -/
private def Draft.put (d : Draft) (name : String) (text : Datum) : Draft :=
  match d.sections with
  | [] => { d with general := Datum.putField name text d.general }
  | (header, entries) :: rest =>
    { d with sections := (header, Datum.putField name text entries) :: rest }

/-- Of two sections with one name, or a section and an entry, the later counts. -/
private def Draft.fields (d : Draft) : List (String × Datum) :=
  d.sections.reverse.foldl (fun fields (header, entries) =>
    Datum.putField header (.table entries) fields) d.general

/-- Reads on at a character that is no blank. `start` tells whether a line begins there, and `key`
is the last key read, if its value is still to come. -/
private def entries : (bound : Nat) → Draft → (start : Bool) → (key : String) → List Char →
    Option Draft
  | 0, _, _, _, _ => none
  | bound + 1, d, start, key, cs =>
    let blanks := cs.takeWhile Text.isBlank
    let start := if blanks.isEmpty then start else blanks.getLast? == some '\n'
    match cs.drop blanks.length with
    | [] => some d
    | '[' :: rest => do
      let (header, rest) ← through ']' rest
      entries bound { d with sections := (trimmed header, []) :: d.sections } false key rest
    | c :: rest =>
      if c == ';' || c == '#' then
        if start then entries bound d true key ((rest.dropWhile (· ≠ '\n')).drop 1) else none
      else if c == '=' || c == ':' then
        if key = "" then none
        else do
          let behind := rest.dropWhile fun c => Text.isBlank c && !isLineEnd c
          let (text, rest) ← value behind
          entries bound (d.put key (.text (trimmed text))) false "" rest
      else do
        let (key, rest) ← upTo (fun c => c == '=' || c == ':') false (rest.length + 2) (c :: rest)
        entries bound d false (trimmed key) rest

def parse? (text : String) : Option Datum :=
  (entries (text.length + 1) ⟨[], []⟩ true "" text.toList).map (.table ·.fields)

end DriveRescue.Document.Ini
