import DriveRescue.Document.Ron.Scalar

/-! RON documents: lists, tuples, maps, and structures, whose names do not count. -/
namespace DriveRescue.Document.Ron

/-- The name of an entry of a map. A character and a text of that one character are two names. -/
inductive EntryName where
  | character (c : Char)
  | text (s : String)
  deriving DecidableEq

namespace EntryName

def isText : EntryName → Bool
  | text _ => true
  | character _ => false

def toString : EntryName → String
  | character c => c.toString
  | text s => s

end EntryName

structure Written where
  /-- The name that it can be. -/
  name? : Option EntryName
  /-- What it stands for. A map stands for nothing if one of its entries has no name, and so does
  all that holds such a map. -/
  datum? : Option Datum

namespace Written

def ofDatum (d : Datum) : Written := ⟨none, some d⟩

def ofName (n : EntryName) : Written := ⟨some n, some (.text n.toString)⟩

def ofItems (ws : List Written) : Written := ⟨none, (ws.mapM datum?).map .list⟩

def optional (w : Written) : Written := ⟨none, w.datum?⟩

end Written

structure Entries where
  allNamed : Bool
  named : List (EntryName × Option Datum)

namespace Entries

def empty : Entries := ⟨true, []⟩

def put (es : Entries) (key value : Written) : Entries :=
  match key.name? with
  | some n => { es with named := es.named.filter (·.1 ≠ n) ++ [(n, value.datum?)] }
  | none => { es with allNamed := false }

/-- A text as a name counts before the character that is shown like it. -/
def written (es : Entries) : Written where
  name? := none
  datum? := do
    if !es.allNamed then none
    let entries := es.named.filter (!·.1.isText) ++ es.named.filter (·.1.isText)
    let fields ← entries.mapM fun (n, d) => d.map (n.toString, ·)
    return .table (fields.foldl (fun done (n, d) => Datum.putField n d done) [])

end Entries

/-- Brackets begin a structure rather than a tuple if a name and a colon follow. -/
private def isStructure (cs : List Char) : Option Bool :=
  match name cs with
  | none => some false
  | some (_, rest) =>
    match skipBlanks rest with
    | some (c :: _) => some (c == ':')
    | _ => none

mutual

/-- A value. `bare` allows optional values without brackets. -/
private def value (bare : Bool) : (bound : Nat) → Reader Written
  | 0, _ => none
  | bound + 1, cs =>
    let word := fun (w : String) (d : Datum) => (behindWord w cs).map (Written.ofDatum d, ·)
    if let some r := word "true" (.boolean true) then r
    else if let some r := word "false" (.boolean false) then r
    else if let some rest := behindWord "Some" cs then do
      match ← skipBlanks rest with
      | '(' :: rest =>
        let (w, rest) ← value bare bound (← skipBlanks rest)
        match ← skipBlanks rest with
        | ')' :: rest => return (w.optional, rest)
        | _ => none
      | rest =>
        if !bare then none
        let (w, rest) ← value bare bound rest
        return (w.optional, rest)
    else if let some r := word "None" .null then r
    else match cs with
      | '(' :: ')' :: rest => some (.ofDatum .null, rest)
      | _ =>
        if let some (x, rest) := realWord cs then some (.ofDatum (.real x), rest)
        else match name cs with
          | some (_, rest) => do
            match ← skipBlanks rest with
            | '(' :: rest => brackets bare bound rest
            | rest => return (.ofDatum .null, rest)
          | none =>
            match cs with
            | '(' :: rest => brackets bare bound rest
            | '[' :: rest =>
              (items bare bound ']' rest).map fun (ws, rest) => (.ofItems ws, rest)
            | '{' :: rest =>
              (fields bare bound .empty rest).map fun (es, rest) => (es.written, rest)
            | '"' :: _ | 'r' :: _ => (string cs).map fun (s, rest) => (.ofName (.text s), rest)
            | '\'' :: rest =>
              (character rest).map fun (c, rest) => (.ofName (.character c), rest)
            | c :: _ =>
              if c.isDigit || c == '+' || c == '-' || c == '.' then
                (number cs).map fun (d, rest) => (.ofDatum d, rest)
              else none
            | [] => none

private def brackets (bare : Bool) : (bound : Nat) → Reader Written
  | 0, _ => none
  | bound + 1, cs => do
    let cs ← skipBlanks cs
    if ← isStructure cs then
      let (es, rest) ← members bare bound .empty cs
      return (es.written, rest)
    else
      let (ws, rest) ← items bare bound ')' cs
      return (.ofItems ws, rest)

private def items (bare : Bool) : (bound : Nat) → (stop : Char) → Reader (List Written)
  | 0, _, _ => none
  | bound + 1, stop, cs => do
    match ← skipBlanks cs with
    | [] => none
    | c :: rest =>
      if c == stop then return ([], rest)
      let (w, rest) ← value bare bound (c :: rest)
      match ← skipBlanks rest with
      | ',' :: rest =>
        let (ws, rest) ← items bare bound stop rest
        return (w :: ws, rest)
      | c :: rest => if c == stop then return ([w], rest) else none
      | [] => none

private def fields (bare : Bool) : (bound : Nat) → Entries → Reader Entries
  | 0, _, _ => none
  | bound + 1, done, cs => do
    match ← skipBlanks cs with
    | '}' :: rest => return (done, rest)
    | cs =>
      let (k, rest) ← value bare bound cs
      match ← skipBlanks rest with
      | ':' :: rest =>
        let (w, rest) ← value bare bound (← skipBlanks rest)
        match ← skipBlanks rest with
        | ',' :: rest => fields bare bound (done.put k w) rest
        | '}' :: rest => return (done.put k w, rest)
        | _ => none
      | _ => none

private def members (bare : Bool) : (bound : Nat) → Entries → Reader Entries
  | 0, _, _ => none
  | bound + 1, done, cs => do
    match ← skipBlanks cs with
    | ')' :: rest => return (done, rest)
    | cs =>
      let (k, rest) ← name cs
      match ← skipBlanks rest with
      | ':' :: rest =>
        let (w, rest) ← value bare bound (← skipBlanks rest)
        let done := done.put (.ofName (.text (.ofList k))) w
        match ← skipBlanks rest with
        | ',' :: rest => members bare bound done rest
        | ')' :: rest => return (done, rest)
        | _ => none
      | _ => none

end

/-- The text behind words in a row, with blanks between them. -/
private def behindAll : List String → List Char → Option (List Char)
  | [], cs => some cs
  | word :: words, cs =>
    if word.toList.isPrefixOf cs then (skipBlanks (cs.drop word.length)).bind (behindAll words)
    else none

/-- Ways to write that a document may ask for. Only the one for optional values shows in values that
say themselves what they are. -/
def extensions : List String := ["unwrap_newtypes", "implicit_some", "unwrap_variant_newtypes"]

private def extensionNames : (bound : Nat) → Reader (List String)
  | 0, _ => none
  | bound + 1, cs => do
    let (name, rest) ← name cs
    let name := String.ofList name
    if !extensions.contains name then none
    match ← skipBlanks rest with
    | ',' :: rest =>
      match ← skipBlanks rest with
      | ')' :: rest => return ([name], ')' :: rest)
      | rest =>
        let (names, rest) ← extensionNames bound rest
        return (name :: names, rest)
    | rest => return ([name], rest)

private def attributes : (bound : Nat) → Reader (List String)
  | 0, _ => none
  | bound + 1, cs => do
    match ← skipBlanks cs with
    | '#' :: rest =>
      let listed ← behindAll ["#", "!", "[", "enable", "("] ('#' :: rest)
      let (names, behind) ← extensionNames (listed.length + 1) listed
      let (more, rest) ← attributes bound (← behindAll [")", "]"] behind)
      return (names ++ more, rest)
    | cs => return ([], cs)

def parse? (text : String) : Option Datum := do
  let (names, cs) ← attributes (text.length + 1) text.toList
  let (w, rest) ← value (names.contains "implicit_some") (2 * text.length + 2) cs
  if (← skipBlanks rest).isEmpty then w.datum? else none

end DriveRescue.Document.Ron
