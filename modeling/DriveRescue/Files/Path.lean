import DriveRescue.Text.Utf8

/-! Paths as the system sees them: bytes with slashes between the names. -/
namespace DriveRescue.Path

/-- The names along a path, without the empty ones. -/
def names (path : String) : List String :=
  ((path.toList.splitOn '/').map String.ofList).filter (· ≠ "")

def isAbsolute (path : String) : Bool := path.toList.head? == some '/'

/-- The path ends with a slash, so that it can only name a directory. -/
def endsInSlash (path : String) : Bool := path.toList.getLast? == some '/'

/-- The names from the root to where a path leads from the directory `working`. -/
def resolve (working : List String) (path : String) : List String :=
  (names path).foldl (fun key name =>
    if name = "." then key else if name = ".." then key.dropLast else key ++ [name])
    (if isAbsolute path then [] else working)

/-- The path without its last name, and that name. A path that ends in `..`, and one without names,
has none. Blank names and single dots do not count. -/
def splitLast? (path : String) : Option (String × String) :=
  let names := (names path).filter (· ≠ ".")
  match names.getLast? with
  | none | some ".." => none
  | some name =>
    let start := if isAbsolute path then "/" else ""
    some (start ++ "/".intercalate names.dropLast, name)

/-- A name below a path, with a slash between them unless the path ends with one. -/
def join (base name : String) : String :=
  if base = "" || endsInSlash base then base ++ name else base ++ "/" ++ name

/-- A name's part behind its last dot, unless the dot comes first. -/
def extension? (name : String) : Option String :=
  match (name.splitOn ".").reverse with
  | [] | [_] | [_, ""] => none
  | last :: _ => some last

/-- The last name of a path. A path that ends in `..`, and one without names, has none. -/
def fileName? (path : List UInt8) : Option (List UInt8) :=
  match ((path.splitOn 0x2f).filter fun n => n ≠ [] && n ≠ [0x2e]).getLast? with
  | some n => if n = [0x2e, 0x2e] then none else some n
  | none => none

/-- Where the journal of a source lies unless the options say otherwise: beside the working
directory's other files, under the source's own name. -/
def defaultJournal (source : List UInt8) : String :=
  match fileName? source with
  | some n => .ofList (Text.decodeLossy n) ++ ".journal"
  | none => "source.journal"

end DriveRescue.Path
