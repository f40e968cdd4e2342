import DriveRescue.Document.Format
import DriveRescue.Files.Tree

/-! The configuration file: where it lies by default, and how it is found by its path. -/
namespace DriveRescue.Settings

/-- The usual configuration file of a user. `accountHome` is the home directory for those whose
environment names none. -/
def usualPath (environment : List (String × String)) (accountHome : String) : String :=
  let home := match environment.lookup "HOME" with
    | none | some "" => accountHome
    | some path => path
  let directory := match environment.lookup "XDG_CONFIG_HOME" with
    | some path => if Path.isAbsolute path then path else Path.join home ".config"
    | none => Path.join home ".config"
  Path.join (Path.join directory "salvage") "salvage.toml"

/-- What a path to a configuration file leads to. -/
inductive ConfigFile where
  /-- None is there, and none has to be. -/
  | absent
  | missing (path : String)
  | unreadable (path : String)
  | found (format : Document.Format) (content : String)

namespace ConfigFile

/-- Paths of files that count for a path without such a file: to the name one of the endings is
added. -/
def alternatives (path : String) : List (String × Document.Format) :=
  match Path.splitLast? path with
  | none => []
  | some (parent, name) =>
    Document.Format.endings.map fun (ending, format) =>
      (Path.join parent (name ++ "." ++ ending), format)

private def read (files : FileTree) (path : String) (format : Document.Format) : ConfigFile :=
  match (files.contents? path).bind fun bytes => String.fromUTF8? ⟨bytes⟩ with
  | some content => .found format content
  | none => .unreadable path

/-- Finds the file of a path. The ending of its name has to tell the format. -/
def find (files : FileTree) (path : String) : ConfigFile :=
  if files.isFile path then
    match (Path.splitLast? path).bind fun (_, name) =>
        (Path.extension? name).bind Document.Format.ofEnding? with
    | some format => read files path format
    | none => .unreadable path
  else match (alternatives path).find? fun (path, _) => files.isFile path with
    | some (path, format) => read files path format
    | none => .missing path

def findUsual (files : FileTree) (path : String) : ConfigFile :=
  match find files path with
  | .found format content => .found format content
  | _ => .absent

end ConfigFile

end DriveRescue.Settings
