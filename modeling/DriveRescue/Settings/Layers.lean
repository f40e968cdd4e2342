import DriveRescue.Settings.Library

/-! The library of settings that the program uses. -/
namespace DriveRescue.Settings

/-- Small letters for capitals, the Kelvin sign among them: its small letter is `k`. -/
private def lowerChar (c : Char) : Char := if c == Char.ofNat 0x212a then 'k' else c.toLower

/-- The settings among environment variables, whose names may be in either case of letters. -/
def ofEnvironment (mark : String) (environment : List (String × String)) :
    List (String × String) :=
  environment.filterMap fun (name, text) =>
    let mark := (mark ++ "_").toList.map lowerChar
    let name := name.toList.map lowerChar
    if mark.isPrefixOf name then some (.ofList (name.drop mark.length), text) else none

/-- Adds a layer. A name that is no path stands for itself. -/
def addLayer (base : Datum) (layer : List (String × Datum)) : Datum :=
  layer.foldl (fun base (name, value) =>
    base.put ((KeyPath.parse? name).getD [.field name]) value) base

def texts (settings : List (String × String)) : List (String × Datum) :=
  settings.map fun (name, text) => (name, .text text)

/-- All layers in one, the explicit settings last. -/
def layered (sources : List (Layer Datum)) (explicit : List (String × String)) : Datum :=
  addLayer (sources.foldl (fun base source => addLayer base source.fields) (.table []))
    (texts explicit)

def ConfigFile.fields : ConfigFile → Except Error (List (String × Datum))
  | .absent => .ok []
  | .missing path => .error (.configuration s!"configuration file {path} not found")
  | .unreadable path => .error (.configuration s!"configuration file {path} cannot be read")
  | .found format content =>
    match format.fields? content with
    | some fields => .ok fields
    | none => .error (.configuration "the configuration file cannot be understood")

/-- Names are paths, and values are converted where that makes sense. -/
def Library.standard : Library where
  checkName name :=
    if (KeyPath.parse? name).isSome then .ok ()
    else .error (.configuration s!"{name} is no setting's name")
  file file := file.fields.map .ofList
  environment mark environment := .ofList (ofEnvironment mark environment)
  build sources explicit := .ok (.ofList (layered sources explicit).fields)
  reading := .loose

end DriveRescue.Settings
