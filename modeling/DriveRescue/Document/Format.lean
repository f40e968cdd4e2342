import DriveRescue.Document.Ini
import DriveRescue.Document.Json
import DriveRescue.Document.Json5
import DriveRescue.Document.Ron.Value
import DriveRescue.Document.Toml.Assembly
import DriveRescue.Document.Yaml.Node

/-! The formats of documents, told apart by how the names of their files end. -/
namespace DriveRescue.Document

inductive Format where
  | toml | json | yaml | ini | ron | json5
  deriving DecidableEq

namespace Format

def endings : List (String × Format) :=
  [("toml", toml), ("json", json), ("yaml", yaml), ("yml", yaml), ("ini", ini), ("ron", ron),
    ("json5", json5)]

def ofEnding? (ending : String) : Option Format := endings.lookup ending

/-- The fields of a document, none if the text is no document. One that is no table has no fields,
but where JSON5 is asked for it has to be a table. -/
def fields? (format : Format) (text : String) : Option (List (String × Datum)) :=
  match format with
  | toml => Toml.parse? text
  | json => (Json.parse? text).map Datum.fields
  | yaml => (Yaml.parse? text).map Datum.fields
  | ini => (Ini.parse? text).map Datum.fields
  | ron => (Ron.parse? text).map Datum.fields
  | json5 =>
    match Json5.parse? text with
    | some (.table fields) => some fields
    | _ => none

end Format

end DriveRescue.Document
