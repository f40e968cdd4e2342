import DriveRescue.Datum
import DriveRescue.Text.Quoted

/-! Data as JSON text: a line for each value, two blanks deeper at each level, fields in the order
of their names. -/
namespace DriveRescue.Report

private def separated : List (List String) → List String
  | [] => []
  | [part] => part
  | part :: rest => part.dropLast ++ [part.getLastD "" ++ ","] ++ separated rest

private def bracketed (opening closing : String) (parts : List (List String)) : List String :=
  if parts.isEmpty then [opening ++ closing]
  else opening :: (separated parts).map ("  " ++ ·) ++ [closing]

private def labelled (name : String) : List String → List String
  | [] => []
  | line :: lines => (Text.quoted Text.jsonEscape name ++ ": " ++ line) :: lines

mutual

def jsonLines : Datum → List String
  | .null => ["null"]
  | .boolean value => [if value then "true" else "false"]
  | .integer value => [toString value]
  | .real (.finite negative m e) =>
    let text := (Binary64.finite negative m e).text
    [if text.toList.contains '.' then text else text ++ ".0"]
  | .real _ => ["null"]
  | .text value => [Text.quoted Text.jsonEscape value]
  | .list items => bracketed "[" "]" (jsonItems items)
  | .table fields =>
    let sorted := (jsonFields fields).mergeSort fun a b => a.1 ≤ b.1
    bracketed "\x7b" "\x7d" (sorted.map fun (name, lines) => labelled name lines)

def jsonItems : List Datum → List (List String)
  | [] => []
  | item :: rest => jsonLines item :: jsonItems rest

def jsonFields : List (String × Datum) → List (String × List String)
  | [] => []
  | (name, value) :: rest => (name, jsonLines value) :: jsonFields rest

end

end DriveRescue.Report
