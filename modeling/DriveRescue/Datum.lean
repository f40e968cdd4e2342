import DriveRescue.Binary64.Decimal

/-! Values as they stand in documents, settings and reports. -/
namespace DriveRescue

inductive Datum where
  | null
  | boolean (value : Bool)
  | integer (value : Int)
  | real (value : Binary64)
  | text (value : String)
  | list (items : List Datum)
  | table (fields : List (String × Datum))
  deriving Inhabited

namespace Datum

def fields : Datum → List (String × Datum)
  | table fields => fields
  | _ => []

def items : Datum → List Datum
  | list items => items
  | _ => []

def count (n : Nat) : Datum := integer n

/-- Replaces a field or adds it behind the others. -/
def putField {α : Type} (key : String) (value : α) : List (String × α) → List (String × α)
  | [] => [(key, value)]
  | (k, v) :: rest =>
    if k = key then (k, value) :: rest else (k, v) :: putField key value rest

/-- Anything but a table gives way to a table of the one field. -/
def setField (d : Datum) (key : String) (value : Datum) : Datum :=
  table (putField key value d.fields)

end Datum

end DriveRescue
