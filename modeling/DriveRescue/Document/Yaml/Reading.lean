import DriveRescue.Datum

/-! What the nodes of a YAML document stand for while it is read. -/
namespace DriveRescue.Document.Yaml

inductive Reading where
  /-- The text does not fit its tag, or what is named is not complete. -/
  | misfit
  /-- A number that has no value, or what holds such a number. -/
  | unreadable
  | known (value : Datum)

namespace Reading

/-- What does not fit counts as nothing. What cannot be read spoils all that keeps it. -/
def datum? : Reading → Option Datum
  | misfit => some .null
  | unreadable => none
  | known d => some d

def ofOption : Option Datum → Reading
  | some d => known d
  | none => unreadable

def ofItems (rs : List Reading) : Reading := ofOption ((rs.mapM datum?).map .list)

end Reading

structure Mapping where
  /-- The key whose value comes next. -/
  key? : Option Reading
  fields : List (String × Reading)

namespace Mapping

def empty : Mapping := ⟨none, []⟩

/-- Takes the next node, keys and values in turn. What does not fit its tag is no key, so that the
node behind it becomes one. Fields are kept only if their keys are texts, and of two with one key
the later counts. -/
def push (m : Mapping) (r : Reading) : Mapping :=
  match m.key?, r with
  | none, .misfit => m
  | none, key => { m with key? := some key }
  | some (.known (.text s)), r => ⟨none, m.fields.filter (·.1 ≠ s) ++ [(s, r)]⟩
  | some _, _ => { m with key? := none }

private def field? : String × Reading → Option (String × Datum)
  | (name, r) => r.datum?.map (name, ·)

def reading (m : Mapping) : Reading := .ofOption ((m.fields.mapM field?).map .table)

end Mapping

end DriveRescue.Document.Yaml
