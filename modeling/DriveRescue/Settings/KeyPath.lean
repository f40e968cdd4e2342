import DriveRescue.Settings.Datum

/-! Paths into layered settings, such as `a.b[0]`. -/
namespace DriveRescue

inductive KeyStep where
  | field (name : String)
  /-- A place in a list; below zero it counts from the end. -/
  | index (place : Int)
  deriving DecidableEq

abbrev KeyPath := List KeyStep

namespace KeyPath

def isNameChar (c : Char) : Bool := c.isAlphanum || c == ' ' || c == '_' || c == '-'

private def name? (cs : List Char) : Option (String × List Char) :=
  match cs.takeWhile isNameChar with
  | [] => none
  | name => some (.ofList name, cs.dropWhile isNameChar)

private def isSpace (c : Char) : Bool := c == ' ' || c == '\t'

private def index? (cs : List Char) : Option (Int × List Char) :=
  let cs := cs.dropWhile isSpace
  let (negative, cs) := match cs with
    | '-' :: rest => (true, rest)
    | cs => (false, cs)
  match Text.digits? (cs.takeWhile Char.isDigit), (cs.dropWhile Char.isDigit).dropWhile isSpace with
  | some n, ']' :: rest =>
    if n < Text.signedBound || negative && n == Text.signedBound then
      some (if negative then -n else n, rest)
    else none
  | _, _ => none

private def steps? : (bound : Nat) → List Char → Option KeyPath
  | _, [] => some []
  | 0, _ => none
  | bound + 1, '.' :: rest => do
    let (name, rest) ← name? rest
    return .field name :: (← steps? bound rest)
  | bound + 1, '[' :: rest => do
    let (place, rest) ← index? rest
    return .index place :: (← steps? bound rest)
  | _, _ => none

def parse? (s : String) : Option KeyPath := do
  let (name, rest) ← name? s.toList
  return .field name :: (← steps? rest.length rest)

/-- Whether a name is a path of one step. -/
def isPlain (name : String) : Bool := !name.toList.isEmpty && name.toList.all isNameChar

theorem parse?_of_isPlain {name : String} (h : isPlain name) :
    parse? name = some [.field name] := by
  rw [isPlain, Bool.and_eq_true, List.all_eq_true, Bool.not_eq_true', List.isEmpty_eq_false_iff]
    at h
  obtain ⟨hne, hall⟩ := h
  have htake : name.toList.takeWhile isNameChar = name.toList := by
    rw [← List.append_nil name.toList, List.takeWhile_append_of_pos hall, List.takeWhile_nil]
  have hdrop : name.toList.dropWhile isNameChar = [] := by
    rw [← List.append_nil name.toList, List.dropWhile_append_of_pos hall, List.dropWhile_nil]
  have hname : name? name.toList = some (name, []) := by
    rw [name?, htake, hdrop]
    split
    · next hnil => exact absurd hnil hne
    · rw [String.ofList_toList]
  rw [parse?, hname]
  rfl

end KeyPath

namespace Datum

mutual

/-- A table is merged into what is there, field by field; anything else replaces it. -/
def merge (old : Datum) : Datum → Datum
  | table fields => mergeFields old fields
  | new => new

def mergeFields (old : Datum) : List (String × Datum) → Datum
  | [] => old
  | (key, value) :: rest =>
    mergeFields (old.setField key (merge ((old.fields.lookup key).getD (table [])) value)) rest

end

/-- A value in a place, over what may be there. -/
def laidOver (value : Datum) : (old : Option Datum) → Datum
  | some old => merge old value
  | none => value

def putName (d : Datum) (name : String) (value : Datum) : Datum :=
  d.setField name (value.laidOver (d.fields.lookup name))

/-- Position in a list of a place that may count from its end. -/
private def position (place : Int) (length : Nat) : Nat :=
  match place with
  | .ofNat n => n
  | .negSucc n => length - (n + 1)

/-- Puts a value at a path. What stands in the way of the path gives way to a table or a list. -/
def put (d : Datum) : KeyPath → Datum → Datum
  | [], value => value
  | [.field name], value => d.putName name value
  | .field name :: path, value =>
    d.setField name (put ((d.fields.lookup name).getD null) path value)
  | .index place :: path, value =>
    let i := position place d.items.length
    let items := d.items ++ List.replicate (i + 1 - d.items.length) null
    list (items.set i (put (items.getD i null) path value))

end Datum

end DriveRescue
