import DriveRescue.Datum
import DriveRescue.Settings.Options

/-! Options as data, read from a document or a layer of settings. -/
namespace DriveRescue

inductive DatumFault where
  /-- A value of the wrong type, or one too many. -/
  | mismatch
  | invalid (e : Error)
  deriving DecidableEq

structure Reading where
  text : Datum → Option String
  path : Datum → Option String
  number : Datum → Option Nat

namespace Reading

def exact : Reading where
  text
    | .text s => some s
    | _ => none
  path
    | .text s => some s
    | _ => none
  number
    | .integer (.ofNat n) => if n < Text.wordBound then some n else none
    | _ => none

/-- A switch or a number without blanks, in text. -/
private def looseNumber (s : String) : Option Nat :=
  match Text.lower s with
  | "true" | "on" | "yes" => some 1
  | "false" | "off" | "no" => some 0
  | _ => Text.word? s

private def looseText : Datum → Option String
  | .text s => some s
  | .boolean b => some (if b then "true" else "false")
  | .integer n => some (toString n)
  | .real x => some x.text
  | _ => none

/-- Values are converted where that makes sense. -/
def loose : Reading where
  text := looseText
  path := looseText
  number
    | .integer (.ofNat n) => if n < Text.wordBound then some n else none
    | .text s => looseNumber s
    | .boolean b => some (if b then 1 else 0)
    | .real x => some x.toWord
    | _ => none

end Reading

private def expect {α : Type} (o : Option α) : Except DatumFault α :=
  match o with
  | some a => .ok a
  | none => .error .mismatch

private def refuse {α : Type} : Except Error α → Except DatumFault α
  | .ok a => .ok a
  | .error e => .error (.invalid e)

@[simp] theorem expect_some {α : Type} (a : α) : expect (some a) = .ok a := rfl

theorem refuse_eq_mapError {α : Type} (x : Except Error α) : refuse x = x.mapError .invalid := by
  cases x <;> rfl

/-- Takes the fields of a table in turn. One that is known may not stand again. -/
def takeFields {σ : Type} (known : List String) (take : σ → String × Datum → Except DatumFault σ)
    (seen : List String) (s : σ) : List (String × Datum) → Except DatumFault σ
  | [] => .ok s
  | p :: rest =>
    if p.1 ∈ seen then .error .mismatch
    else do
      takeFields known take (if p.1 ∈ known then p.1 :: seen else seen) (← take s p) rest

namespace CopyOptions

def assignDatum (r : Reading) (o : CopyOptions) (field : CopyField) (d : Datum) :
    Except DatumFault CopyOptions :=
  match field with
  | .api | .strategy => do refuse (o.assign field (← expect (r.text d)))
  | .destination => do refuse (o.assign field (← expect (r.path d)))
  | .useJournal =>
    match d with
    | .boolean useJournal => .ok { o with useJournal }
    | .text s => refuse (o.assign field s)
    | _ => .error .mismatch
  | .skipBlocks => (expect (r.number d)).map fun skipBlocks => { o with skipBlocks }
  | .startLba => (expect (r.number d)).map fun startLba => { o with startLba }
  | .journalFile =>
    match d with
    | .null => .ok { o with journalFile := none }
    | d => do refuse (o.assign field (← expect (r.path d)))

/-- Takes a field of a table. Names of no option are passed over. -/
def takeDatum (r : Reading) (o : CopyOptions) (p : String × Datum) :
    Except DatumFault CopyOptions :=
  match CopyField.ofName? p.1 with
  | some field => o.assignDatum r field p.2
  | none => .ok o

/-- Reads options from a table by name, or from a list in the order of the record. What is missing
keeps its default. -/
def ofDatum (r : Reading) : Datum → Except DatumFault CopyOptions
  | .table fields => takeFields CopyField.names (takeDatum r) [] default fields
  | .list items => do
    let o ← (CopyField.all.zip items).foldlM (fun o (field, d) => o.assignDatum r field d) default
    if CopyField.all.length < items.length then throw .mismatch
    return o
  | _ => .error .mismatch

end CopyOptions

namespace ReadTestOptions

private def assignDatum (r : Reading) (o : ReadTestOptions) (name : String) (d : Datum) :
    Except DatumFault ReadTestOptions :=
  match name with
  | "api" => do refuse (o.set name (← expect (r.text d)))
  | "start_lba" => (expect (r.number d)).map fun startLba => { o with startLba }
  | _ => .ok o

def ofDatum (r : Reading) : Datum → Except DatumFault ReadTestOptions
  | .table fields =>
    takeFields ["api", "start_lba"] (fun o (name, d) => assignDatum r o name d) [] default fields
  | .list items => do
    let o ← (["api", "start_lba"].zip items).foldlM
      (fun o (name, d) => assignDatum r o name d) default
    if 2 < items.length then throw .mismatch
    return o
  | _ => .error .mismatch

end ReadTestOptions

end DriveRescue
