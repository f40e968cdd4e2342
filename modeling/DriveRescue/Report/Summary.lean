import DriveRescue.Report.Duration
import DriveRescue.Report.Json
import DriveRescue.Report.Record
import DriveRescue.Report.Size

/-! What is put out at the end of a run. -/
namespace DriveRescue.Report

structure Timing where
  nanos : Nat
  finishedAt : String
  deriving DecidableEq

namespace Timing

def secs (t : Timing) : Nat := t.nanos / 1000000000

end Timing

def copyText (outcome : RunOutcome) (s : CopySummary) (t : Timing) : List String :=
  ["", s!"Copy {outcome.name} ({s.strategy.name})",
    s!"  read ok:     {s.readOk} sectors ({size (.ofNat (s.readOk * sectorBytes))})",
    s!"  failed:      {s.failed} sectors",
    s!"  unread:      {s.unresolved} sectors in {s.zonesLeft} zones"] ++
    (if s.writeFailures = 0 then [] else [s!"  write errors: {s.writeFailures}"]) ++
    [s!"  elapsed:     {spelled t.secs}"]

def copyDatum (device destination : String) (outcome : RunOutcome) (s : CopySummary) (t : Timing) :
    Datum :=
  .table [("procedure", .text ProcedureKind.copy.name), ("device", .text device),
    ("destination", .text destination), ("outcome", .text outcome.name),
    ("finished_at", .text t.finishedAt),
    ("summary", .table (("elapsed_secs", .real (.quotient t.nanos 1000000000)) :: s.fields))]

def surfaceText (kind : ProcedureKind) (outcome : RunOutcome) (p : Progress) (failedBlocks : Nat)
    (t : Timing) : List String :=
  ["", s!"{kind.longName} {outcome.name}",
    s!"  sectors:       {p.done}/{p.total}",
    s!"  failed blocks: {failedBlocks}",
    s!"  elapsed:       {clock t.secs}"]

def surfaceDatum (kind : ProcedureKind) (device : String) (outcome : RunOutcome) (p : Progress)
    (failedBlocks : Nat) (t : Timing) : Datum :=
  .table [("procedure", .text kind.name), ("device", .text device), ("outcome", .text outcome.name),
    ("progress", p.toDatum), ("failed_blocks", .count failedBlocks),
    ("finished_at", .text t.finishedAt)]

def procedureLines (config : String) : List String :=
  ProcedureKind.all.map (fun k =>
    k.name.pushn ' ' (11 - k.name.length) ++ k.longName ++
      if k.isDestructive then " (destructive)" else "") ++
    ["", s!"Copy defaults are read from {config}"]

def proceduresDatum : Datum := .list (ProcedureKind.all.map ProcedureKind.toDatum)

/-- The lines of a text below a first one that begins with `mark`, under which they are
indented. -/
def indented (mark text : String) : List String :=
  match text.splitOn "\n" with
  | [] => []
  | first :: rest => (mark ++ first) :: rest.map ("".pushn ' ' mark.length ++ ·)

/-- An error and what led to it, outermost first. Causes are numbered if there are several. -/
def failureLines : List String → List String
  | [] => []
  | top :: causes =>
    let mark := fun (i : Nat) => if causes.length = 1 then "    " else s!"    {i}: "
    s!"Error: {top}".splitOn "\n" ++ (if causes.isEmpty then [] else ["", "Caused by:"]) ++
      (causes.zipIdx.map fun (cause, i) => indented (mark i) cause).flatten

end DriveRescue.Report
