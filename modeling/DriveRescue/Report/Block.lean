import DriveRescue.Procedure.Basic

/-! Reports of a run, block by block. -/
namespace DriveRescue.Report

def blockLine (e : Event) : String :=
  let r := e.report
  let p := e.progress
  s!"LBA #{r.lba} {r.status.text} in {r.nanos / 1000} mcs. Progress {p.done}/{p.total}" ++
    if r.writeFailed then " (write failed)" else ""

inductive Mode where
  /-- A line for each block. -/
  | lines
  /-- A bar where there is a terminal. -/
  | bar
  | quiet
  deriving DecidableEq

structure Display where
  mode : Mode
  /-- Sectors that were done when the display began. -/
  baseline : Nat
  last : Progress
  failedBlocks : Nat

namespace Display

def start (mode : Mode) (p : Progress) : Display := ⟨mode, p.done, p, 0⟩

def observe (d : Display) (e : Event) : Display :=
  { d with
    last := e.progress
    failedBlocks := if e.report.status.isOk then d.failedBlocks else d.failedBlocks + 1 }

/-- Sectors that were done since. Only with some is there a rate, and a time to the end. -/
def gained (d : Display) : Nat := d.last.done - d.baseline

def isMoving (d : Display) : Bool := 0 < d.gained

def output (mode : Mode) (events : List Event) : List String :=
  match mode with
  | .lines => events.map blockLine
  | _ => []

end Display

end DriveRescue.Report
