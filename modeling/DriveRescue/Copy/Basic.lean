import DriveRescue.Journal.Basic
import DriveRescue.Procedure.Basic
import DriveRescue.Settings.Options
import DriveRescue.Strategy.Policy

/-! The course of a copy: which sectors to read next, and what a read and the write of its data
change. What is read from and written to stands outside. -/
namespace DriveRescue

structure Tally where
  readOk : Nat
  failed : Nat
  writeFailures : Nat
  deriving DecidableEq

def Tally.add (t : Tally) (sectors : Nat) (failed writeFailed : Bool) : Tally where
  readOk := if failed then t.readOk else t.readOk + sectors
  failed := if failed then t.failed + sectors else t.failed
  writeFailures := if writeFailed then t.writeFailures + 1 else t.writeFailures

structure Copy where
  strategy : Strategy
  table : ZoneTable
  start : Nat
  stop : Nat
  progress : Progress
  tally : Tally
  closed : Bool
  deriving DecidableEq

structure CopySummary where
  strategy : StrategyKind
  readOk : Nat
  failed : Nat
  unresolved : Nat
  zonesLeft : Nat
  writeFailures : Nat
  progress : Progress
  deriving DecidableEq

namespace Copy

def ofTable (options : CopyOptions) (start stop : Nat) (table : ZoneTable) (tally : Tally) :
    Copy where
  strategy := .ofKind options.strategy options.skipBlocks
  table := table
  start := start
  stop := stop
  progress := ⟨stop - start - table.unread, stop - start⟩
  tally := tally
  closed := false

/-- The copy of a source of `stop` sectors as the options and the journal say: from the start, or
from where a restored journal leaves it. -/
def begin? (options : CopyOptions) (stop : Nat) (journal : Option Journal) : Except Error Copy :=
  let start := options.startLba
  if stop ≤ start then .error (.invalidOption "start_lba" (.startBeyond start stop))
  else match journal with
    | none => .ok (ofTable options start stop (.ofRange start stop) ⟨0, 0, 0⟩)
    | some journal =>
      if journal.sectors ≠ stop then .error (.journalSize stop journal.sectors)
      else if journal.restored then
        let counts := journal.counts start stop
        .ok (ofTable options start stop (journal.rebuild start stop)
          ⟨counts.readOk, counts.failed, 0⟩)
      else .ok (ofTable options start stop (.ofRange start stop) ⟨0, 0, 0⟩)

def next (c : Copy) : Option Task × Copy :=
  match c.strategy.next c.table with
  | (.read task, strategy, table) => (some task, { c with strategy, table })
  | (_, strategy, table) => (none, { c with strategy, table })

/-- Takes in how the read of a task went, and whether its data could not be written. -/
def settle (c : Copy) (task : Task) (outcome : Outcome) (writeFailed : Bool) : Step × Copy :=
  let failed := outcome.status.isFailure
  let (verdict, table) := c.strategy.settle c.table task failed
  let status := if writeFailed then .error else outcome.status
  let report := ⟨task.lba, task.sectors, status, outcome.nanos, writeFailed⟩
  (match verdict with
    | .proceed => .proceed report
    | .abort => .abort report,
    { c with
      table
      progress := c.progress.advance task.sectors
      tally := c.tally.add task.sectors failed writeFailed })

def summary (c : Copy) : CopySummary where
  strategy := c.strategy.kind
  readOk := c.tally.readOk
  failed := c.tally.failed
  unresolved := c.table.unread
  zonesLeft := c.table.size
  writeFailures := c.tally.writeFailures
  progress := c.progress

end Copy

end DriveRescue
