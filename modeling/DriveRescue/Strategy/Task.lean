import DriveRescue.ZoneTable

/-! Read tasks: which sectors the table offers next, and what a finished read does to it. -/
namespace DriveRescue

structure Task where
  lba : Nat
  sectors : Nat
  direction : Direction
  deriving DecidableEq

inductive Next where
  | read (task : Task)
  /-- No zone is left. -/
  | done
  /-- Zones are left but the strategy reads none of them. -/
  | unresolved
  deriving DecidableEq

inductive Verdict where
  | proceed | abort
  deriving DecidableEq

/-- The first block, or the last one, of a zone. -/
def Zone.task (z : Zone) (d : Direction) : Task :=
  let sectors := min z.len blockSectors
  match d with
  | .forward => ⟨z.start, sectors, d⟩
  | .backward => ⟨z.stop - sectors, sectors, d⟩

namespace ZoneTable

def currentTask? (t : ZoneTable) : Option Task :=
  t.cursor.bind fun c => t.zones[c.index]?.map (·.task c.direction)

/-- The zone a task belongs to: the selected one if it holds the task's first sector, else the
first that does. -/
def holder? (t : ZoneTable) (task : Task) : Option Nat :=
  match t.cursor with
  | some c =>
    if t.zones[c.index]?.any (·.contains task.lba) then some c.index
    else t.zones.findIdx? (·.contains task.lba)
  | none => t.zones.findIdx? (·.contains task.lba)

/-- Takes a task's span off the border it was read from. -/
def consume (t : ZoneTable) (task : Task) (failed : Bool) : ZoneTable :=
  match t.holder? task with
  | some i => (t.shrink i task.sectors task.direction failed).2
  | none => t

end ZoneTable

end DriveRescue
