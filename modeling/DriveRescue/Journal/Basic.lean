import DriveRescue.Bytes
import DriveRescue.Journal.SectorStatus
import DriveRescue.ZoneTable

/-! The sector journal: one byte a sector, kept for as long as a source is worked on, from which an
interrupted copy finds its unread zones again. -/
namespace DriveRescue

structure JournalFile where
  path : String
  key : List String
  deriving DecidableEq

structure Journal where
  bytes : Bytes
  /-- Without a file the journal ends with the process. -/
  file : Option JournalFile
  /-- The bytes were left by an earlier run. -/
  restored : Bool

structure JournalCounts where
  unread : Nat
  readOk : Nat
  failed : Nat
  deriving DecidableEq

/-- The runs of zero bytes among bytes that begin at `lba`. `opened` is where a run that is still
going on began. -/
def unreadRuns : (opened : Option Nat) → (lba : Nat) → List UInt8 → List (Nat × Nat)
  | none, _, [] => []
  | some start, lba, [] => [(start, lba)]
  | none, lba, b :: rest => unreadRuns (if b = 0 then some lba else none) (lba + 1) rest
  | some start, lba, b :: rest =>
    if b = 0 then unreadRuns (some start) (lba + 1) rest
    else (start, lba) :: unreadRuns none (lba + 1) rest

namespace JournalCounts

/-- Counts one more byte. A byte that stands for no status counts as unread. -/
def add (c : JournalCounts) (b : UInt8) : JournalCounts :=
  match SectorStatus.ofByte? b with
  | some .readOk => { c with readOk := c.readOk + 1 }
  | some .blockReadError | some .sectorReadError => { c with failed := c.failed + 1 }
  | _ => { c with unread := c.unread + 1 }

end JournalCounts

namespace Journal

def inMemory (sectors : Nat) : Journal := ⟨Bytes.zeros sectors, none, false⟩

def sectors (j : Journal) : Nat := j.bytes.size

def path (j : Journal) : Option String := j.file.map (·.path)

def status (j : Journal) (lba : Nat) : Option SectorStatus :=
  j.bytes[lba]?.bind SectorStatus.ofByte?

/-- Notes the outcome of a read of `[lba, lba + sectors)`, as far as the journal reaches. -/
def record (j : Journal) (lba sectors : Nat) (failed : Bool) : Journal :=
  { j with bytes := j.bytes.fill lba sectors (SectorStatus.ofRead failed sectors).byte }

/-- Takes in data that were written at `offset` of the journal's file. -/
def overwrite (j : Journal) (offset : Nat) (data : Bytes) : Journal :=
  if offset < j.sectors then { j with bytes := (j.bytes.writeAt offset data).resize j.sectors }
  else j

def failedAt (j : Journal) (lba : Nat) : Bool := (j.status lba).any (·.isFailure)

/-- The zone of an unread run, its borders marked where a failed sector lies right beside them. -/
def zoneOfRun (j : Journal) (run : Nat × Nat) : Zone :=
  ⟨run.1, run.2, 0 < run.1 && j.failedAt (run.1 - 1), j.failedAt run.2⟩

/-- The table of the unread runs in `[start, stop)`. -/
def rebuild (j : Journal) (start stop : Nat) : ZoneTable :=
  let stop := min stop j.sectors
  if stop ≤ start then .empty
  else
    let runs := unreadRuns none start (j.bytes.extract start stop).toList
    .ofZones (runs.map j.zoneOfRun)

def counts (j : Journal) (start stop : Nat) : JournalCounts :=
  let stop := min stop j.sectors
  if stop ≤ start then ⟨0, 0, 0⟩
  else (j.bytes.extract start stop).foldl JournalCounts.add ⟨0, 0, 0⟩

end Journal

end DriveRescue
