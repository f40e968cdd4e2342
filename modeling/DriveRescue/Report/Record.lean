import DriveRescue.Copy.Basic
import DriveRescue.Datum
import DriveRescue.Device
import DriveRescue.Text.Quoted

/-! The library's records as data, for reports that are read by programs. -/
namespace DriveRescue

def Direction.name : Direction → String
  | .forward => "Forward"
  | .backward => "Backward"

def Zone.toDatum (z : Zone) : Datum :=
  .table [("begin", .count z.start), ("end", .count z.stop),
    ("begin_defective", .boolean z.startDefective), ("end_defective", .boolean z.stopDefective)]

def Task.toDatum (t : Task) : Datum :=
  .table [("lba", .count t.lba), ("sectors", .count t.sectors), ("direction", .text t.direction.name)]

def Progress.toDatum (p : Progress) : Datum :=
  .table [("done", .count p.done), ("total", .count p.total)]

private def spanDatum (nanos : Nat) : Datum :=
  .table [("secs", .count (nanos / 1000000000)), ("nanos", .count (nanos % 1000000000))]

def BlockReport.toDatum (r : BlockReport) : Datum :=
  .table [("lba", .count r.lba), ("sectors", .count r.sectors), ("status", .text r.status.name),
    ("elapsed", spanDatum r.nanos), ("write_failed", .boolean r.writeFailed)]

/-- The fields of a summary; the time it took is not among them. -/
def CopySummary.fields (s : CopySummary) : List (String × Datum) :=
  [("strategy", .text s.strategy.name), ("read_ok_sectors", .count s.readOk),
    ("failed_sectors", .count s.failed), ("unresolved_sectors", .count s.unresolved),
    ("zones_remaining", .count s.zonesLeft), ("write_failures", .count s.writeFailures),
    ("progress", s.progress.toDatum)]

def CopyOptions.toDatum (o : CopyOptions) : Datum :=
  .table [("api", .text o.api.name), ("read_strategy", .text o.strategy.name),
    ("dst_file", .text o.destination), ("use_journal", .boolean o.useJournal),
    ("skip_blocks", .count o.skipBlocks), ("start_lba", .count o.startLba),
    ("journal_file", (o.journalFile.map Datum.text).getD .null)]

def ReadTestOptions.toDatum (o : ReadTestOptions) : Datum :=
  .table [("api", .text o.api.name), ("start_lba", .count o.startLba)]

def DeviceInfo.toDatum (i : DeviceInfo) : Datum :=
  .table [("path", .text i.path), ("capacity_bytes", .count i.capacityBytes),
    ("is_block_device", .boolean i.isBlockDevice), ("ata_capable", .boolean i.ataCapable),
    ("model", (i.model.map Datum.text).getD .null)]

def JournalCounts.toDatum (c : JournalCounts) : Datum :=
  .table [("unread", .count c.unread), ("read_ok", .count c.readOk), ("failed", .count c.failed)]

def ProcedureKind.toDatum (k : ProcedureKind) : Datum :=
  .table [("name", .text k.name), ("description", .text k.longName),
    ("destructive", .boolean k.isDestructive)]

def Journal.description (j : Journal) : String :=
  let path := j.path.elim "None" fun p => s!"Some({Text.quoted Text.nameEscape p})"
  "Journal \x7b path: " ++ path ++ s!", sectors: {j.sectors}, restored: {j.restored}" ++ " \x7d"

end DriveRescue
