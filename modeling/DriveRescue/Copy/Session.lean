import DriveRescue.Copy.Basic
import DriveRescue.Device
import DriveRescue.Journal.Opening
import DriveRescue.TransferBuffer

/-! Copy sessions: a copy with its source, its image and its journal open. A block is read, then
written if it is good, then noted in the journal. -/
namespace DriveRescue

structure CopySession where
  copy : Copy
  source : Source
  target : Target
  /-- Out of reach once the session is closed. -/
  journal : Option Journal

namespace CopySession

/-- Puts a session together from open parts, and with a buffer for a block out of `memory`. -/
def ofParts (memory : Memory) (source : Source) (target : Target) (journal : Option Journal)
    (options : CopyOptions) : Except Error CopySession := do
  let copy ← Copy.begin? options source.capacity journal
  let _buffer ← (TransferBuffer.allocateFrom memory blockBytes pageBytes).1
  return ⟨copy, source.prepare, target, journal⟩

/-- Opens what the options name, in this order: the source, the journal, the image. An image is
emptied unless the journal is a restored one. -/
def openPath (memory : Memory) (files : FileTree) (device : String) (options : CopyOptions) :
    Except Error CopySession × FileTree :=
  match options.validate with
  | .error e => (.error e, files)
  | .ok () =>
    match Source.openPath files device options.api with
    | .error e => (.error e, files)
    | .ok source =>
      let path := options.journalFile.getD (Path.defaultJournal device.toUTF8.toList)
      let (journal, files) :=
        if options.useJournal then
          let (opened, files) := Journal.openOrCreate files path source.capacity
          (opened.map some, files)
        else (.ok none, files)
      match journal with
      | .error e => (.error e, files)
      | .ok journal =>
        match files.openOrCreate options.destination (!journal.any (·.restored)) with
        | .error fault => (.error (.cannotOpen options.destination fault), files)
        | .ok (key, node, files) =>
          let target := Target.ofNode key node true
          -- What opening the image did to the source shows in the source.
          let source := match files.stat device with
            | .ok (_, node) => source.reread node
            | .error _ => source
          (ofParts memory source target journal options, files)

/-- The image and the journal lie in one file. -/
def sharesFile (target : Target) (journal : Journal) : Bool :=
  match target.file, journal.file with
  | some key, some file => key == file.key
  | _, _ => false

/-- The journal after a read and after `data`, which is empty if nothing was written, went to the
image. -/
def note (target : Target) (task : Task) (failed : Bool) (data : Bytes) (journal : Journal) :
    Journal :=
  let journal :=
    if sharesFile target journal then journal.overwrite (task.lba * sectorBytes) data else journal
  journal.record task.lba task.sectors failed

/-- The journal while it is within reach. -/
def journal? (s : CopySession) : Option Journal := if s.copy.closed then none else s.journal

def perform : CopySession → Step × CopySession
  | ⟨copy, source, target, journal⟩ =>
    if copy.closed then (.complete, ⟨copy, source, target, journal⟩)
    else match copy.next with
      | (none, copy) => (.complete, ⟨copy, source, target, journal⟩)
      | (some task, copy) =>
        let (reply, source) := source.read task.lba (task.sectors * sectorBytes)
        let failed := reply.status.isFailure
        let (written, target) :=
          if failed then (true, target) else target.writeAll (task.lba * sectorBytes) reply.data
        let data := if failed || !written then #[] else reply.data
        let journal := journal.map (note target task failed data)
        let (step, copy) := copy.settle task ⟨reply.status, reply.nanos⟩ (!written)
        (step, ⟨copy, source, target, journal⟩)

def close (s : CopySession) : Except Error Unit × CopySession :=
  if s.copy.closed then (.ok (), s)
  else
    let (result, source) := s.source.close
    (result, { s with source, copy.closed := true })

def save (s : CopySession) (files : FileTree) : FileTree :=
  let files := s.target.save files
  match s.journal with
  | some journal => journal.save files
  | none => files

def reload (s : CopySession) (files : FileTree) : CopySession :=
  let journal := s.journal.map (·.reload files)
  match s.target.file.bind files.lookup with
  | some (.file contents) => { s with target.contents := contents, journal }
  | _ => { s with journal }

def procedure : Procedure CopySession where
  name := ProcedureKind.copy.name
  blockBytes := blockBytes
  perform := perform
  progress s := s.copy.progress
  close := close
  blocksLeft s := s.copy.table.unread

end CopySession

end DriveRescue
