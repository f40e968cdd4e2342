import DriveRescue.Device
import DriveRescue.Procedure.Basic
import DriveRescue.TransferBuffer

/-! The read test: every block of a source in order, whatever becomes of it. -/
namespace DriveRescue

structure ReadTest where
  source : Source
  position : Nat
  stop : Nat
  progress : Progress
  closed : Bool

namespace ReadTest

def ofSource (memory : Memory) (source : Source) (start : Nat) : Except Error ReadTest := do
  let stop := source.capacity
  if stop ≤ start then throw (.invalidOption "start_lba" (.nothingToTest start stop))
  let _buffer ← (TransferBuffer.allocateFrom memory blockBytes pageBytes).1
  return ⟨source, start, stop, ⟨0, stop - start⟩, false⟩

def openPath (memory : Memory) (files : FileTree) (path : String) (api : Api) (start : Nat) :
    Except Error ReadTest := do
  ofSource memory (← Source.openPath files path api) start

def perform (t : ReadTest) : Step × ReadTest :=
  if t.closed || t.stop ≤ t.position then (.complete, t)
  else
    let sectors := min blockSectors (t.stop - t.position)
    let (outcome, source) := t.source.verify t.position sectors blockBytes
    (.proceed ⟨t.position, sectors, outcome.status, outcome.nanos, false⟩,
      { t with source, position := t.position + sectors, progress := t.progress.advance sectors })

def close (t : ReadTest) : Except Error Unit × ReadTest :=
  if t.closed then (.ok (), t)
  else
    let (result, source) := t.source.close
    (result, { t with source, closed := true })

def procedure : Procedure ReadTest where
  name := ProcedureKind.readTest.name
  blockBytes := blockBytes
  perform := perform
  progress := progress
  close := close
  blocksLeft t := t.stop - t.position

end ReadTest

end DriveRescue
