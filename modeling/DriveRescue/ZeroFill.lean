import DriveRescue.Device
import DriveRescue.Procedure.Basic
import DriveRescue.TransferBuffer

/-! Zero fill: zeros over every whole sector of a device, block by block. -/
namespace DriveRescue

structure ZeroFill where
  target : Target
  position : Nat
  stop : Nat
  progress : Progress
  /-- With what the `k`-th sync of the target fails, if it does. -/
  syncing : (k : Nat) → Option FileFault
  syncs : Nat

namespace ZeroFill

/-- What an ordinary device is given can be synced. -/
def ofDevice (memory : Memory) (device : Device) : Except Error ZeroFill := do
  let stop := device.capacity
  if stop = 0 then throw (.invalidOption "device" (.noSectors device.path))
  let _buffer ← (TransferBuffer.allocateFrom memory blockBytes pageBytes).1
  return ⟨.ofNode device.key device.node device.writable, 0, stop, ⟨0, stop⟩, fun _ => none, 0⟩

def openPath (memory : Memory) (files : FileTree) (path : String) : Except Error ZeroFill := do
  ofDevice memory (← Device.openPath files path true)

/-- Writes the next block. A failed or short write is reported and not tried again. -/
def perform : ZeroFill → Step × ZeroFill
  | ⟨target, position, stop, progress, syncing, syncs⟩ =>
    if stop ≤ position then (.complete, ⟨target, position, stop, progress, syncing, syncs⟩)
    else
      let sectors := min blockSectors (stop - position)
      let count := sectors * sectorBytes
      let (taken, target) := target.write (position * sectorBytes) (Bytes.zeros count)
      let status := if taken = some count then .ok else .error
      (.proceed ⟨position, sectors, status, 0, false⟩,
        ⟨target, position + sectors, stop, progress.advance sectors, syncing, syncs⟩)

/-- Syncs the target, which stays open. -/
def close (z : ZeroFill) : Except Error Unit × ZeroFill :=
  (match z.syncing z.syncs with
    | some fault => .error (.file fault)
    | none => .ok (),
    { z with syncs := z.syncs + 1 })

def procedure : Procedure ZeroFill where
  name := ProcedureKind.zeroFill.name
  blockBytes := blockBytes
  perform := perform
  progress := progress
  close := close
  blocksLeft z := z.stop - z.position

end ZeroFill

end DriveRescue
