import DriveRescue.Status

/-! ATA commands passed through to a drive: the command block, and what the completion says. -/
namespace DriveRescue.Ata

def timeoutMillis : Nat := 1000

def readDmaExt : UInt8 := 0x25
def readVerifyExt : UInt8 := 0x42

/-- Byte `i` of a number, the lowest first. -/
def byteAt (n i : Nat) : UInt8 := UInt8.ofNat (n / Nat.pow 256 i)

/-- The 16 bytes of ATA PASS-THROUGH(16) for a 48-bit command: operation, protocol, flags, features,
count, then the address with its high bytes before its low ones, device, command, control. -/
def commandBlock (command : UInt8) (lba count : Nat) (dataIn : Bool) : List UInt8 :=
  let (protocol, flags) : UInt8 × UInt8 := if dataIn then (6, 0x2e) else (3, 0x20)
  [0x85, protocol * 2 + 1, flags, 0, 0, byteAt count 1, byteAt count 0,
    byteAt lba 3, byteAt lba 0, byteAt lba 4, byteAt lba 1, byteAt lba 5, byteAt lba 2,
    0x40, command, 0]

/-- The sense key of sense data, which stands in byte 1 or byte 2 by the response code. -/
def senseKey (sense : List UInt8) : UInt8 :=
  let code := sense.getD 0 0 % 0x80
  if code = 0x72 ∨ code = 0x73 then sense.getD 1 0 % 16
  else if code = 0x70 ∨ code = 0x71 then sense.getD 2 0 % 16
  else 0

structure Completion where
  accepted : Bool
  durationMillis : Nat
  timeoutMillis : Nat
  sense : List UInt8
  residue : Int

namespace Completion

def errorRegister (c : Completion) : Nat := (c.sense.getD 11 0).toNat

def statusRegister (c : Completion) : Nat := (c.sense.getD 21 0).toNat

/-- The finest name for an error that the registers tell of. -/
def registerError (c : Completion) : BlockStatus :=
  let e := c.errorRegister
  if e.testBit 6 then .uncorrectable
  else if e.testBit 4 then .addressNotFound
  else if e.testBit 2 then .aborted
  else if e.testBit 0 then .addressMarkNotFound
  else .error

/-- How the block fared. A completion is good only if nothing tells of a failure. -/
def classify (c : Completion) : BlockStatus :=
  if !c.accepted then .error
  else if c.timeoutMillis ≤ c.durationMillis then .timeout
  else if c.statusRegister.testBit 0 then c.registerError
  else if c.statusRegister.testBit 5 then .error
  else
    let key := senseKey c.sense
    if key = 0x0b then .aborted
    else if key ≠ 0 ∧ key ≠ 1 then .error
    else if c.residue ≠ 0 then .error
    else .ok

end Completion

end DriveRescue.Ata
