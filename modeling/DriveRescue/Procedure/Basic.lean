import DriveRescue.Binary64.Basic
import DriveRescue.Error
import DriveRescue.Status

/-! Procedures: jobs that are performed a block at a time. -/
namespace DriveRescue

structure BlockReport where
  lba : Nat
  sectors : Nat
  status : BlockStatus
  nanos : Nat
  /-- The block was read but not written. -/
  writeFailed : Bool
  deriving DecidableEq

structure Progress where
  done : Nat
  total : Nat
  deriving DecidableEq

namespace Progress

def advance (p : Progress) (sectors : Nat) : Progress :=
  { p with done := min (p.done + sectors) p.total }

/-- The share that is done; all of it where there is nothing to do. -/
def fraction (p : Progress) : Binary64 :=
  if p.total = 0 then .ofNat 1 else .quotient p.done p.total

def isComplete (p : Progress) : Bool := p.total ≤ p.done

end Progress

/-- What one call for a block comes to. -/
inductive Step where
  | proceed (report : BlockReport)
  /-- The block is done and the procedure gives up. -/
  | abort (report : BlockReport)
  | complete
  | fail (error : Error)
  /-- The call does not return. -/
  | crash
  deriving DecidableEq

structure Event where
  report : BlockReport
  progress : Progress
  deriving DecidableEq

structure Procedure (σ : Type) where
  name : String
  blockBytes : Nat
  perform : σ → Step × σ
  progress : σ → Progress
  close : σ → Except Error Unit × σ
  /-- More blocks than this the job does not report from the state on. -/
  blocksLeft : σ → Nat

inductive RunOutcome where
  | completed
  /-- The procedure gave up. -/
  | aborted
  /-- Stopped from outside: by the stop flag, the observer or the limit. -/
  | interrupted
  deriving DecidableEq

namespace RunOutcome

def all : List RunOutcome := [completed, aborted, interrupted]

def name : RunOutcome → String
  | completed => "Completed"
  | aborted => "Aborted"
  | interrupted => "Interrupted"

def exitCode : RunOutcome → Nat
  | completed => 0
  | aborted => 2
  | interrupted => 130

end RunOutcome

inductive ProcedureKind where
  | readTest | zeroFill | copy
  deriving DecidableEq

namespace ProcedureKind

def all : List ProcedureKind := [readTest, zeroFill, copy]

def name : ProcedureKind → String
  | readTest => "read_test"
  | zeroFill => "zero_fill"
  | copy => "copy"

def longName : ProcedureKind → String
  | readTest => "Test device with reading"
  | zeroFill => "Fill device with zeros"
  | copy => "Copy device to file, working around defects"

def tag : ProcedureKind → String
  | readTest => "ReadTest"
  | zeroFill => "ZeroFill"
  | copy => "Copy"

/-- Overwrites the device it is run on. -/
def isDestructive (k : ProcedureKind) : Bool := k == zeroFill

def ofName? (name : String) : Option ProcedureKind := all.find? (·.name == name)

theorem ofName?_name (k : ProcedureKind) : ofName? k.name = some k := by cases k <;> decide

end ProcedureKind

end DriveRescue
