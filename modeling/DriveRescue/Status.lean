/-! How an access to a block ended. -/
namespace DriveRescue

inductive BlockStatus where
  | ok
  /-- Any failure without a finer name, a short transfer among them. -/
  | error
  | timeout
  | uncorrectable
  | addressNotFound
  | aborted
  | addressMarkNotFound
  deriving DecidableEq

namespace BlockStatus

def all : List BlockStatus :=
  [ok, error, timeout, uncorrectable, addressNotFound, aborted, addressMarkNotFound]

/-- The name in reports that are read by programs. -/
def name : BlockStatus → String
  | ok => "Ok"
  | error => "Error"
  | timeout => "Timeout"
  | uncorrectable => "Unc"
  | addressNotFound => "Idnf"
  | aborted => "Abrt"
  | addressMarkNotFound => "Amnf"

def text : BlockStatus → String
  | ok => "OK"
  | error => "ERR"
  | timeout => "TIMEOUT"
  | uncorrectable => "UNC"
  | addressNotFound => "IDNF"
  | aborted => "ABRT"
  | addressMarkNotFound => "AMNF"

def ofText? (text : String) : Option BlockStatus := all.find? (·.text == text)

def isOk (s : BlockStatus) : Bool := s == ok

def isFailure (s : BlockStatus) : Bool := !s.isOk

end BlockStatus

structure Outcome where
  status : BlockStatus
  nanos : Nat
  deriving DecidableEq

end DriveRescue
