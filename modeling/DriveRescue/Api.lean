/-! Ways to reach a source. -/
namespace DriveRescue

inductive Api where
  /-- Commands passed through to the drive itself. -/
  | ata
  /-- Reads at offsets through the system. -/
  | posix
  deriving DecidableEq

namespace Api

def name : Api → String
  | ata => "ata"
  | posix => "posix"

def suggested (ataCapable : Bool) : Api := if ataCapable then ata else posix

end Api

end DriveRescue
