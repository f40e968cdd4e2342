import DriveRescue.Sector

/-! Zones: half-open ranges of sectors still to be read, each border marked when the last read
that touched it failed. -/
namespace DriveRescue

/-- Way through a zone: upwards from its start or downwards from its stop. -/
inductive Direction where
  | forward | backward
  deriving DecidableEq

structure Zone where
  start : Nat
  /-- First sector beyond the zone. -/
  stop : Nat
  startDefective : Bool
  stopDefective : Bool
  deriving DecidableEq

namespace Zone

def clean (start stop : Nat) : Zone := ⟨start, stop, false, false⟩

def len (z : Zone) : Nat := z.stop - z.start

def isEmpty (z : Zone) : Bool := z.stop ≤ z.start

def contains (z : Zone) (lba : Nat) : Bool := z.start ≤ lba && lba < z.stop

def isEnclosed (z : Zone) : Bool := z.startDefective && z.stopDefective

/-- The part below `cut`; its new stop is clean. -/
def leading (z : Zone) (cut : Nat) : Zone := ⟨z.start, cut, z.startDefective, false⟩

/-- The part from `cut` on; its new start is clean. -/
def trailing (z : Zone) (cut : Nat) : Zone := ⟨cut, z.stop, false, z.stopDefective⟩

/-- Takes up to `sectors` off the border that `d` reads from and marks it with the outcome. -/
def trim (z : Zone) (sectors : Nat) (d : Direction) (failed : Bool) : Zone :=
  let taken := min sectors z.len
  match d with
  | .forward => { z with start := z.start + taken, startDefective := failed }
  | .backward => { z with stop := z.stop - taken, stopDefective := failed }

end Zone

end DriveRescue
