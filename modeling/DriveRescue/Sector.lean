/-! Sizes of sectors and transfer blocks. -/
namespace DriveRescue

def sectorBytes : Nat := 512

def blockSectors : Nat := 256

def blockBytes : Nat := blockSectors * sectorBytes

/-- A zone up to this length is never split in the middle. -/
def indivisibleSectors : Nat := 1000000

/-- A table of this many zones is not divided further. -/
def maxZones : Nat := 1000

/-- Blocks leapt over after a failure unless the options say otherwise. -/
def defaultSkipBlocks : Nat := 5000

def alignDown (lba : Nat) : Nat := lba - lba % blockSectors

theorem alignDown_le (lba : Nat) : alignDown lba ≤ lba := Nat.sub_le ..

theorem lt_alignDown_add (lba : Nat) : lba < alignDown lba + blockSectors := by
  have := Nat.mod_lt lba (show 0 < blockSectors by decide)
  unfold alignDown
  omega

theorem alignDown_mod (lba : Nat) : alignDown lba % blockSectors = 0 := by
  unfold alignDown
  rw [Nat.sub_mod_eq_zero_of_mod_eq]
  simp

end DriveRescue
