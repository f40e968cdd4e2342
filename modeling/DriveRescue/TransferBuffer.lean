import DriveRescue.Bytes
import DriveRescue.Error
import DriveRescue.Sector
import DriveRescue.Text.Number

/-! Buffers whose address and size are multiples of an alignment, and the memory they come from. -/
namespace DriveRescue

def pageBytes : Nat := 4096

structure TransferBuffer where
  bytes : Bytes
  alignment : Nat

/-- What memory is asked for: bytes at an address that is a multiple of `alignment`. Nothing takes
up more than half of all addresses. -/
structure Layout where
  bytes : Nat
  alignment : Nat
  fits : bytes + alignment ≤ Text.signedBound
  deriving DecidableEq

structure Memory where
  /-- Whether a layout is granted once others have been asked for, the newest in front. -/
  grants : List Layout → Layout → Bool
  requests : List Layout

namespace Memory

def request (m : Memory) (layout : Layout) : Bool × Memory :=
  (m.grants m.requests layout, { m with requests := layout :: m.requests })

def addressBound : Nat := Nat.pow 2 47

def ofProcess : Memory where
  grants _ layout := layout.bytes + layout.alignment ≤ addressBound
  requests := []

end Memory

namespace TransferBuffer

def isPowerOfTwo (n : Nat) : Bool := n ≠ 0 && n &&& (n - 1) = 0

/-- The size rounded up by a mask, in words of 64 bits. -/
def roundedSize (size alignment : Nat) : Nat :=
  (BitVec.ofNat 64 (size + alignment - 1) &&& ~~~(BitVec.ofNat 64 (alignment - 1))).toNat

/-- A buffer of zeros of at least `size` bytes, out of `memory`. -/
def allocateFrom (memory : Memory) (size alignment : Nat) :
    Except Error TransferBuffer × Memory :=
  if !isPowerOfTwo alignment then (.error (.buffer (.alignment alignment)), memory)
  else if size = 0 then (.error (.buffer .empty), memory)
  else
    let rounded := roundedSize size alignment
    if fits : rounded + alignment ≤ Text.signedBound then
      match memory.request ⟨rounded, alignment, fits⟩ with
      | (true, memory) => (.ok ⟨Bytes.zeros rounded, alignment⟩, memory)
      | (false, memory) => (.error (.buffer (.refused rounded)), memory)
    else (.error (.buffer .layout), memory)

def allocate (size alignment : Nat) : Except Error TransferBuffer :=
  (allocateFrom .ofProcess size alignment).1

def pageAligned (size : Nat) : Except Error TransferBuffer := allocate size pageBytes

def zero (b : TransferBuffer) : TransferBuffer := { b with bytes := Bytes.zeros b.bytes.size }

@[simp] theorem isPowerOfTwo_eq_decide (n : Nat) : isPowerOfTwo n = decide n.isPowerOfTwo := by
  rw [Bool.eq_iff_iff, decide_eq_true_iff, ← Nat.ne_zero_and_sub_one_eq_zero_iff_isPowerOfTwo]
  simp [isPowerOfTwo]

section

variable (memory : Memory) {size alignment : Nat}

theorem allocateFrom_of_not_power (h : ¬ alignment.isPowerOfTwo) :
    allocateFrom memory size alignment = (.error (.buffer (.alignment alignment)), memory) := by
  rw [allocateFrom, if_pos (by simpa using h)]

theorem allocateFrom_zero (h : alignment.isPowerOfTwo) :
    allocateFrom memory 0 alignment = (.error (.buffer .empty), memory) := by
  rw [allocateFrom, if_neg (by simpa using h), if_pos rfl]

theorem allocateFrom_of_not_fits (h : alignment.isPowerOfTwo) (hsize : size ≠ 0)
    (hfits : ¬ roundedSize size alignment + alignment ≤ Text.signedBound) :
    allocateFrom memory size alignment = (.error (.buffer .layout), memory) := by
  rw [allocateFrom, if_neg (by simpa using h), if_neg hsize]
  exact dif_neg hfits

theorem allocateFrom_of_fits (h : alignment.isPowerOfTwo) (hsize : size ≠ 0)
    (hfits : roundedSize size alignment + alignment ≤ Text.signedBound) :
    let layout : Layout := ⟨roundedSize size alignment, alignment, hfits⟩
    allocateFrom memory size alignment =
      (if memory.grants memory.requests layout then .ok ⟨Bytes.zeros layout.bytes, alignment⟩
        else .error (.buffer (.refused layout.bytes)),
        { memory with requests := layout :: memory.requests }) := by
  intro layout
  rw [allocateFrom, if_neg (by simpa using h), if_neg hsize]
  dsimp only
  rw [dif_pos hfits, Memory.request]
  cases memory.grants memory.requests layout with
  | true => rfl
  | false => rfl

end

end TransferBuffer

/-- There is memory for the buffer of a block. -/
def Memory.givesBlock (m : Memory) : Bool :=
  m.grants m.requests ⟨blockBytes, pageBytes, by decide⟩

@[simp] theorem Memory.givesBlock_ofProcess : ofProcess.givesBlock = true := by decide

/-- Nothing but a refusal keeps the buffer of a block from being made. -/
theorem TransferBuffer.allocateFrom_block (memory : Memory) :
    (allocateFrom memory blockBytes pageBytes).1 =
      if memory.givesBlock then .ok ⟨Bytes.zeros blockBytes, pageBytes⟩
      else .error (.buffer (.refused blockBytes)) := by
  have hrounded : roundedSize blockBytes pageBytes = blockBytes := by decide
  rw [allocateFrom_of_fits memory (by decide) (by decide) (by decide)]
  simp only [hrounded]
  rfl

end DriveRescue
