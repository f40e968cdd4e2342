/-! What a journal remembers of a sector. -/
namespace DriveRescue

inductive SectorStatus where
  | unread
  | readOk
  /-- Failed in a read of several sectors. -/
  | blockReadError
  /-- Failed in a read of its own. -/
  | sectorReadError
  deriving DecidableEq

namespace SectorStatus

def byte : SectorStatus → UInt8
  | unread => 0
  | readOk => 1
  | blockReadError => 2
  | sectorReadError => 3

/-- Bytes from 4 on stand for no status. -/
def ofByte? (b : UInt8) : Option SectorStatus :=
  if b = 0 then some unread
  else if b = 1 then some readOk
  else if b = 2 then some blockReadError
  else if b = 3 then some sectorReadError
  else none

def isFailure : SectorStatus → Bool
  | blockReadError | sectorReadError => true
  | _ => false

def ofRead (failed : Bool) (sectors : Nat) : SectorStatus :=
  if !failed then readOk else if sectors = 1 then sectorReadError else blockReadError

def name : SectorStatus → String
  | unread => "Unread"
  | readOk => "ReadOk"
  | blockReadError => "BlockReadError"
  | sectorReadError => "SectorReadError"

theorem ofByte?_byte (s : SectorStatus) : ofByte? s.byte = some s := by cases s <;> decide

theorem ofRead_byte_ne_zero (failed : Bool) (sectors : Nat) : (ofRead failed sectors).byte ≠ 0 := by
  unfold ofRead
  split
  · decide
  · split <;> decide

theorem ofRead_isFailure (failed : Bool) (sectors : Nat) :
    (ofRead failed sectors).isFailure = failed := by
  cases failed with
  | false => rfl
  | true =>
    simp only [ofRead, Bool.not_true, Bool.false_eq_true, ↓reduceIte]
    split <;> rfl

end SectorStatus

end DriveRescue
