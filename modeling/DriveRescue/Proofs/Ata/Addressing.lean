import DriveRescue.Ata
import Mathlib.Algebra.Order.Group.Nat

/-! What a drive reads out of a command block. The block has its registers out of order, the high
bytes of an address before the low ones, and yet says just what was asked for. -/
namespace DriveRescue.Ata

/-- What the registers of a drive say once a 48-bit command has come in. -/
structure Registers where
  command : UInt8
  lba : Nat
  count : Nat
  dataIn : Bool
  deriving DecidableEq

def ofBytes : List UInt8 → Nat
  | [] => 0
  | b :: rest => b.toNat + 256 * ofBytes rest

/-- Whether data come in, by the protocol, the direction bit and where the flags say the length
stands: in the count for DMA, nowhere for a command without data. -/
def transfer? (protocol flags : UInt8) : Option Bool :=
  let kind := protocol.toNat / 2 % 16
  let length := flags.toNat % 4
  if kind = 6 ∧ length = 2 ∧ flags.toNat.testBit 3 then some true
  else if kind = 3 ∧ length = 0 then some false
  else none

/-- The registers that ATA PASS-THROUGH(16) loads: for each of the low, mid and high address the
byte behind holds what is loaded now and the byte in front what was loaded before. Without the bit
for 48-bit commands nothing loaded before would count. -/
def registers? (block : List UInt8) : Option Registers :=
  let byte := fun i => block.getD i 0
  if block.length = 16 ∧ byte 0 = 0x85 ∧ (byte 1).toNat % 2 = 1 then
    (transfer? (byte 1) (byte 2)).map fun dataIn =>
      { command := byte 14
        lba := ofBytes [byte 8, byte 10, byte 12, byte 7, byte 9, byte 11]
        count := ofBytes [byte 6, byte 5]
        dataIn }
  else none

theorem toNat_byteAt (n i : Nat) : (byteAt n i).toNat = n / 256 ^ i % 256 := by
  rw [byteAt, UInt8.toNat_ofNat']
  rfl

theorem byteAt_succ (n i : Nat) : byteAt n (i + 1) = byteAt (n / 256) i := by
  apply UInt8.toNat_inj.mp
  rw [toNat_byteAt, toNat_byteAt, Nat.div_div_eq_div_mul, Nat.pow_succ']

/-- So many bytes of a number make it up again, but for what is above them. -/
theorem ofBytes_byteAt (n k : Nat) :
    ofBytes ((List.range k).map (byteAt n)) = n % 256 ^ k := by
  induction k generalizing n with
  | zero => simp [ofBytes, Nat.mod_one]
  | succ k ih =>
    have htail : (List.range k).map (byteAt n ∘ Nat.succ) = (List.range k).map (byteAt (n / 256)) :=
      List.map_congr_left fun i _ => byteAt_succ n i
    rw [List.range_succ_eq_map, List.map_cons, List.map_map, htail, ofBytes, ih, toNat_byteAt,
      Nat.pow_zero, Nat.div_one, Nat.pow_succ', Nat.mod_mul]

/-- What is above the bytes of a number does not show in them. -/
theorem byteAt_mod {i k : Nat} (h : i < k) (n : Nat) : byteAt (n % 256 ^ k) i = byteAt n i := by
  apply UInt8.toNat_inj.mp
  have hpow : 256 ^ k = 256 ^ i * (256 * 256 ^ (k - (i + 1))) := by
    rw [← Nat.mul_assoc, ← Nat.pow_succ, ← Nat.pow_add, Nat.add_sub_cancel' h]
  rw [toNat_byteAt, toNat_byteAt, hpow, Nat.mod_mul_right_div_self, Nat.mod_mul_right_mod]

theorem registers?_commandBlock (command : UInt8) (lba count : Nat) (dataIn : Bool) :
    registers? (commandBlock command lba count dataIn) =
      some ⟨command, lba % 2 ^ 48, count % 2 ^ 16, dataIn⟩ := by
  have hlba := ofBytes_byteAt lba 6
  have hcount := ofBytes_byteAt count 2
  rw [show 2 ^ 48 = 256 ^ 6 by decide, show 2 ^ 16 = 256 ^ 2 by decide, ← hlba, ← hcount]
  cases dataIn with
  | true =>
    have hextended : (6 * 2 + 1 : UInt8).toNat % 2 = 1 := by decide
    have htransfer : transfer? (6 * 2 + 1) 0x2e = some true := by decide
    exact (if_pos ⟨rfl, rfl, hextended⟩).trans (congrArg (Option.map _) htransfer)
  | false =>
    have hextended : (3 * 2 + 1 : UInt8).toNat % 2 = 1 := by decide
    have htransfer : transfer? (3 * 2 + 1) 0x20 = some false := by decide
    exact (if_pos ⟨rfl, rfl, hextended⟩).trans (congrArg (Option.map _) htransfer)

theorem commandBlock_mod (command : UInt8) (lba count : Nat) (dataIn : Bool) :
    commandBlock command (lba % 2 ^ 48) count dataIn = commandBlock command lba count dataIn := by
  rw [show 2 ^ 48 = 256 ^ 6 by decide]
  simp only [commandBlock, byteAt_mod (by decide : 0 < 6), byteAt_mod (by decide : 1 < 6),
    byteAt_mod (by decide : 2 < 6), byteAt_mod (by decide : 3 < 6), byteAt_mod (by decide : 4 < 6),
    byteAt_mod (by decide : 5 < 6)]

/-- The registers that a block loads tell the command, the 48 low bits of the address, the count and
the direction. Two blocks are the same only if all of these are, so that each address of 48 bits has
blocks of its own. -/
theorem commandBlock_loads_request (command command' : UInt8) (lba lba' : Nat)
    (count count' : UInt16) (dataIn dataIn' : Bool) :
    let block := commandBlock command lba count.toNat dataIn
    let block' := commandBlock command' lba' count'.toNat dataIn'
    registers? block = some ⟨command, lba % 2 ^ 48, count.toNat, dataIn⟩ ∧
      (block = block' ↔ command = command' ∧ lba % 2 ^ 48 = lba' % 2 ^ 48 ∧ count = count' ∧
        dataIn = dataIn') ∧
      (lba < 2 ^ 48 → lba' < 2 ^ 48 → block = block' → lba = lba') := by
  intro block block'
  have hblock : registers? block = some ⟨command, lba % 2 ^ 48, count.toNat, dataIn⟩ := by
    rw [registers?_commandBlock, Nat.mod_eq_of_lt count.toNat_lt]
  have hblock' : registers? block' = some ⟨command', lba' % 2 ^ 48, count'.toNat, dataIn'⟩ := by
    rw [registers?_commandBlock, Nat.mod_eq_of_lt count'.toNat_lt]
  have hsame : block = block' ↔ command = command' ∧ lba % 2 ^ 48 = lba' % 2 ^ 48 ∧
      count = count' ∧ dataIn = dataIn' := by
    constructor
    · intro heq
      have hloaded := Option.some.inj (hblock.symm.trans ((congrArg registers? heq).trans hblock'))
      obtain ⟨hcommand, hlba, hcount, hdataIn⟩ := Registers.mk.inj hloaded
      exact ⟨hcommand, hlba, UInt16.toNat_inj.mp hcount, hdataIn⟩
    · rintro ⟨rfl, hlba, rfl, rfl⟩
      show commandBlock command lba count.toNat dataIn =
        commandBlock command lba' count.toNat dataIn
      rw [← commandBlock_mod, hlba, commandBlock_mod]
  refine ⟨hblock, hsame, fun hlt hlt' heq => ?_⟩
  obtain ⟨-, hlba, -, -⟩ := hsame.mp heq
  rwa [Nat.mod_eq_of_lt hlt, Nat.mod_eq_of_lt hlt'] at hlba

/-- The last address of 48 bits and the first, and two whose bytes only change places. -/
theorem commandBlock_loads_request_of_edges :
    let last := 2 ^ 48 - 1
    registers? (commandBlock readDmaExt last 256 true) = some ⟨readDmaExt, last, 256, true⟩ ∧
      commandBlock readVerifyExt (last + 1) 1 false = commandBlock readVerifyExt 0 1 false ∧
      commandBlock readDmaExt 0x010203040506 256 true ≠
        commandBlock readDmaExt 0x010203060504 256 true := by
  intro last
  have hlast := commandBlock_loads_request readDmaExt readDmaExt last last 256 256 true true
  have hwrapped :=
    commandBlock_loads_request readVerifyExt readVerifyExt (last + 1) 0 1 1 false false
  have hmoved := commandBlock_loads_request readDmaExt readDmaExt 0x010203040506 0x010203060504
    256 256 true true
  refine ⟨hlast.1, hwrapped.2.1.mpr ⟨rfl, by decide, rfl, rfl⟩, fun heq => ?_⟩
  have hlba := hmoved.2.2 (by decide) (by decide) heq
  simp at hlba

end DriveRescue.Ata
