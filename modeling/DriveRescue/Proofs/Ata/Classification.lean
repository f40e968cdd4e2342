import DriveRescue.Ata
import Mathlib.Data.Nat.Bitwise

/-! What a completion says of a block. Whatever can tell of a failure is a symptom of its own, which
shows or not whatever else shows. A completion without symptoms is good, and of those that show the
first in a fixed order names the failure. -/
namespace DriveRescue.Ata

/-- Some bit of a mask is set in a byte of the sense data. Bytes behind their end have none. -/
def Completion.hasBits (c : Completion) (i : Nat) (mask : UInt8) : Bool :=
  c.sense.getD i 0 &&& mask != 0

/-- What tells of a failure, in the order in which it counts. -/
inductive Symptom where
  | notAccepted
  | late
  | uncorrectable
  | addressNotFound
  | aborted
  | addressMarkNotFound
  /-- The drive has met an error, whether or not the error register names it. -/
  | errorBit
  | deviceFault
  | abortedKey
  /-- A sense key other than those of no error and of one the drive has recovered from. -/
  | otherKey
  | residue
  deriving DecidableEq

namespace Symptom

def all : List Symptom :=
  [notAccepted, late, uncorrectable, addressNotFound, aborted, addressMarkNotFound, errorBit,
    deviceFault, abortedKey, otherKey, residue]

/-- Byte 21 is the status register and byte 11 the error register. -/
def shows (c : Completion) : Symptom → Bool
  | notAccepted => !c.accepted
  | late => c.timeoutMillis ≤ c.durationMillis
  | uncorrectable => c.hasBits 21 0x01 && c.hasBits 11 0x40
  | addressNotFound => c.hasBits 21 0x01 && c.hasBits 11 0x10
  | aborted => c.hasBits 21 0x01 && c.hasBits 11 0x04
  | addressMarkNotFound => c.hasBits 21 0x01 && c.hasBits 11 0x01
  | errorBit => c.hasBits 21 0x01
  | deviceFault => c.hasBits 21 0x20
  | abortedKey => senseKey c.sense == 0x0b
  | otherKey => senseKey c.sense != 0x00 && senseKey c.sense != 0x01
  | residue => c.residue != 0

def status : Symptom → BlockStatus
  | notAccepted | errorBit | deviceFault | otherKey | residue => .error
  | late => .timeout
  | uncorrectable => .uncorrectable
  | addressNotFound => .addressNotFound
  | aborted | abortedKey => .aborted
  | addressMarkNotFound => .addressMarkNotFound

def verdict (c : Completion) (symptoms : List Symptom) : BlockStatus :=
  ((symptoms.find? (·.shows c)).map status).getD .ok

theorem mem_all (s : Symptom) : s ∈ all := by cases s <;> decide

theorem status_ne_ok (s : Symptom) : s.status ≠ .ok := by cases s <;> decide

theorem verdict_nil (c : Completion) : verdict c [] = .ok := rfl

theorem verdict_cons (c : Completion) (s : Symptom) (rest : List Symptom) :
    verdict c (s :: rest) = if s.shows c then s.status else verdict c rest := by
  rw [verdict, List.find?_cons]
  cases s.shows c <;> rfl

theorem verdict_cases (c : Completion) (symptoms : List Symptom) :
    (verdict c symptoms = .ok ∧ ∀ s ∈ symptoms, s.shows c = false) ∨
      ∃ before s after, symptoms = before ++ s :: after ∧ s.shows c = true ∧
        (∀ t ∈ before, t.shows c = false) ∧ verdict c symptoms = s.status := by
  cases hfind : symptoms.find? (·.shows c) with
  | none =>
    left
    constructor
    · rw [verdict, hfind]
      rfl
    · exact fun s hs => Bool.eq_false_of_not_eq_true (List.find?_eq_none.mp hfind s hs)
  | some s =>
    right
    obtain ⟨hshows, before, after, hsplit, hbefore⟩ := List.find?_eq_some_iff_append.mp hfind
    refine ⟨before, s, after, hsplit, hshows, fun t ht => ?_, ?_⟩
    · simpa using hbefore t ht
    · rw [verdict, hfind]
      rfl

theorem verdict_all_eq_ok_iff (c : Completion) :
    verdict c all = .ok ↔ ∀ s : Symptom, s.shows c = false := by
  rcases verdict_cases c all with ⟨hok, hnone⟩ | ⟨-, s, -, -, hshows, -, hstatus⟩
  · exact ⟨fun _ s => hnone s s.mem_all, fun _ => hok⟩
  · constructor
    · exact fun hok => absurd (hstatus.symm.trans hok) s.status_ne_ok
    · intro hnone
      rw [hnone s] at hshows
      cases hshows

end Symptom

theorem and_bit_bne_zero (b : UInt8) {k : Nat} (hk : k < 8) :
    (b &&& UInt8.ofNat (2 ^ k) != 0) = b.toNat.testBit k := by
  have hpow : 2 ^ k < 2 ^ 8 := Nat.pow_lt_pow_right (by decide) hk
  rw [Bool.eq_iff_iff, bne_iff_ne, ne_eq, ← UInt8.toNat_inj, UInt8.toNat_and, UInt8.toNat_ofNat',
    Nat.mod_eq_of_lt hpow, Nat.and_two_pow]
  cases b.toNat.testBit k <;> simp

theorem mod_eq_and_mask (b : UInt8) {k : Nat} (hk : k < 8) :
    b % UInt8.ofNat (2 ^ k) = b &&& UInt8.ofNat (2 ^ k - 1) := by
  have hpow : 2 ^ k < 2 ^ 8 := Nat.pow_lt_pow_right (by decide) hk
  apply UInt8.toNat_inj.mp
  rw [UInt8.toNat_mod, UInt8.toNat_and, UInt8.toNat_ofNat', UInt8.toNat_ofNat',
    Nat.mod_eq_of_lt hpow, Nat.mod_eq_of_lt (Nat.lt_of_le_of_lt (Nat.sub_le ..) hpow),
    Nat.and_two_pow_sub_one_eq_mod]

/-- The key is the low nibble of a byte whose place the response code tells. -/
theorem senseKey_eq (sense : List UInt8) :
    let code := sense.getD 0 0 &&& 0x7f
    (code = 0x72 ∨ code = 0x73 → senseKey sense = sense.getD 1 0 &&& 0x0f) ∧
      (code = 0x70 ∨ code = 0x71 → senseKey sense = sense.getD 2 0 &&& 0x0f) ∧
      (code ∉ [0x70, 0x71, 0x72, 0x73] → senseKey sense = 0) := by
  intro code
  have hcode : sense.getD 0 0 % 0x80 = code := mod_eq_and_mask _ (by decide : 7 < 8)
  have hnibble (b : UInt8) : b % 16 = b &&& 0x0f := mod_eq_and_mask b (by decide : 4 < 8)
  simp only [senseKey, hcode, hnibble]
  refine ⟨fun h => if_pos h, fun h => ?_, fun h => ?_⟩
  · have hother : ¬ (code = 0x72 ∨ code = 0x73) := by
      rcases h with h | h <;> rw [h] <;> decide
    rw [if_neg hother, if_pos h]
  · simp only [List.mem_cons, List.not_mem_nil, or_false, not_or] at h
    rw [if_neg (by simp [h]), if_neg (by simp [h])]

namespace Completion

theorem testBit_statusRegister (c : Completion) {k : Nat} (hk : k < 8) :
    c.statusRegister.testBit k = c.hasBits 21 (UInt8.ofNat (2 ^ k)) :=
  (and_bit_bne_zero _ hk).symm

theorem testBit_errorRegister (c : Completion) {k : Nat} (hk : k < 8) :
    c.errorRegister.testBit k = c.hasBits 11 (UInt8.ofNat (2 ^ k)) :=
  (and_bit_bne_zero _ hk).symm

theorem classify_eq_verdict (c : Completion) : c.classify = Symptom.verdict c Symptom.all := by
  simp only [classify, registerError,
    testBit_statusRegister c (by decide : 0 < 8), testBit_statusRegister c (by decide : 5 < 8),
    testBit_errorRegister c (by decide : 6 < 8), testBit_errorRegister c (by decide : 4 < 8),
    testBit_errorRegister c (by decide : 2 < 8), testBit_errorRegister c (by decide : 0 < 8),
    Symptom.all, Symptom.verdict_cons, Symptom.verdict_nil, Symptom.shows, Symptom.status]
  -- With the error bit the names of the error follow one another, without it none of them shows.
  by_cases herror : c.hasBits 21 0x01 = true
  · simp [herror]
  · simp [herror]

/-- Of the sense data only the bytes count, and zeros where there are none. -/
theorem classify_congr (c : Completion) {sense : List UInt8}
    (h : ∀ i, sense.getD i 0 = c.sense.getD i 0) :
    classify { c with sense } = c.classify := by
  have hkey : senseKey sense = senseKey c.sense := by simp only [senseKey, h]
  have hstatus : statusRegister { c with sense } = c.statusRegister :=
    congrArg UInt8.toNat (h 21)
  have herror : errorRegister { c with sense } = c.errorRegister := congrArg UInt8.toNat (h 11)
  simp only [classify, registerError, hkey, hstatus, herror]

theorem classify_append_zeros (c : Completion) (n : Nat) :
    classify { c with sense := c.sense ++ List.replicate n 0 } = c.classify := by
  apply classify_congr
  intro i
  rw [List.getD_eq_getElem?_getD, List.getD_eq_getElem?_getD, List.getElem?_append]
  split
  · rfl
  · rw [List.getElem?_eq_none (by omega : c.sense.length ≤ i), List.getElem?_replicate]
    split <;> rfl

theorem classify_eq_ok_iff (c : Completion) :
    c.classify = .ok ↔ c.accepted = true ∧ c.durationMillis < c.timeoutMillis ∧
      c.hasBits 21 0x01 = false ∧ c.hasBits 21 0x20 = false ∧
      (senseKey c.sense = 0 ∨ senseKey c.sense = 1) ∧ c.residue = 0 := by
  rw [classify_eq_verdict, Symptom.verdict_all_eq_ok_iff]
  constructor
  · intro hnone
    have haccepted := hnone .notAccepted
    have hlate := hnone .late
    have hkey := hnone .otherKey
    have hresidue := hnone .residue
    simp only [Symptom.shows, Bool.not_eq_false', decide_eq_false_iff_not, Nat.not_le,
      Bool.and_eq_false_iff, bne_eq_false_iff_eq] at haccepted hlate hkey hresidue
    exact ⟨haccepted, hlate, hnone .errorBit, hnone .deviceFault, hkey, hresidue⟩
  · rintro ⟨haccepted, hlate, herror, hfault, hkey, hresidue⟩ s
    cases s with
    | late => simpa [Symptom.shows] using hlate
    | abortedKey => rcases hkey with hkey | hkey <;> simp [Symptom.shows, hkey]
    | otherKey => rcases hkey with hkey | hkey <;> simp [Symptom.shows, hkey]
    | _ => simp [Symptom.shows, haccepted, herror, hfault, hresidue]

/-- A completion is good only without any symptom of a failure: it was accepted, came in time,
neither register nor sense key tells of an error, and nothing is left to transfer. Any other
completion has the status of the first symptom that shows. The sense key is the low nibble of a byte
whose place the response code tells, and bytes that are missing count as zeros. -/
theorem classify_takes_first_symptom (c : Completion) :
    let byte := fun i => c.sense.getD i 0
    let code := byte 0 &&& 0x7f
    let key := senseKey c.sense
    (c.classify = .ok ↔ c.accepted = true ∧ c.durationMillis < c.timeoutMillis ∧
        byte 21 &&& 0x01 = 0 ∧ byte 21 &&& 0x20 = 0 ∧ (key = 0 ∨ key = 1) ∧ c.residue = 0) ∧
      (c.classify ≠ .ok → ∃ before s after, Symptom.all = before ++ s :: after ∧
        s.shows c = true ∧ (∀ t ∈ before, t.shows c = false) ∧ c.classify = s.status) ∧
      (code = 0x72 ∨ code = 0x73 → key = byte 1 &&& 0x0f) ∧
      (code = 0x70 ∨ code = 0x71 → key = byte 2 &&& 0x0f) ∧
      (code ∉ [0x70, 0x71, 0x72, 0x73] → key = 0) ∧
      ∀ n, classify { c with sense := c.sense ++ List.replicate n 0 } = c.classify := by
  intro byte code key
  obtain ⟨hdescriptor, hfixed, hother⟩ := senseKey_eq c.sense
  have hbits (mask : UInt8) : c.hasBits 21 mask = false ↔ byte 21 &&& mask = 0 :=
    bne_eq_false_iff_eq
  refine ⟨?_, fun hfailed => ?_, hdescriptor, hfixed, hother, c.classify_append_zeros⟩
  · rw [classify_eq_ok_iff, hbits, hbits]
  · rw [classify_eq_verdict] at hfailed ⊢
    rcases Symptom.verdict_cases c Symptom.all with ⟨hok, -⟩ | hfirst
    · exact absurd hok hfailed
    · exact hfirst

/-- Fixed format data that end with the key and leave bytes untransferred: the key counts first. -/
theorem classify_takes_first_symptom_of_two :
    let c : Completion := ⟨true, 5, 1000, [0xf0, 0x00, 0x0b], 512⟩
    c.classify ≠ .ok ∧ Symptom.residue.shows c = true ∧
      (∃ before s after, Symptom.all = before ++ s :: after ∧ s.shows c = true ∧
        (∀ t ∈ before, t.shows c = false) ∧ c.classify = s.status) ∧
      c.classify = .aborted ∧ senseKey c.sense = 0x0b := by
  intro c
  obtain ⟨-, hfirst, -, hfixed, -⟩ := classify_takes_first_symptom c
  have hkey : senseKey c.sense = 0x0b := (hfixed (by decide)).trans (by decide)
  exact ⟨by decide, by decide, hfirst (by decide), by decide, hkey⟩

end Completion

end DriveRescue.Ata
