import DriveRescue.Proofs.Zones.Reading
import DriveRescue.Text.Number

/-! Zone tables computed in words of 64 bits, where a sum or a product that is no word and a
difference below zero put an end to the computation. On a table whose zones lie below a sector that
can be addressed in bytes this never happens, and what comes out is what the table's own operations
give. -/
namespace DriveRescue

/-- What puts an end to a computation in words. -/
inductive Panic where
  /-- A sum or a product is no word. -/
  | overflow
  /-- A difference is below zero. -/
  | underflow
  /-- Bytes are asked for that the transfer buffer does not have. -/
  | beyondBuffer
  /-- Sectors are asked for that the source does not have. -/
  | beyondSource
  deriving DecidableEq

/-- The offset of the sector in bytes is a word. -/
def Addressable (sector : Nat) : Prop := sector * sectorBytes < Text.wordBound

instance (sector : Nat) : Decidable (Addressable sector) :=
  inferInstanceAs (Decidable (sector * sectorBytes < Text.wordBound))

example : Addressable (2 ^ 55 - 1) ∧ ¬ Addressable (2 ^ 55) := by decide

/-- Up to a block behind an addressable sector all numbers are words. -/
theorem Addressable.lt_word {stop n : Nat} (h : Addressable stop) (hn : n ≤ stop + blockSectors) :
    n < Text.wordBound := by
  have hword : Text.wordBound = 18446744073709551616 := rfl
  simp only [Addressable, sectorBytes, blockSectors, hword] at h hn ⊢
  omega

theorem Addressable.mul_lt {stop sector : Nat} (h : Addressable stop) (hle : sector ≤ stop) :
    sector * sectorBytes < Text.wordBound :=
  Nat.lt_of_le_of_lt (Nat.mul_le_mul_right sectorBytes hle) h

structure ZoneTable.Below (t : ZoneTable) (stop : Nat) : Prop where
  consistent : t.Consistent
  stop_le : ∀ z ∈ t.zones, z.stop ≤ stop
  unread_le : t.unread ≤ stop

theorem ZoneTable.Consistent.size_le_unread {t : ZoneTable} (h : t.Consistent) :
    t.size ≤ t.unread := by
  have hnonempty := h.spaced.1
  obtain ⟨zones, cursor⟩ := t
  clear h
  induction zones with
  | nil => exact Nat.zero_le _
  | cons z rest ih =>
    have hz := hnonempty z (by simp)
    have hrest : ZoneTable.size ⟨rest, cursor⟩ ≤ ZoneTable.unread ⟨rest, none⟩ :=
      ih fun w hw => hnonempty w (by simp [hw])
    simp only [ZoneTable.size, ZoneTable.unread_cons, Zone.len, List.length_cons] at hz hrest ⊢
    omega

namespace InWords

variable {α β : Type}

@[simp] theorem ok_bind (a : α) (f : α → Except Panic β) : (Except.ok a >>= f) = f a := rfl

@[simp] theorem pure_eq_ok (a : α) : (pure a : Except Panic α) = .ok a := rfl

def add (a b : Nat) : Except Panic Nat :=
  if a + b < Text.wordBound then .ok (a + b) else .error .overflow

def mul (a b : Nat) : Except Panic Nat :=
  if a * b < Text.wordBound then .ok (a * b) else .error .overflow

def sub (a b : Nat) : Except Panic Nat := if b ≤ a then .ok (a - b) else .error .underflow

theorem add_eq {a b : Nat} (h : a + b < Text.wordBound) : add a b = .ok (a + b) := if_pos h

theorem mul_eq {a b : Nat} (h : a * b < Text.wordBound) : mul a b = .ok (a * b) := if_pos h

theorem sub_eq {a b : Nat} (h : b ≤ a) : sub a b = .ok (a - b) := if_pos h

def alignDown (lba : Nat) : Except Panic Nat := sub lba (lba % blockSectors)

def len (z : Zone) : Except Panic Nat := sub z.stop z.start

def task (z : Zone) (d : Direction) : Except Panic Task := do
  let sectors := min (← len z) blockSectors
  match d with
  | .forward => return ⟨z.start, sectors, d⟩
  | .backward => return ⟨← sub z.stop sectors, sectors, d⟩

def trim (z : Zone) (sectors : Nat) (d : Direction) (failed : Bool) : Except Panic Zone := do
  let taken := min sectors (← len z)
  match d with
  | .forward => return { z with start := ← add z.start taken, startDefective := failed }
  | .backward => return { z with stop := ← sub z.stop taken, stopDefective := failed }

theorem alignDown_eq (lba : Nat) : alignDown lba = .ok (DriveRescue.alignDown lba) :=
  sub_eq (Nat.mod_le ..)

section
variable {z : Zone} {stop : Nat}

theorem len_eq (hz : z.start ≤ z.stop) : len z = .ok z.len := sub_eq hz

theorem task_eq (hz : z.start ≤ z.stop) (d : Direction) : task z d = .ok (z.task d) := by
  rw [task, len_eq hz, ok_bind]
  cases d with
  | forward => rfl
  | backward =>
    have hsectors : min z.len blockSectors ≤ z.stop := by
      unfold Zone.len
      omega
    simp only [sub_eq hsectors, ok_bind, pure_eq_ok]
    rfl

theorem trim_eq (hstop : Addressable stop) (hz : z.start ≤ z.stop) (hle : z.stop ≤ stop)
    (sectors : Nat) (d : Direction) (failed : Bool) :
    trim z sectors d failed = .ok (z.trim sectors d failed) := by
  have htaken : min sectors z.len ≤ z.stop - z.start := Nat.min_le_right ..
  rw [trim, len_eq hz, ok_bind]
  cases d with
  | forward =>
    have hsum : z.start + min sectors z.len < Text.wordBound := hstop.lt_word (by omega)
    simp only [add_eq hsum, ok_bind, pure_eq_ok]
    rfl
  | backward =>
    have hdifference : min sectors z.len ≤ z.stop := by omega
    simp only [sub_eq hdifference, ok_bind, pure_eq_ok]
    rfl

end

def unreadFrom : (sum : Nat) → List Zone → Except Panic Nat
  | sum, [] => return sum
  | sum, z :: rest => do unreadFrom (← add sum (← len z)) rest

def unread (t : ZoneTable) : Except Panic Nat := unreadFrom 0 t.zones

def afterInsert (cursor : Option Cursor) (i : Nat) : Except Panic (Option Cursor) :=
  match cursor with
  | none => return none
  | some c => if i < c.index then do return some { c with index := ← add c.index 1 } else return c

def afterErase? (cursor : Option Cursor) (i : Nat) : Except Panic (Option Cursor) :=
  match cursor with
  | none => return none
  | some c =>
    if c.index = i then return none
    else if i < c.index then do return some { c with index := ← sub c.index 1 }
    else return c

def divide? (t : ZoneTable) (i cut : Nat) : Except Panic (Option (Nat × ZoneTable)) :=
  if t.isFull then return none
  else match t.zones[i]? with
    | none => return none
    | some z => do
      let behind ← add i 1
      let cursor ← afterInsert t.cursor i
      return some (behind,
        ⟨t.zones.take i ++ z.leading cut :: z.trailing cut :: t.zones.drop behind, cursor⟩)

def split? (t : ZoneTable) (i cut : Nat) : Except Panic (Option (Nat × ZoneTable)) :=
  match t.zones[i]? with
  | none => return none
  | some z =>
    if cut % blockSectors ≠ 0 then return none
    else do
      let least ← add z.start blockSectors
      if cut ≤ least then return none
      else do
        let beyond ← add cut blockSectors
        if z.stop ≤ beyond then return none else divide? t i cut

def carve? (t : ZoneTable) (i cut : Nat) : Except Panic (Option (Nat × ZoneTable)) :=
  match t.zones[i]? with
  | none => return none
  | some z => if z.start < cut ∧ cut < z.stop then divide? t i cut else return none

def shrink (t : ZoneTable) (i sectors : Nat) (d : Direction) (failed : Bool) :
    Except Panic (Bool × ZoneTable) :=
  match t.zones[i]? with
  | none => return (false, t)
  | some z => do
    let z ← trim z sectors d failed
    if z.isEmpty then
      return (true, { zones := t.zones.eraseIdx i, cursor := ← afterErase? t.cursor i })
    else return (false, { t with zones := t.zones.set i z })

def currentTask? (t : ZoneTable) : Except Panic (Option Task) :=
  match t.cursor with
  | none => return none
  | some c =>
    match t.zones[c.index]? with
    | none => return none
    | some z => do return some (← task z c.direction)

def consume (t : ZoneTable) (task : Task) (failed : Bool) : Except Panic ZoneTable :=
  match t.holder? task with
  | some i => do return (← shrink t i task.sectors task.direction failed).2
  | none => return t

variable {t : ZoneTable} {zones : List Zone} {stop i cut : Nat}

theorem unreadFrom_eq (hnonempty : ∀ z ∈ zones, z.start < z.stop) {sum : Nat}
    (hsum : sum + ZoneTable.unread ⟨zones, none⟩ < Text.wordBound) :
    unreadFrom sum zones = .ok (sum + ZoneTable.unread ⟨zones, none⟩) := by
  induction zones generalizing sum with
  | nil => rfl
  | cons z rest ih =>
    have hz : z.start ≤ z.stop := Nat.le_of_lt (hnonempty z (by simp))
    rw [ZoneTable.unread_cons, ← Nat.add_assoc] at hsum ⊢
    have hone : sum + z.len < Text.wordBound := Nat.lt_of_le_of_lt (Nat.le_add_right ..) hsum
    rw [unreadFrom, len_eq hz, ok_bind, add_eq hone, ok_bind]
    exact ih (fun w hw => hnonempty w (by simp [hw])) hsum

theorem unread_eq (hstop : Addressable stop) (h : t.Below stop) : unread t = .ok t.unread := by
  have hle := h.unread_le
  rw [unread, unreadFrom_eq h.consistent.spaced.1 (hstop.lt_word ?_), Nat.zero_add]
  · rfl
  · show 0 + t.unread ≤ stop + blockSectors
    omega

theorem afterInsert_eq (hstop : Addressable stop) (h : t.Below stop) (i : Nat) :
    afterInsert t.cursor i = .ok (t.cursor.map (·.afterInsert i)) := by
  cases hcursor : t.cursor with
  | none => rfl
  | some c =>
    have hindex : c.index < t.size := h.consistent.cursor c hcursor
    have hsize := h.consistent.size_le_unread
    have hle := h.unread_le
    simp only [afterInsert, Option.map_some, Cursor.afterInsert]
    split
    · rw [add_eq (hstop.lt_word (by omega)), ok_bind]
      rfl
    · rfl

theorem afterErase?_eq (cursor : Option Cursor) (i : Nat) :
    afterErase? cursor i = .ok (cursor.bind (·.afterErase? i)) := by
  cases cursor with
  | none => rfl
  | some c =>
    simp only [afterErase?, Option.bind_some, Cursor.afterErase?]
    split
    · rfl
    · split
      · rw [sub_eq (by omega), ok_bind]
        rfl
      · rfl

theorem divide?_eq (hstop : Addressable stop) (h : t.Below stop) (i cut : Nat) :
    divide? t i cut = .ok (t.divide? i cut) := by
  unfold divide? ZoneTable.divide?
  split
  · rfl
  · cases hz : t.zones[i]? with
    | none => rfl
    | some z =>
      have hi : i < t.size := (List.getElem?_eq_some_iff.mp hz).1
      have hsize := h.consistent.size_le_unread
      have hle := h.unread_le
      have hbehind : i + 1 < Text.wordBound := hstop.lt_word (by omega)
      dsimp only
      rw [add_eq hbehind, ok_bind, afterInsert_eq hstop h, ok_bind]
      rfl

theorem split?_eq (hstop : Addressable stop) (h : t.Below stop) (hcut : cut ≤ stop) (i : Nat) :
    split? t i cut = .ok (t.split? i cut) := by
  unfold split? ZoneTable.split?
  cases hz : t.zones[i]? with
  | none => rfl
  | some z =>
    have hmem := List.mem_of_getElem? hz
    have hstart := h.consistent.spaced.1 z hmem
    have hle := h.stop_le z hmem
    have hleast : z.start + blockSectors < Text.wordBound := hstop.lt_word (by omega)
    have hbeyond : cut + blockSectors < Text.wordBound := hstop.lt_word (by omega)
    simp only [Option.bind_some, add_eq hleast, add_eq hbeyond, ok_bind, pure_eq_ok,
      divide?_eq hstop h]
    by_cases haligned : cut % blockSectors = 0
    · rw [if_neg (not_not_intro haligned)]
      by_cases hlo : z.start + blockSectors < cut
      · rw [if_neg (Nat.not_le_of_lt hlo)]
        by_cases hhi : cut + blockSectors < z.stop
        · rw [if_neg (Nat.not_le_of_lt hhi), if_pos ⟨haligned, hlo, hhi⟩]
        · rw [if_pos (Nat.le_of_not_lt hhi), if_neg fun hall => hhi hall.2.2]
      · rw [if_pos (Nat.le_of_not_lt hlo), if_neg fun hall => hlo hall.2.1]
    · rw [if_pos haligned, if_neg fun hall => haligned hall.1]

theorem carve?_eq (hstop : Addressable stop) (h : t.Below stop) (i cut : Nat) :
    carve? t i cut = .ok (t.carve? i cut) := by
  unfold carve? ZoneTable.carve?
  cases hz : t.zones[i]? with
  | none => rfl
  | some z =>
    simp only [Option.bind_some, divide?_eq hstop h]
    split <;> rfl

theorem shrink_eq (hstop : Addressable stop) (h : t.Below stop) (i sectors : Nat) (d : Direction)
    (failed : Bool) : shrink t i sectors d failed = .ok (t.shrink i sectors d failed) := by
  unfold shrink ZoneTable.shrink
  cases hz : t.zones[i]? with
  | none => rfl
  | some z =>
    have hmem := List.mem_of_getElem? hz
    have hstart := Nat.le_of_lt (h.consistent.spaced.1 z hmem)
    simp only [trim_eq hstop hstart (h.stop_le z hmem), ok_bind, afterErase?_eq, pure_eq_ok]
    split <;> rfl

theorem currentTask?_eq (hnonempty : ∀ z ∈ t.zones, z.start < z.stop) :
    currentTask? t = .ok t.currentTask? := by
  unfold currentTask? ZoneTable.currentTask?
  cases t.cursor with
  | none => rfl
  | some c =>
    cases hz : t.zones[c.index]? with
    | none => simp [hz]
    | some z =>
      have hstart := Nat.le_of_lt (hnonempty z (List.mem_of_getElem? hz))
      simp [hz, task_eq hstart]

theorem consume_eq (hstop : Addressable stop) (h : t.Below stop) (task : Task) (failed : Bool) :
    consume t task failed = .ok (t.consume task failed) := by
  unfold consume ZoneTable.consume
  cases t.holder? task with
  | none => rfl
  | some i =>
    dsimp only
    rw [shrink_eq hstop h, ok_bind]
    rfl

end InWords

end DriveRescue
