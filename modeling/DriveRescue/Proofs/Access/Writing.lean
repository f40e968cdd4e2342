import DriveRescue.Access
import Mathlib.Tactic.Common

/-! What a write that is repeated until all is taken does to a target, however little each single
write takes. -/
namespace DriveRescue

namespace Bytes

/-- Data may be put in two parts, one behind the other. -/
theorem writeAt_writeAt_drop (b data : Bytes) {offset n : Nat} (hpos : 0 < n)
    (hn : n < data.size) :
    (b.writeAt offset (data.take n)).writeAt (offset + n) (data.drop n) =
      b.writeAt offset data := by
  have htake : (data.take n).size = n := by simp; omega
  have hdrop : (data.drop n).size = data.size - n := by simp
  apply Array.ext_getElem?
  intro k
  rw [getElem?_writeAt (by omega), getElem?_writeAt (by omega)]
  by_cases hsecond : offset + n ≤ k ∧ k < offset + n + (data.drop n).size
  · rw [if_pos hsecond, if_pos (by omega), Array.drop_eq_extract, Array.getElem?_extract]
    grind
  · rw [if_neg hsecond]
    have hpart : (data.take n).size ≠ 0 := by omega
    rw [Array.getD_eq_getD_getElem?, size_writeAt hpart, getElem?_writeAt hpart, htake,
      Array.take_eq_extract, Array.getElem?_extract]
    grind

end Bytes

namespace Target

variable {t : Target} {offset : Nat} {data : Bytes}

theorem write_file (t : Target) (offset : Nat) (data : Bytes) :
    (t.write offset data).2.file = t.file := by
  unfold write
  split <;> rfl

/-- What a write takes is a first part of the data. -/
theorem write_some {taken : Nat} {u : Target} (h : t.write offset data = (some taken, u)) :
    taken ≤ data.size ∧ u.contents = t.contents.writeAt offset (data.take taken) := by
  simp only [write] at h
  split at h
  · simp at h
  · obtain ⟨rfl, rfl⟩ := h
    refine ⟨Nat.min_le_right .., ?_⟩
    split
    · next hall => simp [hall]
    · rfl

theorem write_none {u : Target} (h : t.write offset data = (none, u)) :
    u.contents = t.contents := by
  simp only [write] at h
  split at h
  · obtain ⟨-, rfl⟩ := h
    rfl
  · simp at h

theorem writeAll_file (t : Target) (offset : Nat) (data : Bytes) :
    (t.writeAll offset data).2.file = t.file := by
  fun_induction writeAll t offset data with
  | case1 => rfl
  | case2 t offset data hpos u hw => simpa [hw] using t.write_file offset data
  | case3 t offset data hpos u hw => simpa [hw] using t.write_file offset data
  | case4 t offset data hpos taken u hw => simpa [hw] using t.write_file offset data
  | case5 t offset data hpos taken u hw hsome hmore ih =>
    rw [ih]
    simpa [hw] using t.write_file offset data

/-- A target that takes everything at once is written to but once. -/
theorem writeAll_of_accepts (hdata : data.size ≠ 0)
    (h : t.accepts t.writes offset data.size = some data.size) :
    t.writeAll offset data =
      (true, { t with contents := t.contents.writeAt offset data, writes := t.writes + 1 }) := by
  rw [writeAll, if_neg hdata]
  simp [write, h, hdata]

/-- Whatever came of it, bytes outside the place of the data stay. -/
theorem getD_writeAll {k : Nat} (hk : ¬ (offset ≤ k ∧ k < offset + data.size)) :
    (t.writeAll offset data).2.contents.getD k 0 = t.contents.getD k 0 := by
  fun_induction writeAll t offset data with
  | case1 => rfl
  | case2 t offset data hpos u hw => rw [write_none hw]
  | case3 t offset data hpos u hw =>
    rw [(write_some hw).2, Bytes.getD_writeAt_of_not_mem]
    simp
  | case4 t offset data hpos taken u hw htaken hall =>
    rw [(write_some hw).2, Bytes.getD_writeAt_of_not_mem]
    simp; omega
  | case5 t offset data hpos taken u hw htaken hmore ih =>
    rw [ih (by simp; omega), (write_some hw).2, Bytes.getD_writeAt_of_not_mem]
    simp; omega

/-- A write that has not failed put all of the data in their place. -/
theorem writeAll_contents (h : (t.writeAll offset data).1 = true) :
    (t.writeAll offset data).2.contents = t.contents.writeAt offset data := by
  fun_induction writeAll t offset data with
  | case1 t offset data hempty => simp [Bytes.writeAt, Array.eq_empty_of_size_eq_zero hempty]
  | case2 t offset data hpos u hw => simp at h
  | case3 t offset data hpos u hw => simp at h
  | case4 t offset data hpos taken u hw htaken hall =>
    rw [(write_some hw).2, Array.take_eq_extract, Array.extract_eq_self_of_le hall]
  | case5 t offset data hpos taken u hw htaken hmore ih =>
    rw [ih h, (write_some hw).2, Bytes.writeAt_writeAt_drop] <;> omega

end Target

end DriveRescue
