/-! Byte strings that are changed in place: file contents and journals. -/
namespace DriveRescue

abbrev Bytes := Array UInt8

namespace Bytes

def zeros (n : Nat) : Bytes := Array.replicate n 0

def range (b : Bytes) (start count : Nat) : Bytes := b.extract start (start + count)

private def fillLoop (value : UInt8) : (b : Bytes) → (start count : Nat) → Bytes
  | b, _, 0 => b
  | b, start, count + 1 => fillLoop value (b.setIfInBounds start value) (start + 1) count

def fill (b : Bytes) (start count : Nat) (value : UInt8) : Bytes :=
  fillLoop value b start (min (start + count) b.size - start)

/-- Cut off, or continued with zeros, to `n` bytes. -/
def resize (b : Bytes) (n : Nat) : Bytes :=
  if n < b.size then b.take n else b ++ zeros (n - b.size)

private def copyLoop (data : Bytes) : (b : Bytes) → (offset i count : Nat) → Bytes
  | b, _, _, 0 => b
  | b, offset, i, count + 1 =>
    copyLoop data (b.setIfInBounds (offset + i) (data.getD i 0)) offset (i + 1) count

/-- Puts `data` at `offset`. Bytes between the old end and `offset` become zeros. -/
def writeAt (b : Bytes) (offset : Nat) (data : Bytes) : Bytes :=
  if data.isEmpty then b
  else copyLoop data (b.resize (max b.size (offset + data.size))) offset 0 data.size

private theorem size_fillLoop (value : UInt8) (b : Bytes) (start count : Nat) :
    (fillLoop value b start count).size = b.size := by
  induction count generalizing b start with
  | zero => rfl
  | succ count ih => simp [fillLoop, ih]

@[simp] theorem size_fill (b : Bytes) (start count : Nat) (value : UInt8) :
    (b.fill start count value).size = b.size := size_fillLoop ..

private theorem getElem?_fillLoop (value : UInt8) (b : Bytes) (start count i : Nat) :
    (fillLoop value b start count)[i]? =
      if start ≤ i ∧ i < start + count ∧ i < b.size then some value else b[i]? := by
  induction count generalizing b start with
  | zero =>
    rw [if_neg (by omega)]
    rfl
  | succ count ih =>
    rw [fillLoop, ih, Array.size_setIfInBounds, Array.getElem?_setIfInBounds]
    split <;> split <;> grind

theorem getElem?_fill (b : Bytes) (start count i : Nat) (value : UInt8) :
    (b.fill start count value)[i]? =
      if start ≤ i ∧ i < start + count ∧ i < b.size then some value else b[i]? := by
  rw [fill, getElem?_fillLoop]
  congr 1
  simp only [eq_iff_iff]
  omega

@[simp] theorem size_resize (b : Bytes) (n : Nat) : (b.resize n).size = n := by
  unfold resize zeros
  split <;> simp <;> omega

theorem getElem?_resize (b : Bytes) (n i : Nat) :
    (b.resize n)[i]? = if i < n then some (b.getD i 0) else none := by
  unfold resize zeros
  rw [Array.getD_eq_getD_getElem?]
  split
  · rw [Array.take_eq_extract, Array.getElem?_extract]
    grind
  · rw [Array.getElem?_append]
    grind

private theorem size_copyLoop (data b : Bytes) (offset i count : Nat) :
    (copyLoop data b offset i count).size = b.size := by
  induction count generalizing b i with
  | zero => rfl
  | succ count ih => simp [copyLoop, ih]

theorem size_writeAt {data : Bytes} (h : data.size ≠ 0) (b : Bytes) (offset : Nat) :
    (b.writeAt offset data).size = max b.size (offset + data.size) := by
  rw [writeAt, if_neg (by simpa using h), size_copyLoop, size_resize]

private theorem getElem?_copyLoop (data b : Bytes) (offset i count k : Nat) :
    (copyLoop data b offset i count)[k]? =
      if offset + i ≤ k ∧ k < offset + i + count ∧ k < b.size then
        some (data.getD (k - offset) 0)
      else b[k]? := by
  induction count generalizing b i with
  | zero =>
    rw [if_neg (by omega)]
    rfl
  | succ count ih =>
    rw [copyLoop, ih, Array.size_setIfInBounds, Array.getElem?_setIfInBounds]
    split <;> split <;> grind

theorem getElem?_writeAt {data : Bytes} (h : data.size ≠ 0) (b : Bytes) (offset k : Nat) :
    (b.writeAt offset data)[k]? =
      if offset ≤ k ∧ k < offset + data.size then data[k - offset]?
      else if k < max b.size (offset + data.size) then some (b.getD k 0) else none := by
  rw [writeAt, if_neg (by simpa using h), getElem?_copyLoop, size_resize, getElem?_resize,
    Array.getD_eq_getD_getElem?]
  grind

/-- Where `data` is not put, bytes stay what they are, and those that are missing read as zero. -/
theorem getD_writeAt_of_not_mem {b data : Bytes} {offset k : Nat}
    (hk : ¬ (offset ≤ k ∧ k < offset + data.size)) :
    (b.writeAt offset data).getD k 0 = b.getD k 0 := by
  by_cases h : data.size = 0
  · rw [writeAt, if_pos (by simpa using h)]
  · rw [Array.getD_eq_getD_getElem?, getElem?_writeAt h, if_neg hk]
    split
    · rfl
    · rw [Array.getD_eq_getD_getElem?, Array.getElem?_eq_none (by omega)]

end Bytes

end DriveRescue
