import DriveRescue.Strategy.Policy
import Mathlib.Data.List.InsertIdx
import Mathlib.Tactic.Common

/-! What a strategy sees of a table. One that reads upwards only takes no account of the marks at
the stops of zones: tables that differ in nothing else are read alike. -/
namespace DriveRescue

namespace Zone

/-- The zone without the mark at its stop. -/
def blurred (z : Zone) : Zone := { z with stopDefective := false }

@[simp] theorem blurred_start (z : Zone) : z.blurred.start = z.start := rfl

@[simp] theorem blurred_stop (z : Zone) : z.blurred.stop = z.stop := rfl

@[simp] theorem blurred_startDefective (z : Zone) :
    z.blurred.startDefective = z.startDefective := rfl

@[simp] theorem blurred_len (z : Zone) : z.blurred.len = z.len := rfl

@[simp] theorem blurred_contains (z : Zone) : z.blurred.contains = z.contains := rfl

@[simp] theorem blurred_blurred (z : Zone) : z.blurred.blurred = z.blurred := rfl

@[simp] theorem blurred_task (z : Zone) (d : Direction) : z.blurred.task d = z.task d := by
  cases d <;> rfl

@[simp] theorem leading_blurred (z : Zone) (cut : Nat) :
    z.blurred.leading cut = (z.leading cut).blurred := rfl

@[simp] theorem trailing_blurred (z : Zone) (cut : Nat) :
    z.blurred.trailing cut = (z.trailing cut).blurred := rfl

theorem trim_isEmpty_blurred (z : Zone) (sectors : Nat) (d : Direction) (failed : Bool) :
    (z.blurred.trim sectors d failed).isEmpty = (z.trim sectors d failed).isEmpty := by
  cases d <;> rfl

theorem trim_blurred (z : Zone) (sectors : Nat) (d : Direction) (failed : Bool) :
    (z.blurred.trim sectors d failed).blurred = (z.trim sectors d failed).blurred := by
  cases d <;> rfl

end Zone

namespace ZoneTable

/-- The table without the marks at the stops of its zones. -/
def blurred (t : ZoneTable) : ZoneTable := { t with zones := t.zones.map Zone.blurred }

/-- What is seen of a table by a strategy that reads downwards or does not. -/
def seen (t : ZoneTable) (down : Bool) : ZoneTable := if down then t else t.blurred

variable {t u : ZoneTable}

@[simp] theorem blurred_blurred (t : ZoneTable) : t.blurred.blurred = t.blurred := by
  simp [blurred, Function.comp_def]

theorem getElem?_blurred (t : ZoneTable) (i : Nat) :
    t.blurred.zones[i]? = t.zones[i]?.map Zone.blurred := by simp [blurred]

theorem blurred_cursor (t : ZoneTable) : t.blurred.cursor = t.cursor := rfl

@[simp] theorem currentTask?_blurred (t : ZoneTable) :
    t.blurred.currentTask? = t.currentTask? := by
  simp [currentTask?, getElem?_blurred, blurred_cursor, Function.comp_def]

@[simp] theorem isEmpty_blurred (t : ZoneTable) : t.blurred.isEmpty = t.isEmpty := by
  simp [isEmpty, blurred]

@[simp] theorem isFull_blurred (t : ZoneTable) : t.blurred.isFull = t.isFull := by
  have hsize : t.blurred.size = t.size := List.length_map ..
  rw [isFull, isFull, hsize]

@[simp] theorem select_blurred (t : ZoneTable) (i : Nat) (d : Direction) :
    t.blurred.select i d = (t.select i d).blurred := rfl

@[simp] theorem cleanBorder?_blurred (t : ZoneTable) :
    t.blurred.cleanBorder? false = t.cleanBorder? false := by
  simp [cleanBorder?, blurred, List.findIdx?_map, Function.comp_def]

theorem longest?_map_blurred (zones : List Zone) :
    longest? (zones.map Zone.blurred) = longest? zones := by
  induction zones with
  | nil => rfl
  | cons z rest ih =>
    rw [List.map_cons, longest?, longest?, ih]
    rfl

theorem divide?_blurred (t : ZoneTable) (i cut : Nat) :
    t.blurred.divide? i cut = (t.divide? i cut).map (Prod.map id blurred) := by
  simp only [divide?, isFull_blurred, getElem?_blurred]
  split
  · rfl
  · cases t.zones[i]? with
    | none => rfl
    | some z => simp [blurred]

theorem split?_blurred (t : ZoneTable) (i cut : Nat) :
    t.blurred.split? i cut = (t.split? i cut).map (Prod.map id blurred) := by
  simp only [split?, getElem?_blurred, divide?_blurred]
  cases t.zones[i]? with
  | none => rfl
  | some z =>
    by_cases hcut : cut % blockSectors = 0 ∧ z.start + blockSectors < cut ∧
        cut + blockSectors < z.stop <;> simp [hcut]

theorem carve?_blurred (t : ZoneTable) (i cut : Nat) :
    t.blurred.carve? i cut = (t.carve? i cut).map (Prod.map id blurred) := by
  simp only [carve?, getElem?_blurred, divide?_blurred]
  cases t.zones[i]? with
  | none => rfl
  | some z => by_cases hcut : z.start < cut ∧ cut < z.stop <;> simp [hcut]

theorem probeMiddle?_blurred (t : ZoneTable) :
    t.blurred.probeMiddle? = t.probeMiddle?.map blurred := by
  have hlongest : longest? t.blurred.zones = longest? t.zones := longest?_map_blurred t.zones
  simp only [probeMiddle?, hlongest, getElem?_blurred, split?_blurred]
  cases longest? t.zones with
  | none => rfl
  | some found =>
    obtain ⟨i, n⟩ := found
    simp only [Option.bind_some]
    split
    · rfl
    · cases t.zones[i]? with
      | none => rfl
      | some z => simp [Function.comp_def]

theorem leap?_blurred (t : ZoneTable) (full : Bool) (skip i : Nat) (zones : List Zone) :
    t.blurred.leap? false full skip i (zones.map Zone.blurred) =
      (t.leap? false full skip i zones).map blurred := by
  induction zones generalizing i with
  | nil => rfl
  | cons z rest ih =>
    rw [List.map_cons, leap?, leap?]
    simp only [Bool.false_and, Bool.false_eq_true, ↓reduceIte, carve?_blurred, ih,
      Zone.blurred_startDefective, Zone.blurred_start]
    have hcarved : (if skip < z.blurred.len && !full then
          (t.carve? i (alignDown (z.start + skip))).map (Prod.map id blurred) else none) =
        (if skip < z.len && !full then t.carve? i (alignDown (z.start + skip))
          else none).map (Prod.map id blurred) := by
      rw [Zone.blurred_len]
      split <;> rfl
    rw [hcarved]
    split
    · rfl
    · cases (if skip < z.len && !full then t.carve? i (alignDown (z.start + skip)) else none) with
      | none => rfl
      | some u => rfl

theorem shrink_blurred (t : ZoneTable) (i sectors : Nat) (d : Direction) (failed : Bool) :
    (t.blurred.shrink i sectors d failed).2.blurred = (t.shrink i sectors d failed).2.blurred := by
  simp only [shrink, getElem?_blurred]
  cases t.zones[i]? with
  | none => exact t.blurred_blurred
  | some z =>
    simp only [Option.map_some, Zone.trim_isEmpty_blurred]
    split
    · simp [blurred, List.eraseIdx_map, Function.comp_def]
    · simp [blurred, List.map_set, Zone.trim_blurred, Function.comp_def]

theorem holder?_blurred (t : ZoneTable) (task : Task) :
    t.blurred.holder? task = t.holder? task := by
  simp only [holder?, blurred_cursor, getElem?_blurred, Option.any_map]
  simp [blurred, List.findIdx?_map, Function.comp_def]

theorem consume_blurred (t : ZoneTable) (task : Task) (failed : Bool) :
    (t.blurred.consume task failed).blurred = (t.consume task failed).blurred := by
  simp only [consume, holder?_blurred]
  cases t.holder? task with
  | none => exact t.blurred_blurred
  | some i => exact shrink_blurred ..

/-- Tables that look alike still do after the outcome of a task was taken in. -/
theorem seen_consume {down : Bool} (h : t.seen down = u.seen down) (task : Task) (failed : Bool) :
    (t.consume task failed).seen down = (u.consume task failed).seen down := by
  cases down with
  | true =>
    have htu : t = u := h
    rw [htu]
  | false =>
    have htu : t.blurred = u.blurred := h
    change (t.consume task failed).blurred = (u.consume task failed).blurred
    rw [← consume_blurred, htu, consume_blurred]

theorem seen_release (t : ZoneTable) (down : Bool) :
    t.release.seen down = (t.seen down).release := by
  cases down <;> rfl

theorem seen_zones_length {down : Bool} (h : t.seen down = u.seen down) :
    t.zones.length = u.zones.length := by
  have hlen := congrArg (·.zones.length) h
  cases down <;> simpa [seen, blurred] using hlen

end ZoneTable

namespace Strategy

def readsDown (s : Strategy) : Bool := s.kind.allowsReverse

theorem readsDown_smart (reverse fallback : Bool) :
    (smart reverse fallback).readsDown = reverse := by
  cases reverse <;> rfl

theorem readsDown_skipFail (reverse : Bool) (skipBlocks : Nat) :
    (skipFail reverse skipBlocks).readsDown = reverse := by
  cases reverse <;> rfl

theorem choose_blurred {s : Strategy} (h : s.readsDown = false) (t : ZoneTable) :
    s.choose t.blurred = ((s.choose t).1, (s.choose t).2.blurred) := by
  cases s with
  | plain => rfl
  | smart reverse fallback =>
    rw [readsDown_smart] at h
    subst h
    cases fallback with
    | true => rfl
    | false =>
      simp only [choose, ZoneTable.cleanBorder?_blurred, ZoneTable.probeMiddle?_blurred]
      cases t.cleanBorder? false with
      | some c => rfl
      | none =>
        cases t.probeMiddle? with
        | none => rfl
        | some u => rfl
  | skipFail reverse skipBlocks =>
    rw [readsDown_skipFail] at h
    subst h
    have hscan := t.leap?_blurred t.isFull (skipSectors skipBlocks) 0 t.zones
    have hzones : t.blurred.zones = t.zones.map Zone.blurred := rfl
    simp only [choose, ZoneTable.isFull_blurred, hzones, hscan]
    cases t.leap? false t.isFull (skipSectors skipBlocks) 0 t.zones with
    | some u => rfl
    | none =>
      simp only [Option.map_none]
      split <;> rfl

theorem next_blurred {s : Strategy} (h : s.readsDown = false) (t : ZoneTable) :
    s.next t.blurred = ((s.next t).1, (s.next t).2.1, (s.next t).2.2.blurred) := by
  simp only [next, ZoneTable.currentTask?_blurred, ZoneTable.isEmpty_blurred, choose_blurred h]
  cases t.currentTask? with
  | some task => rfl
  | none =>
    simp only
    split <;> rfl

/-- A strategy asks for the same in tables that look alike to it. -/
theorem next_seen {s : Strategy} {t u : ZoneTable} (h : t.seen s.readsDown = u.seen s.readsDown) :
    (s.next t).1 = (s.next u).1 ∧
      (s.next t).2.2.seen s.readsDown = (s.next u).2.2.seen s.readsDown := by
  cases hdown : s.readsDown with
  | true =>
    have htu : t = u := by simpa [hdown, ZoneTable.seen] using h
    exact ⟨by rw [htu], by rw [htu]⟩
  | false =>
    have htu : t.blurred = u.blurred := by simpa [hdown, ZoneTable.seen] using h
    have ht := next_blurred hdown t
    have hu := next_blurred hdown u
    rw [htu, hu] at ht
    simp only [Prod.mk.injEq] at ht
    exact ⟨ht.1.symm, ht.2.2.symm⟩

end Strategy

end DriveRescue
