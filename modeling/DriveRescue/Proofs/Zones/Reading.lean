import DriveRescue.Proofs.Zones.Spacing

/-! A table whose selected zone is read: the next task is an end of that zone, and taking in its
outcome takes exactly the task's sectors away. -/
namespace DriveRescue

namespace Task

/-- The sectors a task reads. -/
def Spans (k : Task) (x : Nat) : Prop := k.lba ≤ x ∧ x < k.lba + k.sectors

/-- The first sectors of a zone for a task upwards, its last ones for a task downwards. -/
def IsEndOf (k : Task) (z : Zone) : Prop :=
  match k.direction with
  | .forward => k.lba = z.start ∧ k.lba + k.sectors ≤ z.stop
  | .backward => z.start ≤ k.lba ∧ k.lba + k.sectors = z.stop

end Task

namespace Zone

def after (z : Zone) (d : Direction) (failed : Bool) : Zone := z.trim (z.task d).sectors d failed

@[simp] theorem task_sectors (z : Zone) (d : Direction) :
    (z.task d).sectors = min z.len blockSectors := by cases d <;> rfl

@[simp] theorem task_direction (z : Zone) (d : Direction) : (z.task d).direction = d := by
  cases d <;> rfl

theorem task_isEndOf (z : Zone) (d : Direction) (hz : z.start < z.stop) :
    (z.task d).IsEndOf z := by
  cases d with
  | forward => exact ⟨rfl, by simp only [task, len]; omega⟩
  | backward => exact ⟨by simp only [task, len]; omega, by simp only [task, len]; omega⟩

theorem task_sectors_pos {z : Zone} (hz : z.start < z.stop) (d : Direction) :
    0 < (z.task d).sectors := by
  simp only [task_sectors, len, blockSectors]
  omega

theorem contains_of_task_spans {z : Zone} {d : Direction} {x : Nat} (hz : z.start < z.stop)
    (hx : (z.task d).Spans x) : z.start ≤ x ∧ x < z.stop := by
  cases d <;> simp only [Task.Spans, task, len] at hx <;> omega

theorem contains_task_lba {z : Zone} (hz : z.start < z.stop) (d : Direction) :
    z.contains (z.task d).lba = true := by
  have hpos := task_sectors_pos hz d
  exact contains_iff.mpr (contains_of_task_spans (d := d) hz ⟨Nat.le_refl _, by omega⟩)

theorem after_forward (z : Zone) (failed : Bool) :
    z.after .forward failed =
      ⟨z.start + min z.len blockSectors, z.stop, failed, z.stopDefective⟩ := by
  simp [after, trim]

theorem after_backward (z : Zone) (failed : Bool) :
    z.after .backward failed =
      ⟨z.start, z.stop - min z.len blockSectors, z.startDefective, failed⟩ := by
  simp [after, trim]

/-- A read leaves the rest of a zone, and no more. -/
theorem after_iff {z : Zone} (hz : z.start < z.stop) (d : Direction) (failed : Bool) (x : Nat) :
    ((z.after d failed).start ≤ x ∧ x < (z.after d failed).stop) ↔
      (z.start ≤ x ∧ x < z.stop) ∧ ¬ (z.task d).Spans x := by
  cases d <;> simp only [after_forward, after_backward, Task.Spans, task, len] <;> omega

theorem after_len {z : Zone} (hz : z.start < z.stop) (d : Direction) (failed : Bool) :
    (z.after d failed).len + (z.task d).sectors = z.len := by
  cases d <;> simp only [after_forward, after_backward, task, len] <;> omega

/-- Reading on moves a border away from the neighbour that it may have touched. -/
theorem Poised.spaced_after {gap : Nat} {l : List Zone} {z : Zone} {r : List Zone} {d : Direction}
    (h : Poised gap l z r d) (hgap : gap ≤ 1) {failed : Bool}
    (hne : (z.after d failed).start < (z.after d failed).stop) :
    Spaced gap (l ++ z.after d failed :: r) := by
  obtain ⟨hl, hr, hlr⟩ := spaced_append.mp h.others
  have hz := h.nonempty
  refine spaced_append.mpr ⟨hl, spaced_cons.mpr ⟨hne, ?_, hr⟩, ?_⟩
  · intro b hb
    have hab := h.above b hb
    cases d with
    | forward => simpa [after_forward] using hab
    | backward =>
      simp only [reduceCtorEq, ↓reduceIte] at hab
      simp only [after_backward, len, blockSectors]
      omega
  · intro a ha b hb
    rcases List.mem_cons.mp hb with rfl | hb
    · have hbe := h.below a ha
      cases d with
      | forward =>
        simp only [reduceCtorEq, ↓reduceIte] at hbe
        simp only [after_forward, len, blockSectors]
        omega
      | backward => simpa [after_backward] using hbe
    · exact hlr a ha b hb

end Zone

namespace ZoneTable

/-- The zone `z` is read in direction `d`; `l` lies below it and `r` above. -/
structure Reading (t : ZoneTable) (l : List Zone) (z : Zone) (r : List Zone) (d : Direction) :
    Prop where
  zones : t.zones = l ++ z :: r
  cursor : t.cursor = some ⟨l.length, d⟩

variable {t : ZoneTable} {l r : List Zone} {z : Zone} {d : Direction}

theorem Reading.getElem? (h : t.Reading l z r d) : t.zones[l.length]? = some z := by
  simp [h.zones]

theorem Reading.currentTask? (h : t.Reading l z r d) : t.currentTask? = some (z.task d) := by
  simp [ZoneTable.currentTask?, h.cursor, h.getElem?]

/-- A zone found at an index stands between the zones before and behind it. -/
theorem zones_eq_of_getElem? {zones : List Zone} {i : Nat} (h : zones[i]? = some z) :
    ∃ l r, zones = l ++ z :: r ∧ l.length = i := by
  obtain ⟨hi, rfl⟩ := List.getElem?_eq_some_iff.mp h
  refine ⟨zones.take i, zones.drop (i + 1), ?_, by simp [Nat.le_of_lt hi]⟩
  rw [List.getElem_cons_drop, List.take_append_drop]

theorem exists_reading {task : Task} (h : t.currentTask? = some task) :
    ∃ l z r d, t.Reading l z r d ∧ task = z.task d := by
  obtain ⟨⟨i, d⟩, hc, h⟩ := Option.bind_eq_some_iff.mp h
  obtain ⟨z, hz, rfl⟩ := Option.map_eq_some_iff.mp h
  obtain ⟨l, r, hlr, rfl⟩ := zones_eq_of_getElem? hz
  exact ⟨l, z, r, d, ⟨hlr, hc⟩, rfl⟩

/-- The outcome of the current task goes to the selected zone, which is dropped once it is used
up. -/
theorem Reading.consume (h : t.Reading l z r d) (hz : z.start < z.stop) (failed : Bool) :
    t.consume (z.task d) failed =
      if (z.after d failed).isEmpty then ⟨l ++ r, none⟩
      else ⟨l ++ z.after d failed :: r, some ⟨l.length, d⟩⟩ := by
  have hold : t.holder? (z.task d) = some l.length := by
    simp only [holder?, h.cursor, h.getElem?, Option.any_some, Zone.contains_task_lba hz,
      ↓reduceIte]
  simp only [ZoneTable.consume, hold, shrink, h.getElem?, Zone.task_direction]
  change (if (z.after d failed).isEmpty then _ else _ : Bool × ZoneTable).2 = _
  split
  · simp [h.zones, h.cursor, List.eraseIdx_append_of_length_le, Cursor.afterErase?]
  · simp [h.zones, h.cursor, Zone.after]

theorem Reading.mem_consume (h : t.Reading l z r d) (hz : z.start < z.stop) {failed : Bool}
    {w : Zone} (hw : w ∈ (t.consume (z.task d) failed).zones) :
    w = z.after d failed ∨ w ∈ l ++ r := by
  rw [h.consume hz] at hw
  split at hw
  · exact .inr hw
  · simp only [List.mem_append, List.mem_cons] at hw ⊢
    tauto

theorem Reading.spaced_consume {gap : Nat} (h : t.Reading l z r d)
    (hp : Zone.Poised gap l z r d) (hgap : gap ≤ 1) (failed : Bool) :
    Zone.Spaced gap (t.consume (z.task d) failed).zones := by
  rw [h.consume hp.nonempty]
  split
  · exact hp.others
  · next he => exact hp.spaced_after hgap (by simpa using he)

/-- A sector is unread after the read if it was and the task did not span it. -/
theorem Reading.covered_consume {gap : Nat} (h : t.Reading l z r d)
    (hp : Zone.Poised gap l z r d) (failed : Bool) (x : Nat) :
    Zone.Covered (t.consume (z.task d) failed).zones x ↔
      Zone.Covered t.zones x ∧ ¬ (z.task d).Spans x := by
  have hz := hp.nonempty
  have hrest := Zone.after_iff hz d failed x
  have houtside : Zone.Covered (l ++ r) x → ¬ (z.task d).Spans x := by
    intro hx hk
    have hk := Zone.contains_of_task_spans hz hk
    rcases Zone.covered_append.mp hx with ⟨a, ha, hax⟩ | ⟨b, hb, hbx⟩
    · have := hp.below a ha
      omega
    · have := hp.above b hb
      omega
  rw [h.consume hz, h.zones]
  simp only [Zone.covered_append, Zone.covered_cons] at houtside ⊢
  split
  · next he =>
    simp only [Zone.isEmpty_iff] at he
    simp only [Zone.covered_append]
    constructor
    · intro hx
      exact ⟨by tauto, houtside hx⟩
    · rintro ⟨hx, hk⟩
      have : ¬ (z.start ≤ x ∧ x < z.stop) := fun hzx => by
        have := hrest.mpr ⟨hzx, hk⟩
        omega
      tauto
  · simp only [Zone.covered_append, Zone.covered_cons, hrest]
    tauto

theorem unread_append (l r : List Zone) (c : Option Cursor) :
    unread ⟨l ++ r, c⟩ = unread ⟨l, none⟩ + unread ⟨r, none⟩ := by
  simp only [unread]
  induction l with
  | nil => simp
  | cons a l ih => simp only [List.cons_append, List.foldr_cons, ih, Nat.add_assoc]

theorem unread_cons (z : Zone) (r : List Zone) (c : Option Cursor) :
    unread ⟨z :: r, c⟩ = z.len + unread ⟨r, none⟩ := rfl

theorem unread_congr {t u : ZoneTable} (h : t.zones = u.zones) : t.unread = u.unread := by
  simp [unread, h]

theorem unread_ofRange (start stop : Nat) : (ofRange start stop).unread = stop - start := by
  unfold ofRange ofZones
  by_cases h : start < stop
  · simp [Zone.clean, Zone.isEmpty, h, unread, Zone.len]
  · simp [Zone.clean, Zone.isEmpty, h, unread]
    omega

theorem Consistent.unread_eq_zero_iff {t : ZoneTable} (h : t.Consistent) :
    t.unread = 0 ↔ t.zones = [] := by
  obtain ⟨zones, cursor⟩ := t
  cases zones with
  | nil => exact ⟨fun _ => rfl, fun _ => rfl⟩
  | cons z rest =>
    have hpos := h.spaced.1 z (by simp)
    rw [unread_cons, Zone.len]
    constructor
    · intro hzero
      omega
    · intro hempty
      cases hempty

theorem Reading.unread_consume (h : t.Reading l z r d) (hz : z.start < z.stop) (failed : Bool) :
    (t.consume (z.task d) failed).unread + (z.task d).sectors = t.unread := by
  have hlen := Zone.after_len hz d failed
  rw [h.consume hz, unread_congr (u := ⟨l ++ z :: r, none⟩) h.zones, unread_append, unread_cons]
  split
  · next he =>
    have hnone : (z.after d failed).len = 0 := Nat.sub_eq_zero_of_le (by simpa using he)
    rw [unread_append]
    omega
  · rw [unread_append, unread_cons]
    omega

end ZoneTable

end DriveRescue
