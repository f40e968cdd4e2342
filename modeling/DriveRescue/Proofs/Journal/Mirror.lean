import DriveRescue.Proofs.Journal.Rebuild
import DriveRescue.Proofs.Strategy.Consumption
import Mathlib.Data.List.Forall2

/-! A journal and a zone table that say the same of a source. They are changed by separate hands,
the one by a record of the read and the other by the strategy, and go on saying the same. -/
namespace DriveRescue

structure Zone.MarkedAsIn (z w : Zone) : Prop where
  start : z.start = w.start
  stop : z.stop = w.stop
  startDefective : z.startDefective = true → w.startDefective = true
  stopDefective : z.stopDefective = true → w.stopDefective = true

namespace Journal

variable {j : Journal} {lba sectors x : Nat} {failed : Bool}

@[simp] theorem sectors_record (j : Journal) (lba sectors : Nat) (failed : Bool) :
    (j.record lba sectors failed).sectors = j.sectors := by simp [record, Journal.sectors]

@[simp] theorem sectors_overwrite (j : Journal) (offset : Nat) (data : Bytes) :
    (j.overwrite offset data).sectors = j.sectors := by
  unfold overwrite
  split
  · simp [Journal.sectors]
  · rfl

theorem getElem?_record (j : Journal) (lba sectors : Nat) (failed : Bool) (x : Nat) :
    (j.record lba sectors failed).bytes[x]? =
      if lba ≤ x ∧ x < lba + sectors ∧ x < j.sectors then
        some (SectorStatus.ofRead failed sectors).byte
      else j.bytes[x]? := Bytes.getElem?_fill ..

/-- A record leaves a byte as it is or gives it a status other than unread. -/
theorem getElem?_record_eq_zero_iff :
    (j.record lba sectors failed).bytes[x]? = some 0 ↔
      j.bytes[x]? = some 0 ∧ ¬ (lba ≤ x ∧ x < lba + sectors) := by
  rw [getElem?_record]
  split
  · next h => simp [SectorStatus.ofRead_byte_ne_zero, h.1, h.2.1]
  · next h =>
    refine ⟨fun hx => ⟨hx, fun hk => h ⟨hk.1, hk.2, ?_⟩⟩, And.left⟩
    exact (Array.getElem?_eq_some_iff.mp hx).1

theorem status_record_of_mem (hx : lba ≤ x ∧ x < lba + sectors) (hsize : x < j.sectors) :
    (j.record lba sectors failed).status x = some (SectorStatus.ofRead failed sectors) := by
  rw [status, getElem?_record, if_pos ⟨hx.1, hx.2, hsize⟩]
  exact SectorStatus.ofByte?_byte _

theorem status_record_of_not_mem (hx : ¬ (lba ≤ x ∧ x < lba + sectors)) :
    (j.record lba sectors failed).status x = j.status x := by
  rw [status, getElem?_record, if_neg (by tauto)]
  rfl

theorem failedAt_record_of_mem (hx : lba ≤ x ∧ x < lba + sectors) (hsize : x < j.sectors) :
    (j.record lba sectors failed).failedAt x = failed := by
  simp [failedAt, status_record_of_mem hx hsize, SectorStatus.ofRead_isFailure]

theorem failedAt_record_of_not_mem (hx : ¬ (lba ≤ x ∧ x < lba + sectors)) :
    (j.record lba sectors failed).failedAt x = j.failedAt x := by
  simp [failedAt, status_record_of_not_mem hx]

theorem not_failedAt_of_zero (h : j.bytes[x]? = some 0) : j.failedAt x = false := by
  simp [failedAt, status, h, SectorStatus.ofByte?, SectorStatus.isFailure]

structure Witnesses (j : Journal) (z : Zone) : Prop where
  start : z.startDefective = true → 0 < z.start ∧ j.failedAt (z.start - 1) = true
  stop : z.stopDefective = true → j.failedAt z.stop = true

theorem witnesses_zoneOfRun (j : Journal) (run : Nat × Nat) : j.Witnesses (j.zoneOfRun run) := by
  refine ⟨fun h => ?_, id⟩
  simpa [zoneOfRun] using h

theorem Witnesses.cut {z : Zone} (h : j.Witnesses z) (cut : Nat) :
    j.Witnesses (z.leading cut) ∧ j.Witnesses (z.trailing cut) :=
  ⟨⟨h.start, by simp [Zone.leading]⟩, ⟨by simp [Zone.trailing], h.stop⟩⟩

/-- A read of unread sectors leaves the failed ones as they are. -/
theorem Witnesses.record {z : Zone} (h : j.Witnesses z)
    (hunread : ∀ x, lba ≤ x ∧ x < lba + sectors → j.bytes[x]? = some 0) (failed : Bool) :
    (j.record lba sectors failed).Witnesses z := by
  have keeps {y : Nat} (hy : j.failedAt y = true) :
      (j.record lba sectors failed).failedAt y = true := by
    rwa [failedAt_record_of_not_mem]
    intro hmem
    simp [not_failedAt_of_zero (hunread y hmem)] at hy
  exact ⟨fun hz => ⟨(h.start hz).1, keeps (h.start hz).2⟩, fun hz => keeps (h.stop hz)⟩

/-- The new border of a zone that was read lies beside the sectors just recorded. -/
theorem Witnesses.after {z : Zone} (h : j.Witnesses z) (hz : z.start < z.stop)
    (hunread : ∀ x, z.start ≤ x ∧ x < z.stop → j.bytes[x]? = some 0) (d : Direction)
    (failed : Bool) :
    (j.record (z.task d).lba (z.task d).sectors failed).Witnesses (z.after d failed) := by
  have hpos := Zone.task_sectors_pos hz d
  have hsize {x : Nat} (hx : (z.task d).Spans x) : x < j.sectors :=
    (Array.getElem?_eq_some_iff.mp (hunread x (Zone.contains_of_task_spans hz hx))).1
  have hold := h.record (fun x hx => hunread x (Zone.contains_of_task_spans (d := d) hz hx)) failed
  have hnew {x : Nat} (hx : (z.task d).Spans x) (hf : failed = true) :
      (j.record (z.task d).lba (z.task d).sectors failed).failedAt x = true := by
    rw [failedAt_record_of_mem hx (hsize hx), hf]
  cases d with
  | forward =>
    rw [Zone.after_forward]
    refine ⟨fun hf => ⟨?_, hnew ?_ hf⟩, hold.stop⟩ <;>
      simp only [Task.Spans, Zone.task] at hpos ⊢ <;> omega
  | backward =>
    rw [Zone.after_backward]
    refine ⟨hold.start, fun hf => hnew ?_ hf⟩
    simp only [Task.Spans, Zone.task] at hpos ⊢
    omega

/-- The zones of the table are the unread runs from `start` on, and no mark is without a failed
sector beside it. -/
structure Mirrors (j : Journal) (start : Nat) (t : ZoneTable) : Prop where
  consistent : t.Consistent
  apart : Zone.Spaced 1 t.zones
  covered : ∀ x, Zone.Covered t.zones x ↔ start ≤ x ∧ j.bytes[x]? = some 0
  witnessed : ∀ z ∈ t.zones, j.Witnesses z

variable {start : Nat} {t t' : ZoneTable} {s s' : Strategy} {task : Task}

theorem mirrors_rebuild (j : Journal) (start : Nat) :
    j.Mirrors start (j.rebuild start j.sectors) where
  consistent := j.consistent_rebuild start j.sectors
  apart := j.spaced_rebuild start j.sectors
  covered x := by
    rw [covered_rebuild]
    refine ⟨fun h => ⟨h.1, h.2.2⟩, fun h => ⟨h.1, ?_, h.2⟩⟩
    exact (Array.getElem?_eq_some_iff.mp h.2).1
  witnessed z hz := by
    rw [j.mem_rebuild hz]
    exact j.witnesses_zoneOfRun _

theorem mirrors_ofRange {stop : Nat} (h : j.bytes = Bytes.zeros stop) (hlt : start < stop) :
    j.Mirrors start (.ofRange start stop) := by
  refine ⟨ZoneTable.consistent_ofRange start stop, ?_, fun x => ?_, fun z hz => ?_⟩
  · have hzones : (ZoneTable.ofRange start stop).zones = [.clean start stop] := by
      simp [ZoneTable.ofRange, ZoneTable.ofZones, Zone.clean, Zone.isEmpty, hlt]
    rw [hzones]
    exact Zone.spaced_cons.mpr ⟨hlt, by simp, Zone.spaced_nil 1⟩
  · simp only [ZoneTable.covered_ofRange, h, Bytes.zeros, Array.getElem?_replicate]
    split <;> simp <;> omega
  · obtain ⟨rfl, -⟩ := ZoneTable.mem_ofRange_zones.mp hz
    exact ⟨by simp [Zone.clean], by simp [Zone.clean]⟩

/-- A task is for sectors that the journal has as unread. -/
theorem Mirrors.unread_of_spans (h : j.Mirrors start t) (hn : s.next t = (.read task, s', t'))
    {x : Nat} (hx : task.Spans x) : start ≤ x ∧ j.bytes[x]? = some 0 :=
  (h.covered x).mp ((Strategy.covered_turn hn h.consistent false x).1 hx)

/-- A turn on the table and a record in the journal come to the same. -/
theorem Mirrors.turn (h : j.Mirrors start t) (hn : s.next t = (.read task, s', t'))
    (failed : Bool) :
    (j.record task.lba task.sectors failed).Mirrors start (s'.settle t' task failed).2 := by
  have hunread {x : Nat} (hx : task.Spans x) : j.bytes[x]? = some 0 := (h.unread_of_spans hn hx).2
  have hturn := Strategy.covered_turn hn h.consistent failed
  have hwitness := s.forall_zones_next h.witnessed fun z cut hz _ _ => hz.cut cut
  have hcovered := s.covered_next t
  rw [hn] at hwitness hcovered
  -- A cut leaves two zones that touch where the next read begins. It is the read, whatever comes of
  -- it, that parts them again.
  obtain ⟨l, z, r, d, rfl, hr, hp⟩ := Strategy.next_poised hn h.apart
  refine ⟨Strategy.consistent_settle hr hp s' failed, ?_, fun x => ?_, fun w hw => ?_⟩
  · rw [Strategy.settle_zones]
    exact hr.spaced_consume hp (Nat.le_refl 1) failed
  · rw [(hturn x).2, h.covered x, getElem?_record_eq_zero_iff, and_assoc]
    rfl
  · rw [Strategy.settle_zones] at hw
    rcases hr.mem_consume hp.nonempty hw with rfl | hw
    · have hz : z ∈ t'.zones := by simp [hr.zones]
      refine (hwitness z hz).after hp.nonempty (fun x hx => ?_) d failed
      exact ((h.covered x).mp ((hcovered x).mp ⟨z, hz, hx⟩)).2
    · refine (hwitness w ?_).record (fun x hx => hunread hx) failed
      rw [hr.zones]
      simp only [List.mem_append, List.mem_cons] at hw ⊢
      tauto

/-- A table that mirrors the journal is the table the journal yields, but for marks that the journal
has and the table has lost. -/
theorem Mirrors.forall₂_rebuild (h : j.Mirrors start t) :
    List.Forall₂ Zone.MarkedAsIn t.zones (j.rebuild start j.sectors).zones := by
  have hbounds := h.apart.bounds_eq (j.spaced_rebuild start j.sectors) fun x => by
    rw [h.covered x, (j.mirrors_rebuild start).covered x]
  rw [List.forall₂_iff_zip] at hbounds ⊢
  refine ⟨hbounds.1, fun {live rebuilt} hmem => ?_⟩
  obtain ⟨hstart, hstop⟩ := hbounds.2 hmem
  have hw := h.witnessed live (List.of_mem_zip hmem).1
  have hz := j.mem_rebuild (List.of_mem_zip hmem).2
  refine ⟨hstart, hstop, fun hm => ?_, fun hm => ?_⟩
  · have := hw.start hm
    rw [hz]
    simpa [zoneOfRun, ← hstart] using this
  · have := hw.stop hm
    rw [hz]
    simpa [zoneOfRun, ← hstop] using this

end Journal

end DriveRescue
