import DriveRescue.Proofs.Journal.Mirror
import DriveRescue.Proofs.Strategy.Sight

/-! What the marks at zone borders say of the sectors beyond them. Where they say all that the
journal knows, the table that the journal yields is seen as the live one. -/
namespace DriveRescue

namespace Zone

def mark (z : Zone) : Direction → Bool
  | .forward => z.startDefective
  | .backward => z.stopDefective

/-- The sector beyond that border, unless the zone begins with the first sector of all. -/
def beyond? (z : Zone) : Direction → Option Nat
  | .forward => if z.start = 0 then none else some (z.start - 1)
  | .backward => some z.stop

end Zone

namespace Journal

variable {j : Journal} {z w : Zone} {d e : Direction} {failed : Bool}

/-- The mark says whether the journal knows of a failure beyond the border. -/
def Knows (j : Journal) (d : Direction) (z : Zone) : Prop :=
  z.mark d = (z.beyond? d).any j.failedAt

theorem knows_zoneOfRun (j : Journal) (run : Nat × Nat) (d : Direction) :
    j.Knows d (j.zoneOfRun run) := by
  cases d with
  | backward => rfl
  | forward =>
    by_cases hzero : run.1 = 0 <;>
      simp [Knows, Zone.mark, Zone.beyond?, zoneOfRun, hzero, Nat.pos_iff_ne_zero]

theorem Knows.eq_zoneOfRun (hstart : j.Knows .forward z) (hstop : j.Knows .backward z) :
    z = j.zoneOfRun (z.start, z.stop) := by
  have hstart' : z.mark .forward = (j.zoneOfRun (z.start, z.stop)).mark .forward :=
    hstart.trans (j.knows_zoneOfRun (z.start, z.stop) .forward).symm
  have hstop' : z.mark .backward = (j.zoneOfRun (z.start, z.stop)).mark .backward :=
    hstop.trans (j.knows_zoneOfRun (z.start, z.stop) .backward).symm
  cases z
  simp only [zoneOfRun, Zone.mark, Zone.mk.injEq] at hstart' hstop' ⊢
  exact ⟨trivial, trivial, hstart', hstop'⟩

/-- Beyond the new borders of a cut lie unread sectors. -/
theorem Knows.cut {cut : Nat} (h : j.Knows d z)
    (hunread : ∀ x, z.start ≤ x ∧ x < z.stop → j.bytes[x]? = some 0) (hlo : z.start < cut)
    (hhi : cut < z.stop) : j.Knows d (z.leading cut) ∧ j.Knows d (z.trailing cut) := by
  cases d with
  | forward =>
    refine ⟨h, ?_⟩
    have hclean : j.failedAt (cut - 1) = false := not_failedAt_of_zero (hunread _ (by omega))
    have hpos : cut ≠ 0 := by omega
    simp [Knows, Zone.mark, Zone.beyond?, Zone.trailing, hpos, hclean]
  | backward =>
    refine ⟨?_, h⟩
    have hclean : j.failedAt cut = false := not_failedAt_of_zero (hunread _ (by omega))
    simp [Knows, Zone.mark, Zone.beyond?, Zone.leading, hclean]

theorem Knows.record {lba sectors : Nat} (h : j.Knows d z)
    (hunread : ∀ x, lba ≤ x ∧ x < lba + sectors → j.bytes[x]? = some 0) (failed : Bool) :
    (j.record lba sectors failed).Knows d z ∨
      (failed = true ∧ ∃ x, z.beyond? d = some x ∧ lba ≤ x ∧ x < lba + sectors) := by
  unfold Knows at h ⊢
  cases hbeyond : z.beyond? d with
  | none =>
    rw [hbeyond] at h
    exact .inl h
  | some x =>
    rw [hbeyond, Option.any_some] at h
    by_cases hx : lba ≤ x ∧ x < lba + sectors
    · cases failed with
      | true => exact .inr ⟨rfl, x, rfl, hx⟩
      | false =>
        have hsize : x < j.sectors := (Array.getElem?_eq_some_iff.mp (hunread x hx)).1
        rw [not_failedAt_of_zero (hunread x hx)] at h
        exact .inl (by rw [h, Option.any_some, failedAt_record_of_mem hx hsize])
    · exact .inl (by rw [h, Option.any_some, failedAt_record_of_not_mem hx])

/-- The border that was read from is marked with the outcome. -/
theorem knows_after (hz : z.start < z.stop)
    (hunread : ∀ x, z.start ≤ x ∧ x < z.stop → j.bytes[x]? = some 0) (d : Direction)
    (failed : Bool) :
    (j.record (z.task d).lba (z.task d).sectors failed).Knows d (z.after d failed) := by
  have hpos := Zone.task_sectors_pos hz d
  have hnew {x : Nat} (hx : (z.task d).Spans x) :
      (j.record (z.task d).lba (z.task d).sectors failed).failedAt x = failed :=
    failedAt_record_of_mem hx
      (Array.getElem?_eq_some_iff.mp (hunread x (Zone.contains_of_task_spans hz hx))).1
  cases d with
  | forward =>
    rw [Zone.task_sectors] at hpos
    have hsome : z.start + min z.len blockSectors ≠ 0 := by omega
    rw [Knows, Zone.after_forward]
    simp only [Zone.mark, Zone.beyond?, hsome, ↓reduceIte, Option.any_some]
    rw [hnew]
    simp only [Task.Spans, Zone.task]
    omega
  | backward =>
    rw [Zone.task_sectors] at hpos
    rw [Knows, Zone.after_backward]
    simp only [Zone.mark, Zone.beyond?, Option.any_some]
    rw [hnew]
    simp only [Task.Spans, Zone.task]
    omega

theorem Knows.after (h : j.Knows e z) (hne : d ≠ e) (hz : z.start < z.stop)
    (hunread : ∀ x, z.start ≤ x ∧ x < z.stop → j.bytes[x]? = some 0) (failed : Bool) :
    (j.record (z.task d).lba (z.task d).sectors failed).Knows e (z.after d failed) := by
  have hold := h.record (fun x hx => hunread x (Zone.contains_of_task_spans (d := d) hz hx)) failed
  have hbeyond : (z.after d failed).beyond? e = z.beyond? e ∧
      (z.after d failed).mark e = z.mark e := by
    cases d <;> cases e <;> simp [Zone.after_forward, Zone.after_backward, Zone.beyond?,
      Zone.mark] at hne ⊢
  rcases hold with hold | ⟨-, x, hx, hspans⟩
  · rw [Knows, hbeyond.1, hbeyond.2]
    exact hold
  · have hin := Zone.contains_of_task_spans (d := d) hz hspans
    cases e with
    | forward =>
      simp only [Zone.beyond?] at hx
      split at hx
      · simp at hx
      · obtain rfl := Option.some.inj hx
        omega
    | backward =>
      obtain rfl := Option.some.inj hx
      omega

/-- A failed read puts a mark out of date where another zone begins at its upper end, or stops at
its lower one. -/
theorem knows_of_mem_consume {t : ZoneTable} {l r : List Zone} (hr : t.Reading l z r d)
    (hp : Zone.Poised 1 l z r d)
    (hunread : ∀ x, z.start ≤ x ∧ x < z.stop → j.bytes[x]? = some 0)
    (hothers : ∀ w ∈ l ++ r, j.Knows e w) (hself : d ≠ e → j.Knows e z) (failed : Bool) :
    ∀ w ∈ (t.consume (z.task d) failed).zones,
      (j.record (z.task d).lba (z.task d).sectors failed).Knows e w ∨
        (failed = true ∧ d ≠ e ∧ w ∈ l ++ r ∧ ∃ x, w.beyond? e = some x ∧ (z.task d).Spans x) := by
  intro w hmem
  rcases hr.mem_consume hp.nonempty hmem with rfl | hw
  · refine .inl ?_
    by_cases hde : d = e
    · subst hde
      exact knows_after hp.nonempty hunread d failed
    · exact (hself hde).after hde hp.nonempty hunread failed
  · have hspans (x : Nat) (hx : (z.task d).Spans x) : j.bytes[x]? = some 0 :=
      hunread x (Zone.contains_of_task_spans hp.nonempty hx)
    rcases (hothers w hw).record hspans failed with hknows | ⟨hfailed, x, hx, hin⟩
    · exact .inl hknows
    · refine .inr ⟨hfailed, ?_, hw, x, hx, hin⟩
      rintro rfl
      -- The zone that is read lies at a distance from the zones beyond its other border.
      have hbetween := Zone.contains_of_task_spans hp.nonempty hin
      have hwpos := hp.others.1 w hw
      cases d with
      | forward =>
        simp only [Zone.beyond?] at hx
        split at hx
        · simp at hx
        · obtain rfl := Option.some.inj hx
          rcases List.mem_append.mp hw with hw | hw
          · have hbelow := hp.below w hw
            omega
          · have habove := hp.above w hw
            simp only [↓reduceIte] at habove
            omega
      | backward =>
        obtain rfl := Option.some.inj hx
        rcases List.mem_append.mp hw with hw | hw
        · have hbelow := hp.below w hw
          simp only [↓reduceIte] at hbelow
          omega
        · have habove := hp.above w hw
          omega

variable {start : Nat} {t t' : ZoneTable} {s s' : Strategy} {task : Task}

theorem Mirrors.unread_of_mem_next (h : j.Mirrors start t) (s : Strategy)
    (hz : z ∈ (s.next t).2.2.zones) :
    ∀ x, z.start ≤ x ∧ x < z.stop → j.bytes[x]? = some 0 := by
  intro x hx
  have hcovered := (s.covered_next t x).mp ⟨z, hz, hx⟩
  exact ((h.covered x).mp hcovered).2

theorem Mirrors.knows_next (h : j.Mirrors start t) (s : Strategy)
    (hk : ∀ w ∈ t.zones, j.Knows e w) : ∀ w ∈ (s.next t).2.2.zones, j.Knows e w := by
  have hunread : ∀ w ∈ t.zones, j.Knows e w ∧
      ∀ x, w.start ≤ x ∧ x < w.stop → j.bytes[x]? = some 0 := by
    intro w hw
    exact ⟨hk w hw, fun x hx => ((h.covered x).mp ⟨w, hw, hx⟩).2⟩
  have hnext := s.forall_zones_next hunread fun w cut hw hlo hhi => by
    obtain ⟨hknows, hzero⟩ := hw
    obtain ⟨hleading, htrailing⟩ := hknows.cut hzero hlo hhi
    refine ⟨⟨hleading, fun x hx => hzero x ?_⟩, htrailing, fun x hx => hzero x ?_⟩ <;>
      simp only [Zone.leading, Zone.trailing] at hx <;> omega
  exact fun w hw => (hnext w hw).1

/-- The marks keep up with the journal, unless a failed read comes up to another zone. -/
theorem Mirrors.knows_turn (h : j.Mirrors start t) (hn : s.next t = (.read task, s', t'))
    (hk : ∀ w ∈ t.zones, j.Knows e w) (failed : Bool) :
    ∀ w ∈ (s'.settle t' task failed).2.zones,
      (j.record task.lba task.sectors failed).Knows e w ∨
        (failed = true ∧ task.direction ≠ e ∧ w ∈ t'.zones ∧
          ∃ x, w.beyond? e = some x ∧ task.Spans x) := by
  have hnext := h.knows_next s hk
  have hunread : ∀ w ∈ (s.next t).2.2.zones, ∀ x, w.start ≤ x ∧ x < w.stop →
      j.bytes[x]? = some 0 := fun w hw => h.unread_of_mem_next s hw
  rw [hn] at hnext hunread
  obtain ⟨l, z, r, d, rfl, hr, hp⟩ := Strategy.next_poised hn h.apart
  have hz : z ∈ t'.zones := by simp [hr.zones]
  have hothers : ∀ w ∈ l ++ r, w ∈ t'.zones := by
    intro w hw
    rw [hr.zones]
    simp only [List.mem_append, List.mem_cons] at hw ⊢
    tauto
  intro w hw
  rw [Strategy.settle_zones] at hw
  rcases knows_of_mem_consume hr hp (hunread z hz) (fun v hv => hnext v (hothers v hv))
    (fun _ => hnext z hz) failed w hw with hknows | ⟨hfailed, hne, hw, hx⟩
  · exact .inl hknows
  · exact .inr ⟨hfailed, by simpa using hne, hothers w hw, hx⟩

structure Marks (j : Journal) (t : ZoneTable) (down : Bool) : Prop where
  starts : ∀ w ∈ t.zones, j.Knows .forward w
  stops : down = true → ∀ w ∈ t.zones, j.Knows .backward w

theorem Marks.turn_of_upwards (h : j.Marks t false) (hm : j.Mirrors start t)
    (hn : s.next t = (.read task, s', t')) (hup : task.direction = .forward) (failed : Bool) :
    (j.record task.lba task.sectors failed).Marks (s'.settle t' task failed).2 false := by
  refine ⟨fun w hw => ?_, by simp⟩
  rcases hm.knows_turn hn h.starts failed w hw with hknows | ⟨-, hne, -⟩
  · exact hknows
  · exact absurd hup hne

theorem Mirrors.not_spans_beyond (h : j.Mirrors start t) (hn : s.next t = (.read task, s', t'))
    (huncut : t'.zones = t.zones) {x : Nat} (hw : w ∈ t'.zones) (hx : w.beyond? e = some x) :
    ¬ task.Spans x := by
  intro hspans
  have hcovered : Zone.Covered t.zones x :=
    (Strategy.covered_turn hn h.consistent false x).1 hspans
  obtain ⟨hstop, hstart⟩ := h.apart.not_covered_beside (huncut ▸ hw)
  cases e with
  | forward =>
    simp only [Zone.beyond?] at hx
    split at hx
    · simp at hx
    · next hzero =>
      obtain rfl := Option.some.inj hx
      exact hstart (Nat.pos_of_ne_zero hzero) hcovered
  | backward =>
    obtain rfl := Option.some.inj hx
    exact hstop hcovered

theorem Mirrors.knows_turn_of_uncut (h : j.Mirrors start t) (hn : s.next t = (.read task, s', t'))
    (huncut : t'.zones = t.zones) (hk : ∀ w ∈ t.zones, j.Knows e w) (failed : Bool) :
    ∀ w ∈ (s'.settle t' task failed).2.zones,
      (j.record task.lba task.sectors failed).Knows e w := by
  intro w hw
  rcases h.knows_turn hn hk failed w hw with hknows | ⟨-, -, hmem, x, hx, hspans⟩
  · exact hknows
  · exact absurd hspans (h.not_spans_beyond hn huncut hmem hx)

theorem Marks.turn_of_uncut {down : Bool} (h : j.Marks t down) (hm : j.Mirrors start t)
    (hn : s.next t = (.read task, s', t')) (huncut : t'.zones = t.zones) (failed : Bool) :
    (j.record task.lba task.sectors failed).Marks (s'.settle t' task failed).2 down := by
  refine ⟨hm.knows_turn_of_uncut hn huncut h.starts failed, fun hdown => ?_⟩
  exact hm.knows_turn_of_uncut hn huncut (h.stops hdown) failed

theorem marks_ofRange {stop : Nat} (h : j.bytes = Bytes.zeros stop) (start : Nat) (down : Bool) :
    j.Marks (.ofRange start stop) down := by
  have hclean (x : Nat) : j.failedAt x = false := by
    have hbyte : (Bytes.zeros stop)[x]? = none ∨ (Bytes.zeros stop)[x]? = some 0 := by
      rw [Bytes.zeros, Array.getElem?_replicate]
      split <;> simp
    rcases hbyte with hbyte | hbyte
    · simp [failedAt, status, h, hbyte]
    · exact not_failedAt_of_zero (h ▸ hbyte)
  have hknows (d : Direction) : ∀ w ∈ (ZoneTable.ofRange start stop).zones, j.Knows d w := by
    intro w hw
    obtain ⟨rfl, -⟩ := ZoneTable.mem_ofRange_zones.mp hw
    have hbeyond : ((Zone.clean start stop).beyond? d).any j.failedAt = false := by
      cases (Zone.clean start stop).beyond? d with
      | none => rfl
      | some x => exact hclean x
    rw [Knows, hbeyond]
    cases d <;> rfl
  exact ⟨hknows .forward, fun _ => hknows .backward⟩

/-- The journal yields the zones of a table that mirrors it, marked as the journal has them. -/
theorem Mirrors.rebuild_zones (h : j.Mirrors start t) :
    (j.rebuild start j.sectors).zones = t.zones.map fun z => j.zoneOfRun (z.start, z.stop) := by
  have hbounds := h.apart.bounds_eq (j.spaced_rebuild start j.sectors) fun x => by
    rw [h.covered x, (j.mirrors_rebuild start).covered x]
  have hzones : List.Forall₂ (fun live rebuilt => j.zoneOfRun (live.start, live.stop) = rebuilt)
      t.zones (j.rebuild start j.sectors).zones := by
    rw [List.forall₂_iff_zip] at hbounds ⊢
    refine ⟨hbounds.1, fun {live rebuilt} hmem => ?_⟩
    obtain ⟨hlo, hhi⟩ := hbounds.2 hmem
    rw [hlo, hhi]
    exact (j.mem_rebuild (List.of_mem_zip hmem).2).symm
  have hmap := List.forall₂_map_left_iff.mpr hzones
  rw [List.forall₂_eq_eq_eq] at hmap
  exact hmap.symm

/-- Where the marks say all that the journal knows, its table looks like the live one. -/
theorem Mirrors.seen_rebuild {down : Bool} (h : j.Mirrors start t) (hmarks : j.Marks t down) :
    t.release.seen down = (j.rebuild start j.sectors).seen down := by
  have hcursor := j.rebuild_cursor start j.sectors
  cases down with
  | true =>
    have hzones : (j.rebuild start j.sectors).zones = t.zones := by
      rw [h.rebuild_zones]
      conv_rhs => rw [← List.map_id t.zones]
      refine List.map_congr_left fun live hlive => ?_
      exact ((hmarks.starts live hlive).eq_zoneOfRun (hmarks.stops rfl live hlive)).symm
    change t.release = j.rebuild start j.sectors
    rw [ZoneTable.release, ← hzones, ← hcursor]
  | false =>
    have hzones : (j.rebuild start j.sectors).zones.map Zone.blurred =
        t.zones.map Zone.blurred := by
      rw [h.rebuild_zones, List.map_map]
      refine List.map_congr_left fun live hlive => ?_
      have hmark : live.mark .forward = (j.zoneOfRun (live.start, live.stop)).mark .forward :=
        (hmarks.starts live hlive).trans (j.knows_zoneOfRun (live.start, live.stop) .forward).symm
      simp only [Zone.mark] at hmark
      simp only [Function.comp, Zone.blurred, zoneOfRun, Zone.mk.injEq, true_and, and_true]
      exact hmark.symm
    change t.release.blurred = (j.rebuild start j.sectors).blurred
    simp only [ZoneTable.blurred, ZoneTable.release, hzones, hcursor]

end Journal

end DriveRescue
