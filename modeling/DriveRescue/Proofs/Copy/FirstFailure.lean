import DriveRescue.Proofs.Copy.Accuracy
import DriveRescue.Proofs.Procedure.Looping
import DriveRescue.Proofs.Strategy.Unison

/-! A plain copy as a whole run. It reads its range block by block, in address order, and its first
failure is its last read. -/
namespace DriveRescue

theorem Zone.lt_blocks_iff {z : Zone} {n : Nat} :
    n < z.blocks ↔ z.start + n * blockSectors < z.stop := by
  simp only [blocks, len, blockSectors]
  omega

theorem Zone.exists_block_spans {z : Zone} {x : Nat} (hlo : z.start ≤ x) (hhi : x < z.stop) :
    ∃ i < z.blocks, (z.block i).Spans x := by
  refine ⟨(x - z.start) / blockSectors, ?_, ?_⟩
  · rw [lt_blocks_iff]
    simp only [blockSectors]
    omega
  · simp only [block, Task.Spans, blockSectors]
    omega

/-- The first block of what is left of a zone. -/
theorem Zone.task_clean {z : Zone} {n : Nat} :
    (clean (z.start + n * blockSectors) z.stop).task .forward = z.block n := rfl

namespace ZoneTable

variable {start stop : Nat}

theorem ofRange_zones (start stop : Nat) :
    (ofRange start stop).zones = if start < stop then [.clean start stop] else [] := by
  by_cases h : start < stop
  · simp [ofRange, ofZones, Zone.clean, Zone.isEmpty, h]
  · simp [ofRange, ofZones, Zone.clean, Zone.isEmpty, Nat.le_of_not_lt h, h]

/-- A read of the first block leaves the range above it, with the start marked if it failed. -/
theorem clean_after {failed : Bool} (h : start < stop) :
    (if ((Zone.clean start stop).after .forward failed).isEmpty then []
      else [(Zone.clean start stop).after .forward failed]) =
    if start + blockSectors < stop then [⟨start + blockSectors, stop, failed, false⟩] else [] := by
  by_cases hmore : start + blockSectors < stop
  · have hlen : min (stop - start) blockSectors = blockSectors := Nat.min_eq_right (by omega)
    simp [Zone.after_forward, Zone.clean, Zone.len, Zone.isEmpty, hlen, hmore]
  · have hlen : min (stop - start) blockSectors = stop - start := Nat.min_eq_left (by omega)
    have hlast : stop ≤ start + (stop - start) := by omega
    simp [Zone.after_forward, Zone.clean, Zone.len, Zone.isEmpty, hlen, hmore, hlast]

theorem upright_ofRange (start stop : Nat) : (ofRange start stop).Upright := by
  constructor
  · exact consistent_ofRange start stop
  · intro z hz
    obtain ⟨rfl, -⟩ := mem_ofRange_zones.mp hz
    rfl
  · intro c hc
    simp [ofRange, ofZones] at hc

end ZoneTable

namespace CopySession

variable {s : CopySession} {bad : Nat → Nat → Bool} {range : Zone} {n : Nat} {task : Task}

theorem consistent_perform (h : s.copy.table.Consistent) : s.perform.2.copy.table.Consistent := by
  rcases hn : s.nextRead? with _ | task
  · rwa [perform_of_none hn]
  · obtain ⟨strategy, table, hturn, -, htable, -⟩ := exists_turn_of_fetch hn
    rw [htable]
    exact (Strategy.Reaches.start.turn _ hturn).consistent h

theorem consistent_after (h : s.copy.table.Consistent) (n : Nat) :
    (s.after n).copy.table.Consistent := by
  induction n with
  | zero => exact h
  | succ n ih =>
    rw [after_succ']
    exact consistent_perform ih

/-- What a copy has not read yet bounds the calls that are still to be made. -/
theorem diminishes (h : s.copy.table.Consistent) : procedure.Diminishes s := by
  intro k report hstep
  show (s.after (k + 1)).copy.table.unread < (s.after k).copy.table.unread
  have hstep : (s.after k).perform.1 = .proceed report := hstep
  rcases hn : (s.after k).nextRead? with _ | task
  · simp [perform_of_none hn] at hstep
  · obtain ⟨strategy, table, hturn, -, htable, -⟩ := exists_turn_of_fetch hn
    have hconsistent := consistent_after h k
    have hunread := Strategy.unread_turn hturn hconsistent
      ((s.after k).fetch task).1.status.isFailure
    have hpos := (Strategy.Reaches.start.next_fresh hconsistent hturn).1
    rw [after_succ', htable]
    omega

def reads (s : CopySession) (n : Nat) : List Task :=
  (List.range n).filterMap fun i => (s.after i).nextRead?

theorem fetch_isFailure (h : s.source.FailsAt bad) (task : Task) :
    (s.fetch task).1.status.isFailure = bad task.lba task.sectors := h ..

/-- A plain copy goes on after a good read and gives up after a failed one, and reports either. -/
theorem exists_report (hn : s.nextRead? = some task)
    (hplain : s.copy.strategy.restart = .plain) :
    ∃ report : BlockReport, report.lba = task.lba ∧ report.sectors = task.sectors ∧
      ((s.fetch task).1.status.isFailure = false → s.perform.1 = .proceed report) ∧
      ((s.fetch task).1.status.isFailure = true →
        s.perform.1 = .abort report ∧ report.status.isFailure = true) := by
  obtain ⟨strategy, table, writeFailed, hturn, hsettle⟩ := perform_settle hn
  obtain rfl : strategy = .plain := by
    have hrestart := Strategy.restart_next s.copy.strategy s.copy.table
    rw [hturn, hplain] at hrestart
    exact Strategy.eq_plain_of_restart hrestart
  have hstep := congrArg Prod.fst hsettle
  dsimp only at hstep
  rw [hstep]
  refine ⟨⟨task.lba, task.sectors,
    if writeFailed then .error else (s.fetch task).1.status, (s.fetch task).1.nanos, writeFailed⟩,
    rfl, rfl, fun hgood => ?_, fun hfailed => ?_⟩
  · simp only [Copy.settle, Strategy.settle, hgood]
    rfl
  · simp only [Copy.settle, Strategy.settle, hfailed]
    refine ⟨rfl, ?_⟩
    cases writeFailed
    · exact hfailed
    · rfl

structure HasSwept (s : CopySession) (bad : Nat → Nat → Bool) (range : Zone) (n : Nat) : Prop where
  opened : s.copy.closed = false
  failsAt : s.source.FailsAt bad
  upright : s.copy.table.Upright
  zones : s.copy.table.zones = (ZoneTable.ofRange (range.start + n * blockSectors) range.stop).zones
  reaches : Strategy.Reaches .plain (.ofRange range.start range.stop)
    ((List.range n).map fun i => ⟨range.block i, false⟩) s.copy.strategy s.copy.table

theorem HasSwept.strategy (h : s.HasSwept bad range n) : s.copy.strategy = .plain :=
  Strategy.eq_plain_of_restart h.reaches.restart

theorem HasSwept.next (h : s.HasSwept bad range n) (hn : n < range.blocks) :
    s.copy.table.zones = [.clean (range.start + n * blockSectors) range.stop] ∧
      s.copy.strategy.next s.copy.table =
        (.read (range.block n), .plain, s.copy.table.select 0 .forward) := by
  have hzones := h.zones
  rw [ZoneTable.ofRange_zones, if_pos (Zone.lt_blocks_iff.mp hn)] at hzones
  refine ⟨hzones, ?_⟩
  rw [h.strategy, Strategy.next_of_upright rfl h.upright hzones]
  rfl

theorem HasSwept.nextRead? (h : s.HasSwept bad range n) (hn : n < range.blocks) :
    s.nextRead? = some (range.block n) := by
  rw [nextRead?_eq_some_iff h.opened, (h.next hn).2]

/-- A read of the next block takes it off the range and marks the start of what is left. -/
theorem HasSwept.zones_perform (h : s.HasSwept bad range n) (hn : n < range.blocks) :
    s.perform.2.copy.table.zones =
      if n + 1 < range.blocks then
        [⟨range.start + (n + 1) * blockSectors, range.stop,
          bad (range.block n).lba (range.block n).sectors, false⟩]
      else [] := by
  obtain ⟨hzones, hturn⟩ := h.next hn
  have hlt := Zone.lt_blocks_iff.mp hn
  obtain ⟨-, -, htable⟩ := perform_of_turn h.opened h.failsAt hturn
  have hconsume := (ZoneTable.reading_first hzones).consume hlt
    (bad (range.block n).lba (range.block n).sectors)
  have hafter := @ZoneTable.clean_after _ _ (bad (range.block n).lba (range.block n).sectors) hlt
  rw [Zone.task_clean] at hconsume
  simp only [Zone.lt_blocks_iff, Nat.succ_mul, ← Nat.add_assoc]
  rw [htable, Strategy.settle_zones, hconsume, ← hafter]
  split <;> rfl

theorem HasSwept.perform (h : s.HasSwept bad range n) (hn : n < range.blocks)
    (hgood : bad (range.block n).lba (range.block n).sectors = false) :
    s.perform.2.HasSwept bad range (n + 1) := by
  obtain ⟨hzones, hturn⟩ := h.next hn
  obtain ⟨-, hstrategy, htable⟩ := perform_of_turn h.opened h.failsAt hturn
  constructor
  · rw [perform_closed, h.opened]
  · exact perform_failsAt h.failsAt
  · rw [htable, hgood, Strategy.settle_good, ← Zone.task_clean, ← ZoneTable.advance_of_cons hzones]
    exact h.upright.advance
  · simp only [h.zones_perform hn, hgood, ZoneTable.ofRange_zones, Zone.lt_blocks_iff]
    rfl
  · have hreach := h.reaches.turn false hturn
    rwa [List.range_succ, List.map_append, hstrategy, htable, hgood]

theorem HasSwept.charts_perform (h : s.HasSwept bad range n) (hn : n < range.blocks)
    (hcharts : s.Charts range.stop ((List.range n).map fun i => ⟨range.block i, false⟩)) :
    s.perform.2.Charts range.stop
      (((List.range n).map fun i => ⟨range.block i, false⟩) ++
        [⟨range.block n, bad (range.block n).lba (range.block n).sectors⟩]) := by
  obtain ⟨-, hwithin, hapart⟩ :=
    h.reaches.next_fresh (ZoneTable.consistent_ofRange _ _) (h.next hn).2
  rw [← fetch_isFailure h.failsAt]
  exact hcharts.perform (h.nextRead? hn)
    (fun x hx => (ZoneTable.covered_ofRange.mp (hwithin x hx)).2) hapart

/-- Where no block is left the table is empty. -/
theorem HasSwept.zones_eq_nil (h : s.HasSwept bad range range.blocks) :
    s.copy.table.zones = [] := by
  have hbeyond := mt Zone.lt_blocks_iff.mpr (Nat.lt_irrefl range.blocks)
  rw [h.zones, ZoneTable.ofRange_zones, if_neg hbeyond]

/-- The run lemma: good reads of the first blocks lead on. -/
theorem hasSwept_after (h : s.HasSwept bad range 0) (hn : n ≤ range.blocks)
    (hgood : ∀ i < n, bad (range.block i).lba (range.block i).sectors = false) :
    (s.after n).HasSwept bad range n ∧ (s.Charts range.stop [] →
      (s.after n).Charts range.stop ((List.range n).map fun i => ⟨range.block i, false⟩)) := by
  induction n with
  | zero => exact ⟨h, id⟩
  | succ n ih =>
    obtain ⟨hbefore, hcharts⟩ := ih (Nat.le_of_succ_le hn) fun i hi => hgood i (by omega)
    have hlast := hgood n (Nat.lt_succ_self n)
    rw [after_succ']
    refine ⟨hbefore.perform hn hlast, fun hbegun => ?_⟩
    have hmore := hbefore.charts_perform hn (hcharts hbegun)
    rw [hlast] at hmore
    rwa [List.range_succ, List.map_append]

section Course

variable {m : Nat} (hm : m ≤ range.blocks) (h : ∀ i < m, (s.after i).HasSwept bad range i)

include hm h

theorem reads_eq : s.reads m = (List.range m).map range.block := by
  have hread : ∀ i ∈ List.range m, (s.after i).nextRead? = (some ∘ range.block) i := by
    intro i hi
    rw [List.mem_range] at hi
    exact (h i hi).nextRead? (Nat.lt_of_lt_of_le hi hm)
  rw [reads, List.filterMap_congr hread, List.filterMap_eq_map]

theorem calls_reads_eq : (s.after m).source.calls.reads = s.source.calls.reads + m := by
  induction m with
  | zero => rfl
  | succ m ih =>
    have hbefore := ih (Nat.le_of_succ_le hm) fun i hi => h i (Nat.lt_succ_of_lt hi)
    have hnext := (h m (Nat.lt_succ_self m)).nextRead? hm
    rw [after_succ', perform_source, hnext]
    exact congrArg (· + 1) hbefore

theorem exists_report_at {i : Nat} (hi : i < m) :
    ∃ report : BlockReport, report.lba = (range.block i).lba ∧
      report.sectors = (range.block i).sectors ∧
      (bad (range.block i).lba (range.block i).sectors = false →
        procedure.stepAt s i = .proceed report) ∧
      (bad (range.block i).lba (range.block i).sectors = true →
        procedure.stepAt s i = .abort report ∧ report.status.isFailure = true) := by
  have hnext := (h i hi).nextRead? (Nat.lt_of_lt_of_le hi hm)
  have hreport := exists_report hnext (congrArg Strategy.restart (h i hi).strategy)
  rwa [fetch_isFailure (h i hi).failsAt] at hreport

theorem events_eq :
    (procedure.events s m).map (fun e => (e.report.lba, e.report.sectors)) =
      (List.range m).map fun i => ((range.block i).lba, (range.block i).sectors) := by
  have hevent : ∀ i < m, ∃ event, procedure.eventAt? s i = some event ∧
      (event.report.lba, event.report.sectors) =
        ((range.block i).lba, (range.block i).sectors) := by
    intro i hi
    obtain ⟨report, hlba, hsectors, hgood, hfailed⟩ := exists_report_at hm h hi
    have hreport : (procedure.stepAt s i).report? = some report := by
      cases hf : bad (range.block i).lba (range.block i).sectors with
      | false => rw [hgood hf]; rfl
      | true => rw [(hfailed hf).1]; rfl
    exact ⟨_, Procedure.eventAt?_of_report hreport, by rw [hlba, hsectors]⟩
  induction m with
  | zero => rfl
  | succ m ih =>
    have hbefore := ih (Nat.le_of_succ_le hm) (fun i hi => h i (Nat.lt_succ_of_lt hi))
      fun i hi => hevent i (Nat.lt_succ_of_lt hi)
    obtain ⟨event, hlast, hspan⟩ := hevent m (Nat.lt_succ_self m)
    rw [Procedure.events_succ, hlast, List.range_succ, List.map_append, List.map_append, hbefore]
    exact congrArg _ (congrArg (fun span => [span]) hspan)

end Course

structure ReadsBlocks (s : CopySession) (range : Zone) (m : Nat) (run : Run CopySession) :
    Prop where
  state : run.state = s.after m
  reads : s.reads m = (List.range m).map range.block
  calls : run.state.source.calls.reads = s.source.calls.reads + m
  events : run.events.map (fun e => (e.report.lba, e.report.sectors)) =
    (List.range m).map fun i => ((range.block i).lba, (range.block i).sectors)

theorem HasSwept.loop_of_failure (h : s.HasSwept bad range 0) (hn : n < range.blocks)
    (hgood : ∀ i < n, bad (range.block i).lba (range.block i).sectors = false)
    (hfailed : bad (range.block n).lba (range.block n).sectors = true) :
    let run := procedure.loop (.free CopySession) s
    run.ending = .outcome .aborted ∧ s.ReadsBlocks range (n + 1) run ∧
      ∃ e, run.events.getLast? = some e ∧ e.report.status.isFailure = true := by
  have hswept : ∀ i < n + 1, (s.after i).HasSwept bad range i := by
    intro i hi
    exact (hasSwept_after h (by omega) fun i' hi' => hgood i' (by omega)).1
  have hgoing : ∀ i < n, ∃ report, procedure.stepAt s i = .proceed report := by
    intro i hi
    obtain ⟨report, -, -, hstep, -⟩ := exists_report_at hn hswept (Nat.lt_succ_of_lt hi)
    exact ⟨report, hstep (hgood i hi)⟩
  obtain ⟨report, -, -, -, hlast⟩ := exists_report_at hn hswept (Nat.lt_succ_self n)
  obtain ⟨hstep, hstatus⟩ := hlast hfailed
  have hloop := (diminishes h.upright.consistent).loop_free hgoing
    (.aborted Control.not_stops_free hstep)
  intro run
  have hrun : run = _ := hloop
  rw [hrun]
  refine ⟨rfl, ⟨rfl, reads_eq hn hswept, calls_reads_eq hn hswept, events_eq hn hswept⟩, ?_⟩
  have hreport : (procedure.stepAt s n).report? = some report := by rw [hstep]; rfl
  refine ⟨⟨report, procedure.progress (procedure.stateAfter s (n + 1))⟩, ?_, hstatus⟩
  rw [Procedure.events_succ, Procedure.eventAt?_of_report hreport]
  exact List.getLast?_concat

theorem HasSwept.loop_of_good (h : s.HasSwept bad range 0)
    (hgood : ∀ i < range.blocks, bad (range.block i).lba (range.block i).sectors = false) :
    let run := procedure.loop (.free CopySession) s
    run.ending = .outcome .completed ∧ s.ReadsBlocks range range.blocks run := by
  have hswept : ∀ i ≤ range.blocks, (s.after i).HasSwept bad range i := by
    intro i hi
    exact (hasSwept_after h hi fun i' hi' => hgood i' (by omega)).1
  have hreads : ∀ i < range.blocks, (s.after i).HasSwept bad range i :=
    fun i hi => hswept i (Nat.le_of_lt hi)
  have hgoing : ∀ i < range.blocks, ∃ report, procedure.stepAt s i = .proceed report := by
    intro i hi
    obtain ⟨report, -, -, hstep, -⟩ := exists_report_at (Nat.le_refl _) hreads hi
    exact ⟨report, hstep (hgood i hi)⟩
  have hnone := perform_of_none (nextRead?_of_zones (hswept _ (Nat.le_refl _)).zones_eq_nil)
  have hstep : procedure.stepAt s range.blocks = .complete := congrArg Prod.fst hnone
  have hstays : procedure.stateAfter s (range.blocks + 1) = s.after range.blocks := by
    rw [Procedure.stateAfter_succ]
    exact congrArg Prod.snd hnone
  have hloop := (diminishes h.upright.consistent).loop_free hgoing
    (.completed Control.not_stops_free hstep)
  rw [Procedure.events_succ_of_none (by rw [hstep]; rfl), hstays] at hloop
  intro run
  have hrun : run = _ := hloop
  rw [hrun]
  exact ⟨rfl, rfl, reads_eq (Nat.le_refl _) hreads, calls_reads_eq (Nat.le_refl _) hreads,
    events_eq (Nat.le_refl _) hreads⟩

theorem hasSwept_ofParts {memory : Memory} {source : Source} {target : Target}
    {journal : Option Journal} {options : CopyOptions}
    (hopen : ofParts memory source target journal options = .ok s)
    (hplain : options.strategy = .plain) (hfresh : ∀ j, journal = some j → j.restored = false)
    (hfails : source.FailsAt bad) :
    s.HasSwept bad (.clean options.startLba source.capacity) 0 := by
  obtain ⟨-, -, hsource⟩ := ofParts_parts hopen
  obtain ⟨hstrategy, hopened⟩ := ofParts_strategy hopen
  obtain ⟨-, -, table, tally, hcopy, hbegun, -⟩ := ofParts_copy hopen
  obtain ⟨rfl, -⟩ := hbegun hfresh
  rw [hplain] at hstrategy
  have htable : s.copy.table = .ofRange options.startLba source.capacity := by rw [hcopy]; rfl
  constructor
  · exact hopened
  · rw [hsource]
    exact hfails
  · rw [htable]
    exact ZoneTable.upright_ofRange _ _
  · rw [htable, Nat.zero_mul]
    rfl
  · rw [hstrategy, htable]
    exact .start

theorem mem_good_of_lt {i : Nat} (hi : i < n) :
    (⟨range.block i, false⟩ : Attempt) ∈ (List.range n).map fun i => ⟨range.block i, false⟩ :=
  List.mem_map_of_mem (List.mem_range.mpr hi)

/-- The journal of a copy that failed at block `n` has the blocks before it for good ones, its own
for a failed one, and nothing of the others. -/
theorem HasSwept.status_of_failure (h : s.HasSwept bad range 0) (hcharts : s.Charts range.stop [])
    (hn : n < range.blocks)
    (hgood : ∀ i < n, bad (range.block i).lba (range.block i).sectors = false)
    (hfailed : bad (range.block n).lba (range.block n).sectors = true) {j : Journal}
    (hj : (s.after (n + 1)).journal = some j) :
    (∀ i < n, ∀ x, (range.block i).Spans x → j.status x = some .readOk) ∧
      (∀ x, (range.block n).Spans x → j.status x = some (.ofRead true (range.block n).sectors)) ∧
      ∀ x, range.start + (n + 1) * blockSectors ≤ x → x < range.stop →
        j.status x = some .unread := by
  obtain ⟨hswept, hbefore⟩ := hasSwept_after h (Nat.le_of_lt hn) hgood
  rw [after_succ'] at hj
  have hafter := hswept.charts_perform hn (hbefore hcharts)
  rw [hfailed] at hafter
  obtain ⟨hagrees, -, htells⟩ := hafter j hj
  refine ⟨fun i hi x hx => ?_, fun x hx => ?_, fun x hlo hhi => ?_⟩
  · exact htells.attempted ⟨range.block i, false⟩ (List.mem_append_left _ (mem_good_of_lt hi)) x hx
  · exact htells.attempted ⟨range.block n, true⟩ (by simp) x hx
  · -- The zone that is left covers just the sectors that the journal has for unread.
    have hmore : n + 1 < range.blocks := Zone.lt_blocks_iff.mpr (Nat.lt_of_le_of_lt hlo hhi)
    have hcovered : Zone.Covered (s.after n).perform.2.copy.table.zones x := by
      rw [hswept.zones_perform hn, if_pos hmore]
      simp [hlo, hhi]
    rw [hagrees.mirrors.covered] at hcovered
    rw [Journal.status, hcovered.2]
    rfl

theorem HasSwept.status_of_good (h : s.HasSwept bad range 0) (hcharts : s.Charts range.stop [])
    (hgood : ∀ i < range.blocks, bad (range.block i).lba (range.block i).sectors = false)
    {j : Journal} (hj : (s.after range.blocks).journal = some j) {x : Nat} (hlo : range.start ≤ x)
    (hhi : x < range.stop) : j.status x = some .readOk := by
  obtain ⟨-, hafter⟩ := hasSwept_after h (Nat.le_refl _) hgood
  obtain ⟨-, -, htells⟩ := hafter hcharts j hj
  obtain ⟨i, hi, hx⟩ := Zone.exists_block_spans hlo hhi
  exact htells.attempted ⟨range.block i, false⟩ (mem_good_of_lt hi) x hx

variable {memory : Memory} {source : Source} {target : Target} {journal : Option Journal}
  {options : CopyOptions}

/-- A plain copy that is begun anew, with its journal in another file than its image, and let run
reads its range block by block. With the first block that fails it aborts: that one is the last to
be read and to be reported, and what lies above it is left as one zone. If none fails it completes.
The journal says the same. -/
theorem plain_aborts_at_first_failure
    (hopen : ofParts memory source target journal options = .ok s)
    (hplain : options.strategy = .plain)
    (hfresh : ∀ j, journal = some j → j.restored = false ∧ j.bytes = Bytes.zeros source.capacity)
    (hsep : ∀ j, journal = some j → sharesFile target j = false) (hfails : source.FailsAt bad) :
    let range := Zone.clean options.startLba source.capacity
    let run := procedure.loop (.free CopySession) s
    (∀ n < range.blocks,
      (∀ i < n, bad (range.block i).lba (range.block i).sectors = false) →
      bad (range.block n).lba (range.block n).sectors = true →
      run.ending = .outcome .aborted ∧ s.ReadsBlocks range (n + 1) run ∧
        (∃ e, run.events.getLast? = some e ∧ e.report.status.isFailure = true) ∧
        run.state.copy.table.zones =
          (if n + 1 < range.blocks then
            [⟨options.startLba + (n + 1) * 256, source.capacity, true, false⟩] else []) ∧
        ∀ j, journal = some j → ∃ k, run.state.journal = some k ∧
          (∀ i < n, ∀ x, (range.block i).Spans x → k.status x = some .readOk) ∧
          (∀ x, (range.block n).Spans x →
            k.status x = some (.ofRead true (range.block n).sectors)) ∧
          ∀ x, options.startLba + (n + 1) * 256 ≤ x → x < source.capacity →
            k.status x = some .unread) ∧
    ((∀ i < range.blocks, bad (range.block i).lba (range.block i).sectors = false) →
      run.ending = .outcome .completed ∧ s.ReadsBlocks range range.blocks run ∧
        run.state.copy.table.zones = [] ∧
        ∀ j, journal = some j → ∃ k, run.state.journal = some k ∧
          ∀ x, options.startLba ≤ x → x < source.capacity → k.status x = some .readOk) := by
  intro range run
  have h := hasSwept_ofParts hopen hplain (fun j hj => (hfresh j hj).1) hfails
  have hcharts : s.Charts range.stop [] :=
    charts_ofParts hopen (fun j hj => (hfresh j hj).2) hsep
  have hjournal (j : Journal) (hj : journal = some j) (m : Nat) :
      ∃ k, (s.after m).journal = some k := by
    apply Option.isSome_iff_exists.mp
    rw [after_journal_isSome, (ofParts_parts hopen).1, hj]
    rfl
  refine ⟨fun n hn hgood hfailed => ?_, fun hgood => ?_⟩
  · obtain ⟨hending, hreads, hlast⟩ := h.loop_of_failure hn hgood hfailed
    refine ⟨hending, hreads, hlast, ?_, fun j hj => ?_⟩
    · rw [hreads.state, after_succ']
      have hleft := (hasSwept_after h (Nat.le_of_lt hn) hgood).1.zones_perform hn
      rwa [hfailed] at hleft
    · obtain ⟨k, hk⟩ := hjournal j hj (n + 1)
      rw [hreads.state]
      exact ⟨k, hk, h.status_of_failure hcharts hn hgood hfailed hk⟩
  · obtain ⟨hending, hreads⟩ := h.loop_of_good hgood
    refine ⟨hending, hreads, ?_, fun j hj => ?_⟩
    · rw [hreads.state]
      exact (hasSwept_after h (Nat.le_refl _) hgood).1.zones_eq_nil
    · obtain ⟨k, hk⟩ := hjournal j hj range.blocks
      rw [hreads.state]
      exact ⟨k, hk, fun x hlo hhi => h.status_of_good hcharts hgood hk hlo hhi⟩

/-- The third block is short and the last one. Its failure takes it out of the table and aborts the
copy all the same. -/
theorem plain_aborts_at_short_block :
    let source := onesSourceBut (512 ≤ ·) 600
    let options : CopyOptions := { CopyOptions.default with strategy := .plain }
    let s := fresh source emptyImage none options
    let run := procedure.loop (.free CopySession) s
    ofParts .ofProcess source emptyImage (some ⟨Bytes.zeros 600, none, false⟩) options = .ok s ∧
      source.FailsAt (fun lba _ => 512 ≤ lba) ∧ run.ending = .outcome .aborted ∧
      s.reads 3 = [⟨0, 256, .forward⟩, ⟨256, 256, .forward⟩, ⟨512, 88, .forward⟩] ∧
      run.events.map (fun e => (e.report.lba, e.report.sectors)) =
        [(0, 256), (256, 256), (512, 88)] ∧
      run.state.copy.table.zones = [] ∧
      ∃ k, run.state.journal = some k ∧ k.status 511 = some .readOk ∧
        k.status 599 = some .blockReadError := by
  intro source options s
  dsimp only
  have hopen : ofParts .ofProcess source emptyImage (some ⟨Bytes.zeros 600, none, false⟩) options =
      .ok s := ofParts_fresh emptyImage none Memory.givesBlock_ofProcess (by decide)
  have hfails := onesSourceBut_failsAt (512 ≤ ·) 600
  have hfresh : ∀ j, some (⟨Bytes.zeros 600, none, false⟩ : Journal) = some j →
      j.restored = false ∧ j.bytes = Bytes.zeros source.capacity := by
    rintro j ⟨⟩
    exact ⟨rfl, rfl⟩
  obtain ⟨hfirst, -⟩ := plain_aborts_at_first_failure hopen rfl hfresh (fun _ _ => rfl) hfails
  obtain ⟨hending, hreads, -, hzones, hjournal⟩ := hfirst 2 (by decide) (by decide) (by decide)
  obtain ⟨k, hk, hgood, hbad, -⟩ := hjournal _ rfl
  have hthird := hbad 599 ⟨by decide, by decide⟩
  exact ⟨hopen, hfails, hending, hreads.reads.trans (by decide +kernel),
    hreads.events.trans (by decide +kernel), hzones.trans (by decide +kernel), k, hk,
    hgood 1 (by decide) 511 ⟨by decide, by decide⟩, hthird.trans (by decide +kernel)⟩

/-- A failed read beyond the bytes of a journal leaves them to the record, whatever file they lie
in. -/
theorem perform_journal_of_failure {j : Journal} (hn : s.nextRead? = some task)
    (hfailed : (s.fetch task).1.status.isFailure = true) (hj : s.journal = some j)
    (hbeyond : j.sectors ≤ task.lba * sectorBytes) :
    s.perform.2.journal = some (j.record task.lba task.sectors true) := by
  obtain ⟨hopen, copy, hnext⟩ := exists_next_of_nextRead? hn
  have hfetch : ({ s with copy }.fetch task).1 = (s.fetch task).1 := rfl
  have hsame : ∀ data, j.overwrite (task.lba * sectorBytes) data = j := by
    intro data
    rw [Journal.overwrite, if_neg (Nat.not_lt.mpr hbeyond)]
  rw [perform_of_some hopen hnext, hfetch, store_of_isFailure hfailed]
  simp [enter, hj, note, hfailed, hsame]

/-- Where image and journal share a file, the data of the first block say of sectors above the
failed one that they are good. -/
theorem plain_abort_differs_in_shared_file :
    let options : CopyOptions := { CopyOptions.default with strategy := .plain }
    ∃ s k, ofParts .ofProcess (onesSourceBut (256 ≤ ·) 600) (sharedTarget (Bytes.zeros 600))
        (some (sharedJournal (Bytes.zeros 600) false)) options = .ok s ∧
      (onesSourceBut (256 ≤ ·) 600).FailsAt (fun lba _ => 256 ≤ lba) ∧
      (procedure.loop (.free CopySession) s).ending = .outcome .aborted ∧
      s.reads 2 = [⟨0, 256, .forward⟩, ⟨256, 256, .forward⟩] ∧
      (procedure.loop (.free CopySession) s).state.journal = some k ∧
      k.status 512 = some .readOk := by
  intro options
  let source := onesSourceBut (256 ≤ ·) 600
  let journal := sharedJournal (Bytes.zeros 600) false
  let s := fresh source (sharedTarget (Bytes.zeros 600)) journal.file options
  have hopen : ofParts .ofProcess source (sharedTarget (Bytes.zeros 600)) (some journal) options =
      .ok s := ofParts_fresh _ _ Memory.givesBlock_ofProcess (by decide)
  have hfails := onesSourceBut_failsAt (256 ≤ ·) 600
  have hbegun : s.HasSwept (fun lba _ => 256 ≤ lba) (.clean 0 600) 0 :=
    hasSwept_ofParts hopen rfl (by rintro j ⟨⟩; rfl) hfails
  obtain ⟨hending, hreads, -⟩ := hbegun.loop_of_failure (n := 1) (by decide) (by decide) (by decide)
  have hfetch : (s.fetch ⟨0, 256, .forward⟩).1 = ⟨.ok, 0, Array.replicate 131072 1⟩ := rfl
  have hwrite := @writeAll_sharedTarget (Bytes.zeros 600) 0 (Array.replicate 131072 1) (by simp)
  have hfirst := @perform_journal_of_shared s ⟨0, 256, .forward⟩ _ journal rfl rfl rfl rfl
    (by rw [hfetch]; rfl) (by rw [hfetch]; exact hwrite)
  rw [hfetch, ← after_one] at hfirst
  have hswept := (hasSwept_after hbegun (n := 1) (by decide) (by decide)).1
  have hsize : journal.sectors = 600 := Array.size_replicate
  have hfailed : ((s.after 1).fetch ((Zone.clean 0 600).block 1)).1.status.isFailure = true :=
    (fetch_isFailure hswept.failsAt _).trans (by decide)
  have hsecond := perform_journal_of_failure (hswept.nextRead? (by decide)) hfailed hfirst
    (by rw [Journal.sectors_record, Journal.sectors_overwrite, hsize]; decide)
  have hbyte := @getElem?_record_overwrite_ones journal 512 131072 256 (by omega) (by decide)
  rw [← after_succ', ← hreads.state] at hsecond
  refine ⟨s, _, hopen, hfails, hending, hreads.reads.trans (by decide +kernel), hsecond, ?_⟩
  rw [Journal.status_record_of_not_mem (by decide), Journal.status]
  exact congrArg (·.bind SectorStatus.ofByte?) hbyte

end CopySession

end DriveRescue
