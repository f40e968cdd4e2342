import DriveRescue.Proofs.Copy.Turning
import DriveRescue.Proofs.Strategy.Damage
import DriveRescue.Proofs.Strategy.Exhaustion

/-! How true the record of a copy is to its source. Each attempt has its outcome noted for just the
sectors that it read, so that what a journal says of a sector is what a read of a block around it
came to. -/
namespace DriveRescue

/-- Reads within the capacity fail where they meet a bad sector, and nowhere else. -/
def Source.FailsOn (s : Source) (bad : Finset ℕ) : Prop :=
  ∀ k lba sectors, lba + sectors ≤ s.capacity →
    ((s.reading k lba (sectors * sectorBytes)).status.isFailure = true ↔
      ∃ b ∈ bad, lba ≤ b ∧ b < lba + sectors)

namespace Journal

structure Tells (j : Journal) (made : List Attempt) : Prop where
  attempted : ∀ a ∈ made, ∀ x, a.task.Spans x →
    j.status x = some (.ofRead a.failed a.task.sectors)
  known : ∀ x status, j.status x = some status →
    status = .unread ∨ ∃ a ∈ made, a.task.Spans x

variable {j : Journal} {made : List Attempt} {task : Task} {bad : Finset ℕ} {x : ℕ}

theorem tells_zeros {sectors : ℕ} (h : j.bytes = Bytes.zeros sectors) : j.Tells [] := by
  refine ⟨by simp, fun x status hx => .inl ?_⟩
  rw [Journal.status, h, Bytes.zeros, Array.getElem?_replicate] at hx
  split at hx
  · exact (Option.some.inj hx).symm
  · simp at hx

theorem Tells.record (h : j.Tells made) (hin : ∀ x, task.Spans x → x < j.sectors)
    (hapart : ∀ a ∈ made, a.task.Disjoint task) (failed : Bool) :
    (j.record task.lba task.sectors failed).Tells (made ++ [⟨task, failed⟩]) := by
  refine ⟨fun a ha x hx => ?_, fun x status hx => ?_⟩
  · rcases List.mem_append.mp ha with ha | ha
    · rw [status_record_of_not_mem (hapart a ha x hx)]
      exact h.attempted a ha x hx
    · obtain rfl := List.mem_singleton.mp ha
      exact status_record_of_mem hx (hin x hx)
  · by_cases hspans : task.Spans x
    · exact .inr ⟨⟨task, failed⟩, by simp, hspans⟩
    · rw [status_record_of_not_mem hspans] at hx
      refine (h.known x status hx).imp_right ?_
      rintro ⟨a, ha, hax⟩
      exact ⟨a, by simp [ha], hax⟩

theorem Tells.not_mem_of_readOk (h : j.Tells made) (htrue : ∀ a ∈ made, a.TrueTo bad)
    (hx : j.status x = some .readOk) : x ∉ bad := by
  obtain ⟨a, ha, hax⟩ := (h.known x _ hx).resolve_left (by decide)
  have hstatus := (h.attempted a ha x hax).symm.trans hx
  have hgood := SectorStatus.ofRead_isFailure a.failed a.task.sectors
  rw [Option.some.inj hstatus] at hgood
  exact (htrue a ha).not_mem hgood.symm hax

theorem Tells.exists_near (h : j.Tells made) (htrue : ∀ a ∈ made, a.TrueTo bad)
    (hlen : ∀ a ∈ made, a.task.sectors ≤ blockSectors) (hx : j.failedAt x = true) :
    ∃ b ∈ bad, b ≤ x + 255 ∧ x ≤ b + 255 := by
  obtain ⟨status, hstatus, hfailure⟩ := (Option.any_eq_true ..).mp hx
  have hread : status ≠ .unread := by
    rintro rfl
    simp [SectorStatus.isFailure] at hfailure
  obtain ⟨a, ha, hax⟩ := (h.known x status hstatus).resolve_left hread
  have hsame := Option.some.inj ((h.attempted a ha x hax).symm.trans hstatus)
  have hfailed : a.failed = true := by
    rw [← SectorStatus.ofRead_isFailure a.failed a.task.sectors, hsame]
    exact hfailure
  exact (htrue a ha).exists_near (hlen a ha) hfailed hax

theorem Tells.readOk_of_far (h : j.Tells made) (htrue : ∀ a ∈ made, a.TrueTo bad)
    (hlen : ∀ a ∈ made, a.task.sectors ≤ blockSectors) (hread : ∃ a ∈ made, a.task.Spans x)
    (hfar : ∀ b ∈ bad, x + 255 < b ∨ b + 255 < x) : j.status x = some .readOk := by
  obtain ⟨a, ha, hax⟩ := hread
  have hgood : a.failed = false := by
    by_contra hfailed
    obtain ⟨b, hb, hlo, hhi⟩ := (htrue a ha).exists_near (hlen a ha) (by simpa using hfailed) hax
    have := hfar b hb
    omega
  rw [h.attempted a ha x hax, hgood]
  rfl

end Journal

namespace CopySession

variable {s : CopySession} {bad : Finset ℕ} {s₀ : Strategy} {start stop : ℕ}
  {made : List Attempt} {task : Task}

theorem perform_journal_isSome (s : CopySession) :
    s.perform.2.journal.isSome = s.journal.isSome := by
  rcases hn : s.nextRead? with _ | task
  · rw [perform_of_none hn]
  · obtain ⟨hopen, copy, hnext⟩ := exists_next_of_nextRead? hn
    rw [perform_of_some hopen hnext]
    simp [enter]

theorem after_journal_isSome (n : ℕ) (s : CopySession) :
    (s.after n).journal.isSome = s.journal.isSome := by
  induction n with
  | zero => rfl
  | succ n ih => rw [after_succ', perform_journal_isSome, ih]

/-- The session has come here, over a range that nothing was known of, by attempts whose outcomes
are true to the bad sectors, and that its tally tells of. -/
structure Surveys (s : CopySession) (bad : Finset ℕ) (s₀ : Strategy) (start stop : ℕ)
    (made : List Attempt) : Prop where
  source : s.source.FailsOn bad
  capacity : s.source.capacity = stop
  reaches : Strategy.Reaches s₀ (.ofRange start stop) made s.copy.strategy s.copy.table
  outcomes : ∀ a ∈ made, a.TrueTo bad
  tally : s.copy.tally.failed = Attempt.failedSectors made

/-- If the session has a journal, it is one of its own that tells of the attempts. -/
def Charts (s : CopySession) (stop : ℕ) (made : List Attempt) : Prop :=
  ∀ j, s.journal = some j → s.Agrees j ∧ j.sectors = stop ∧ j.Tells made

theorem Charts.perform (h : s.Charts stop made) (hn : s.nextRead? = some task)
    (hwithin : ∀ x, task.Spans x → x < stop) (hapart : ∀ a ∈ made, a.task.Disjoint task) :
    s.perform.2.Charts stop (made ++ [⟨task, (s.fetch task).1.status.isFailure⟩]) := by
  intro k hk
  cases hj : s.journal with
  | none =>
    have hsome := s.perform_journal_isSome
    simp [hj, hk] at hsome
  | some j =>
    obtain ⟨hagrees, hsize, htells⟩ := h j hj
    have hnoted := hagrees.perform_noted hn
    obtain rfl := Option.some.inj (hnoted.journal.symm.trans hk)
    exact ⟨hnoted, (j.sectors_record ..).trans hsize,
      htells.record (fun x hx => hsize ▸ hwithin x hx) hapart _⟩

theorem Surveys.sectors_le (h : s.Surveys bad s₀ start stop made) :
    ∀ a ∈ made, a.task.sectors ≤ blockSectors :=
  h.reaches.sectors_le (ZoneTable.consistent_ofRange start stop)

/-- What is read next lies in the range and apart from all that was read before. -/
theorem Surveys.next_fresh (h : s.Surveys bad s₀ start stop made) (hn : s.nextRead? = some task) :
    0 < task.sectors ∧ (∀ x, task.Spans x → x < stop) ∧ ∀ a ∈ made, a.task.Disjoint task := by
  obtain ⟨strategy, table, hturn, -⟩ := exists_turn_of_fetch hn
  obtain ⟨hpos, hwithin, hapart⟩ :=
    h.reaches.next_fresh (ZoneTable.consistent_ofRange start stop) hturn
  exact ⟨hpos, fun x hx => (ZoneTable.covered_ofRange.mp (hwithin x hx)).2, hapart⟩

theorem Surveys.perform_of_some (h : s.Surveys bad s₀ start stop made)
    (hn : s.nextRead? = some task) :
    s.perform.2.Surveys bad s₀ start stop
      (made ++ [⟨task, (s.fetch task).1.status.isFailure⟩]) := by
  obtain ⟨strategy, table, hturn, hstrategy, htable, writeFailed, htally⟩ :=
    exists_turn_of_fetch hn
  refine ⟨?_, ?_, ?_, ?_, ?_⟩
  · rw [perform_source, hn]
    exact h.source
  · rw [perform_source, hn]
    exact h.capacity
  · rw [hstrategy, htable]
    exact h.reaches.turn _ hturn
  · refine List.forall_mem_append.mpr ⟨h.outcomes, List.forall_mem_singleton.mpr ?_⟩
    -- The task ends within the capacity, up to which reads fail by what they meet.
    obtain ⟨hpos, hwithin, -⟩ := h.next_fresh hn
    have hlast := hwithin (task.lba + task.sectors - 1) ⟨by omega, by omega⟩
    have hcapacity := h.capacity
    exact h.source _ task.lba task.sectors (by omega)
  · rw [htally, Attempt.failedSectors_concat, Tally.add, h.tally]
    dsimp only
    split <;> rfl

theorem Surveys.perform (h : s.Surveys bad s₀ start stop made) :
    ∃ more, s.perform.2.Surveys bad s₀ start stop more ∧
      (s.Charts stop made → s.perform.2.Charts stop more) := by
  rcases hn : s.nextRead? with _ | task
  · rw [perform_of_none hn]
    exact ⟨made, h, id⟩
  · obtain ⟨-, hwithin, hapart⟩ := h.next_fresh hn
    exact ⟨_, h.perform_of_some hn, fun hcharts => hcharts.perform hn hwithin hapart⟩

theorem Surveys.after (h : s.Surveys bad s₀ start stop made) (n : ℕ) :
    ∃ more, (s.after n).Surveys bad s₀ start stop more ∧
      (s.Charts stop made → (s.after n).Charts stop more) := by
  induction n with
  | zero => exact ⟨made, h, id⟩
  | succ n ih =>
    obtain ⟨more, hmore, hcharts⟩ := ih
    obtain ⟨last, hlast, hcharts'⟩ := hmore.perform
    rw [after_succ']
    exact ⟨last, hlast, hcharts' ∘ hcharts⟩

theorem Surveys.tally_le (h : s.Surveys bad s₀ start stop made) :
    s.copy.tally.failed ≤ ∑ r ∈ badRuns bad, (r.2 - r.1 + 510) := by
  rw [h.tally]
  have hdisjoint := h.reaches.pairwise_disjoint (ZoneTable.consistent_ofRange start stop)
  exact Attempt.failedSectors_le hdisjoint h.sectors_le h.outcomes

theorem Surveys.card_failed_le (h : s.Surveys bad s₀ start stop made) {j : Journal}
    (htells : j.Tells made) :
    ((Finset.range stop).filter (j.failedAt ·)).card ≤
      ∑ r ∈ badRuns bad, (r.2 - r.1 + 510) := by
  refine Nat.le_trans (Finset.card_le_card fun x hx => ?_) (card_surroundings_le bad)
  have hfailed := (Finset.mem_filter.mp hx).2
  obtain ⟨b, hb, hlo, hhi⟩ := htells.exists_near h.outcomes h.sectors_le hfailed
  exact mem_surroundings_of_near hb hlo hhi

/-- A complete copy by the smart strategy has attempted its whole range. -/
theorem Surveys.attempted_of_complete {reverse fallback : Bool}
    (h : s.Surveys bad (.smart reverse fallback) start stop made) (hopen : s.copy.closed = false)
    (hdone : s.perform.1 = .complete) {x : ℕ} (hlo : start ≤ x) (hhi : x < stop) :
    ∃ a ∈ made, a.task.Spans x := by
  have hnone := nextRead?_of_complete hopen hdone
  obtain ⟨fallback', hs⟩ := h.reaches.smart
  have hempty : s.copy.table.zones = [] := by
    rcases Strategy.next_smart_cases reverse fallback' s.copy.table with ⟨hempty, -⟩ |
      ⟨task, _, _, -, hn⟩
    · exact hempty
    · rw [(nextRead?_eq_some_iff hopen).mpr (by rw [hs, hn])] at hnone
      simp at hnone
  have hcovered := ZoneTable.covered_ofRange.mpr ⟨hlo, hhi⟩
  rw [h.reaches.covered_start_iff (ZoneTable.consistent_ofRange start stop), hempty] at hcovered
  exact hcovered.resolve_left (Zone.covered_nil x)

theorem surveys_ofParts {memory : Memory} {source : Source} {target : Target}
    {journal : Option Journal} {options : CopyOptions}
    (hopen : ofParts memory source target journal options = .ok s)
    (hfresh : ∀ j, journal = some j → j.restored = false) (hbad : source.FailsOn bad) :
    s.Surveys bad (.ofKind options.strategy options.skipBlocks) options.startLba source.capacity
      [] := by
  obtain ⟨-, -, hsource⟩ := ofParts_parts hopen
  obtain ⟨-, -, table, tally, hcopy, hbegun, -⟩ := ofParts_copy hopen
  obtain ⟨rfl, rfl⟩ := hbegun hfresh
  refine ⟨?_, ?_, ?_, by simp, ?_⟩
  · rw [hsource]
    exact hbad
  · rw [hsource]
    rfl
  · rw [hcopy]
    exact .start
  · rw [hcopy]
    rfl

theorem charts_ofParts {memory : Memory} {source : Source} {target : Target}
    {journal : Option Journal} {options : CopyOptions}
    (hopen : ofParts memory source target journal options = .ok s)
    (hzeros : ∀ j, journal = some j → j.bytes = Bytes.zeros source.capacity)
    (hsep : ∀ j, journal = some j → sharesFile target j = false) :
    s.Charts source.capacity [] := by
  intro j hj
  obtain ⟨hjournal, -⟩ := ofParts_parts hopen
  rw [hjournal] at hj
  subst hj
  have hbytes := hzeros j rfl
  have hsize : j.sectors = source.capacity := by simp [Journal.sectors, hbytes, Bytes.zeros]
  exact ⟨agrees_ofParts hopen (fun _ => hsize ▸ hbytes) (hsep j rfl), hsize,
    Journal.tells_zeros hbytes⟩

/-- After any number of performs of a copy that was begun anew, what counts as failed is bounded by
the runs of bad sectors. A journal in a file of its own has no bad sector for a good one, and failed
ones within a block of bad ones only; when a copy by the smart strategy is complete it has all the
other sectors. -/
theorem copy_classifies {memory : Memory} {source : Source} {target : Target}
    {journal : Option Journal} {options : CopyOptions}
    (hopen : ofParts memory source target journal options = .ok s)
    (hfresh : ∀ j, journal = some j → j.restored = false ∧ j.bytes = Bytes.zeros source.capacity)
    (hbad : source.FailsOn bad) (n : ℕ) :
    (s.after n).copy.tally.failed ≤ ∑ r ∈ badRuns bad, (r.2 - r.1 + 510) ∧
    (s.after n).journal.isSome = journal.isSome ∧
    ((∀ j, journal = some j → sharesFile target j = false) →
      ∀ k, (s.after n).journal = some k →
        (∀ x, k.status x = some .readOk → x ∉ bad) ∧
        (∀ x, k.failedAt x = true → ∃ b ∈ bad, b ≤ x + 255 ∧ x ≤ b + 255) ∧
        ((Finset.range source.capacity).filter (k.failedAt ·)).card ≤
          ∑ r ∈ badRuns bad, (r.2 - r.1 + 510) ∧
        (options.strategy = .smart ∨ options.strategy = .smartForward →
          (s.after n).perform.1 = .complete →
            ∀ x, options.startLba ≤ x → x < source.capacity →
              (∀ b ∈ bad, x + 255 < b ∨ b + 255 < x) → k.status x = some .readOk)) := by
  have hbegun := surveys_ofParts hopen (fun j hj => (hfresh j hj).1) hbad
  obtain ⟨made, h, hcharts⟩ := hbegun.after n
  have hopened : (s.after n).copy.closed = false := by
    rw [after_closed]
    exact (ofParts_strategy hopen).2
  refine ⟨h.tally_le, ?_, fun hsep k hk => ?_⟩
  · rw [after_journal_isSome, (ofParts_parts hopen).1]
  obtain ⟨-, -, htells⟩ :=
    hcharts (charts_ofParts hopen (fun j hj => (hfresh j hj).2) hsep) k hk
  refine ⟨fun x hx => htells.not_mem_of_readOk h.outcomes hx,
    fun x hx => htells.exists_near h.outcomes h.sectors_le hx, h.card_failed_le htells,
    fun hsmart hdone x hlo hhi hfar => ?_⟩
  obtain ⟨reverse, hs⟩ : ∃ reverse,
      Strategy.ofKind options.strategy options.skipBlocks = .smart reverse false := by
    rcases hsmart with hsmart | hsmart
    · exact ⟨true, by rw [hsmart]; rfl⟩
    · exact ⟨false, by rw [hsmart]; rfl⟩
  rw [hs] at h
  exact htells.readOk_of_far h.outcomes h.sectors_le
    (h.attempted_of_complete hopened hdone hlo hhi) hfar

def onesSourceAround (bad : Finset ℕ) (sectors : ℕ) : Source :=
  ⟨.posix, sectors, fun _ lba count =>
    if ∃ b ∈ bad, lba ≤ b ∧ b * sectorBytes < lba * sectorBytes + count then
      ⟨.uncorrectable, 0, #[]⟩
    else ⟨.ok, 0, Array.replicate count 1⟩, none, none, ⟨0, 0, 0, 0⟩⟩

theorem onesSourceAround_failsAt (bad : Finset ℕ) (sectors : ℕ) :
    (onesSourceAround bad sectors).FailsAt
      (fun lba count => ∃ b ∈ bad, lba ≤ b ∧ b < lba + count) := by
  intro k lba count
  have hbytes (b : ℕ) : b * sectorBytes < lba * sectorBytes + count * sectorBytes ↔
      b < lba + count := by
    simp only [sectorBytes]
    omega
  simp only [onesSourceAround, hbytes]
  split
  · next hmeets => simp [hmeets, BlockStatus.isFailure, BlockStatus.isOk]
  · next hmeets => simp [hmeets, BlockStatus.isFailure, BlockStatus.isOk]

theorem onesSourceAround_failsOn (bad : Finset ℕ) (sectors : ℕ) :
    (onesSourceAround bad sectors).FailsOn bad := by
  intro k lba count _
  rw [onesSourceAround_failsAt bad sectors k lba count, decide_eq_true_iff]

/-- The first block is good and the rest fails with its last sector, which completes the copy. -/
theorem copy_classifies_around_last_sector :
    let source := onesSourceAround {299} 300
    let s := fresh source emptyImage none .default
    ofParts .ofProcess source emptyImage (some ⟨Bytes.zeros 300, none, false⟩) .default = .ok s ∧
      source.FailsOn {299} ∧ (s.after 2).perform.1 = .complete ∧
      (s.after 2).copy.tally.failed ≤ ∑ r ∈ badRuns {299}, (r.2 - r.1 + 510) ∧
      ∃ k, (s.after 2).journal = some k ∧ k.status 43 = some .readOk ∧
        (k.failedAt 256 = true → ∃ b ∈ ({299} : Finset ℕ), b ≤ 256 + 255 ∧ 256 ≤ b + 255) := by
  intro source s
  have hfails := onesSourceAround_failsAt {299} 300
  have hopen : ofParts .ofProcess source emptyImage (some ⟨Bytes.zeros 300, none, false⟩) .default =
      .ok s := ofParts_fresh emptyImage none Memory.givesBlock_ofProcess (by decide)
  have hfirst : s.copy.strategy.next s.copy.table = (.read ⟨0, 256, .forward⟩, .smart true false,
      ⟨[.clean 0 300], some ⟨0, .forward⟩⟩) := by decide +kernel
  obtain ⟨-, hstrategy, htable⟩ := perform_of_turn rfl hfails hfirst
  have hsecond : (s.after 1).copy.strategy.next (s.after 1).copy.table =
      (.read ⟨256, 44, .forward⟩, .smart true false,
        ⟨[⟨256, 300, false, false⟩], some ⟨0, .forward⟩⟩) := by
    rw [after_one, hstrategy, htable]
    decide +kernel
  obtain ⟨-, -, hlast⟩ := perform_of_turn (after_closed 1 s) (after_failsAt hfails 1) hsecond
  have hdone : (s.after 2).perform.1 = .complete := by
    have hempty : (s.after 2).copy.table.zones = [] := by
      rw [after_succ', hlast]
      decide +kernel
    rw [perform_of_none (nextRead?_of_zones hempty)]
  have hbad := onesSourceAround_failsOn {299} 300
  have hfresh : ∀ j, some (⟨Bytes.zeros 300, none, false⟩ : Journal) = some j →
      j.restored = false ∧ j.bytes = Bytes.zeros source.capacity := by
    rintro j ⟨⟩
    exact ⟨rfl, rfl⟩
  obtain ⟨hfailed, hsome, hjournal⟩ := copy_classifies hopen hfresh hbad 2
  obtain ⟨k, hk⟩ := Option.isSome_iff_exists.mp hsome
  obtain ⟨-, hnear, -, hfar⟩ := hjournal (by simp [sharesFile]) k hk
  exact ⟨hopen, hbad, hdone, hfailed, k, hk,
    hfar (.inl rfl) hdone 43 (by decide) (by decide) (by simp), hnear 256⟩

/-- Good data that go over a journal in the image's own file call a sector good that is bad. -/
theorem copy_misclassifies_in_shared_file :
    ∃ s k, ofParts .ofProcess (onesSourceAround {256} 257) (sharedTarget (Bytes.zeros 257))
        (some (sharedJournal (Bytes.zeros 257) false)) .default = .ok s ∧
      (onesSourceAround {256} 257).FailsOn {256} ∧ (s.after 1).journal = some k ∧
      ∃ x ∈ ({256} : Finset ℕ), k.status x = some .readOk := by
  let source := onesSourceAround {256} 257
  let journal := sharedJournal (Bytes.zeros 257) false
  let s := fresh source (sharedTarget (Bytes.zeros 257)) journal.file .default
  have hopen : ofParts .ofProcess source (sharedTarget (Bytes.zeros 257)) (some journal) .default =
      .ok s := ofParts_fresh _ _ Memory.givesBlock_ofProcess (by decide)
  have hfetch : (s.fetch ⟨0, 256, .forward⟩).1 = ⟨.ok, 0, Array.replicate 131072 1⟩ := by
    change source.reading 0 0 (256 * sectorBytes) = _
    simp [source, onesSourceAround, sectorBytes]
  have hwrite := @writeAll_sharedTarget (Bytes.zeros 257) 0 (Array.replicate 131072 1) (by simp)
  have hk := @perform_journal_of_shared s ⟨0, 256, .forward⟩ _ journal rfl rfl rfl rfl
    (by rw [hfetch]; rfl) (by rw [hfetch]; exact hwrite)
  have hoffset : 0 * sectorBytes = 0 := rfl
  rw [hfetch, hoffset, ← after_one] at hk
  have hsize : journal.sectors = 257 := Array.size_replicate
  refine ⟨s, _, hopen, onesSourceAround_failsOn _ _, hk, 256, by decide, ?_⟩
  have hbyte := @getElem?_record_overwrite_ones journal 256 131072 256 (by omega) (by decide)
  rw [Journal.status, hbyte]
  rfl

end CopySession

end DriveRescue
