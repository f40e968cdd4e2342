import DriveRescue.ReadTest
import DriveRescue.Proofs.Procedure.InOrder

/-! What a read test reports of a surface. Every block of it is asked for once and in order,
whatever becomes of the others, and a source without a check of its own reads just the block. -/
namespace DriveRescue

namespace Source

/-- How the source answers for a block when it has answered for `k` others before: by its own check,
or else by a read of the block in full. -/
def answer (s : Source) (k lba sectors : Nat) : Outcome :=
  match s.checking with
  | some check => check (s.calls.verifies + k) lba sectors
  | none =>
    let reply := s.reading (s.calls.reads + k) lba (sectors * sectorBytes)
    ⟨reply.status, reply.nanos⟩

/-- The source after it has answered for `k` blocks. -/
def answered (s : Source) (k : Nat) : Source :=
  match s.checking with
  | some _ => { s with calls := { s.calls with verifies := s.calls.verifies + k } }
  | none => { s with calls := { s.calls with reads := s.calls.reads + k } }

theorem answered_zero (s : Source) : s.answered 0 = s := by
  unfold answered
  split <;> rfl

/-- A transfer buffer holds the sectors of a block, so that no read of one is cut short by it. -/
theorem read_of_block (s : Source) (lba : Nat) {sectors : Nat} (h : sectors ≤ blockSectors) :
    s.read lba (min (sectors * sectorBytes) blockBytes) = s.read lba (sectors * sectorBytes) := by
  have hfits : sectors * sectorBytes ≤ blockBytes := Nat.mul_le_mul_right _ h
  rw [Nat.min_eq_left hfits]

theorem verify_answered (s : Source) (k lba : Nat) {sectors : Nat} (h : sectors ≤ blockSectors) :
    (s.answered k).verify lba sectors blockBytes =
      (s.answer k lba sectors, s.answered (k + 1)) := by
  cases hcheck : s.checking with
  | some check =>
    simp only [verify, answer, answered, hcheck]
    rfl
  | none =>
    simp only [verify, answer, answered, hcheck, read_of_block _ _ h]
    rfl

theorem read_answered {s : Source} (hcheck : s.checking = none) (k lba sectors : Nat) :
    ∃ reply, (s.answered k).read lba (sectors * sectorBytes) = (reply, s.answered (k + 1)) ∧
      s.answer k lba sectors = ⟨reply.status, reply.nanos⟩ := by
  refine ⟨s.reading (s.calls.reads + k) lba (sectors * sectorBytes), ?_, ?_⟩
  · simp only [answered, hcheck]
    rfl
  · simp only [answer, hcheck]

end Source

namespace ReadTest

variable {t : ReadTest} {memory : Memory} {source : Source} {start stop k : Nat}

theorem perform_of_lt (hopen : t.closed = false) (hlt : t.position < t.stop) :
    let sectors := min blockSectors (t.stop - t.position)
    let verified := t.source.verify t.position sectors blockBytes
    t.perform =
      (.proceed ⟨t.position, sectors, verified.1.status, verified.1.nanos, false⟩,
        { t with
          source := verified.2
          position := t.position + sectors
          progress := t.progress.advance sectors }) := by
  intro sectors verified
  have hmore : (t.closed || decide (t.stop ≤ t.position)) = false := by
    simp [hopen, Nat.not_le_of_lt hlt]
  rw [perform, hmore]
  rfl

theorem perform_of_le (hle : t.stop ≤ t.position) : t.perform = (.complete, t) := by
  simp [perform, hle]

theorem perform_of_closed (hclosed : t.closed = true) : t.perform = (.complete, t) := by
  simp [perform, hclosed]

/-- A read test that is open goes through its sectors in order. -/
theorem inOrder (stop : Nat) :
    procedure.InOrder position stop fun t => t.closed = false ∧ t.stop = stop := by
  constructor
  · rintro t ⟨hopen, rfl⟩
    show t.perform.2.closed = false ∧ t.perform.2.stop = t.stop
    rcases Nat.lt_or_ge t.position t.stop with hlt | hle
    · rw [perform_of_lt hopen hlt]
      exact ⟨hopen, rfl⟩
    · rw [perform_of_le hle]
      exact ⟨hopen, rfl⟩
  · rintro t ⟨hopen, rfl⟩ hlt
    exact ⟨_, congrArg Prod.fst (perform_of_lt hopen hlt), rfl, rfl⟩
  · rintro t ⟨hopen, rfl⟩ hlt
    show t.perform.2.position = _ ∧ t.perform.2.progress = _
    rw [perform_of_lt hopen hlt]
    exact ⟨rfl, rfl⟩
  · rintro t ⟨-, rfl⟩ hle
    exact perform_of_le hle
  · rintro t ⟨-, rfl⟩
    rfl

/-- The report of block number `k` from `start` on, with the source's own answer for it. -/
def reportAt (source : Source) (start k : Nat) : BlockReport :=
  let lba := start + 256 * k
  let sectors := min (start + 256 * (k + 1)) source.capacity - lba
  let outcome := source.answer k lba sectors
  ⟨lba, sectors, outcome.status, outcome.nanos, false⟩

theorem ofSource_of_gives (hstart : start < source.capacity) (hmemory : memory.givesBlock = true) :
    ofSource memory source start =
      .ok ⟨source, start, source.capacity, ⟨0, source.capacity - start⟩, false⟩ := by
  rw [ofSource, TransferBuffer.allocateFrom_block, if_neg (Nat.not_le_of_lt hstart), if_pos hmemory]
  rfl

section Course

variable (h : ofSource memory source start = .ok t)

include h

theorem ofSource_eq_ok : start < source.capacity ∧ t.source = source ∧ t.position = start ∧
    t.stop = source.capacity ∧ t.progress = ⟨0, source.capacity - start⟩ ∧ t.closed = false := by
  rw [ofSource, TransferBuffer.allocateFrom_block] at h
  split at h
  · cases h
  · next hstart =>
    split at h
    · obtain rfl := Except.ok.inj h
      exact ⟨Nat.lt_of_not_le hstart, rfl, rfl, rfl, rfl, rfl⟩
    · cases h

/-- Call number `k` asks for block number `k` and for nothing else. -/
theorem perform_ofSource (hk : k < (source.capacity - start) ⌈/⌉ 256)
    (hsource : (procedure.stateAfter t k).source = source.answered k) :
    procedure.stepAt t k = .proceed (reportAt source start k) ∧
      (procedure.stateAfter t (k + 1)).source = source.answered (k + 1) := by
  obtain ⟨-, -, hposition, hstop, -, hopen⟩ := ofSource_eq_ok h
  have hready : t.closed = false ∧ t.stop = source.capacity := ⟨hopen, hstop⟩
  obtain ⟨⟨hopen', hstop'⟩, -⟩ := (inOrder source.capacity).stateAfter hready k
  rw [← hposition] at hk
  obtain ⟨hposition', hlt⟩ := (inOrder source.capacity).position_of_lt hready hk
  rw [hposition] at hposition' hlt
  have hperform := perform_of_lt hopen' (by rw [hposition', hstop']; exact hlt)
  dsimp only at hperform
  rw [hposition', hstop', hsource, Source.verify_answered _ _ _ (Nat.min_le_left ..)] at hperform
  have hspan : min blockSectors (source.capacity - (start + blockSectors * k)) =
      min (start + 256 * (k + 1)) source.capacity - (start + 256 * k) := by
    simp only [blockSectors] at hlt ⊢
    omega
  rw [hspan] at hperform
  constructor
  · exact congrArg Prod.fst hperform
  · rw [Procedure.stateAfter_succ]
    exact congrArg (fun r => r.2.source) hperform

theorem source_stateAfter (hk : k ≤ (source.capacity - start) ⌈/⌉ 256) :
    (procedure.stateAfter t k).source = source.answered k := by
  induction k with
  | zero =>
    obtain ⟨-, hsource, -⟩ := ofSource_eq_ok h
    rw [Source.answered_zero]
    exact hsource
  | succ k ih => exact (perform_ofSource h hk (ih (Nat.le_of_succ_le hk))).2

theorem stepAt_ofSource (hk : k < (source.capacity - start) ⌈/⌉ 256) :
    procedure.stepAt t k = .proceed (reportAt source start k) :=
  (perform_ofSource h hk (source_stateAfter h (Nat.le_of_lt hk))).1

end Course

/-- A read test that can be opened, as any can for whose buffer there is memory, comes to its end
whatever the source answers. Its reports are the blocks of the surface in order, each with the
source's own answer, and make up the surface without a gap or an overlap; the progress is the number
of sectors reported. Where the source has no check of its own, each block is read once, in full, and
nothing else is. -/
theorem scan_partitions_surface (memory : Memory) (hstart : start < source.capacity) :
    (memory.givesBlock = true → ∃ t, ofSource memory source start = .ok t) ∧
    ∀ t, ofSource memory source start = .ok t →
      let total := source.capacity - start
      let blocks := total ⌈/⌉ 256
      let run := procedure.loop (.free ReadTest) t
      (∀ k < blocks, procedure.stepAt t k = .proceed (reportAt source start k)) ∧
      (∀ k, blocks ≤ k → procedure.stepAt t k = .complete) ∧
      run.ending = .outcome .completed ∧
      run.events = (List.range blocks).map (fun k =>
        ⟨reportAt source start k, ⟨min (256 * (k + 1)) total, total⟩⟩) ∧
      (run.events.flatMap fun e => List.range' e.report.lba e.report.sectors) =
        List.range' start total ∧
      (∀ k, (procedure.stateAfter t k).progress =
        ⟨((procedure.events t k).map fun e => e.report.sectors).sum, total⟩) ∧
      run.state.progress = ⟨total, total⟩ ∧
      (source.checking = none →
        run.state.source.calls.reads = source.calls.reads + blocks ∧
        ∀ k < blocks, ∃ reply,
          (procedure.stateAfter t k).source.read (reportAt source start k).lba
            ((reportAt source start k).sectors * 512) =
              (reply, (procedure.stateAfter t (k + 1)).source) ∧
          (reportAt source start k).status = reply.status) := by
  refine ⟨fun hmemory => ⟨_, ofSource_of_gives hstart hmemory⟩, fun t h => ?_⟩
  obtain ⟨-, -, rfl, hstop, hbegun, hopen⟩ := ofSource_eq_ok h
  have hcourse := inOrder source.capacity
  have hready : t.closed = false ∧ t.stop = source.capacity := ⟨hopen, hstop⟩
  intro total blocks run
  have hrun : run = ⟨.outcome .completed, procedure.events t blocks,
      procedure.stateAfter t blocks⟩ := hcourse.loop_free hready
  have hproceeds : ∀ k < blocks, procedure.stepAt t k = .proceed (reportAt source t.position k) :=
    fun k hk => stepAt_ofSource h hk
  have hprogress (k : Nat) : (procedure.stateAfter t k).progress = ⟨min (256 * k) total, total⟩ :=
    hcourse.progress_stateAfter hready hbegun k
  have hall : min (blockSectors * blocks) total = total := by
    have hlast := mt Procedure.lt_ceilDiv_iff.mpr (Nat.lt_irrefl blocks)
    omega
  rw [hrun]
  refine ⟨hproceeds, fun k hk => (hcourse.stepAt_eq_complete_iff hready).mpr hk, rfl, ?_, ?_, ?_,
    ?_, fun hcheck => ⟨?_, fun k hk => ?_⟩⟩
  · refine (Procedure.events_of_proceeds hproceeds).trans ?_
    apply List.map_congr_left
    intro k _
    rw [Event.mk.injEq]
    exact ⟨rfl, hprogress (k + 1)⟩
  · exact (hcourse.spans_events hready blocks).trans (congrArg (List.range' _) hall)
  · intro k
    rw [hcourse.sum_sectors_events hready]
    exact hprogress k
  · exact (hprogress blocks).trans (by rw [Progress.mk.injEq]; exact ⟨hall, rfl⟩)
  · have hsource := source_stateAfter h (Nat.le_refl blocks)
    simp only [hsource, Source.answered, hcheck]
  · obtain ⟨reply, hread, hanswer⟩ := Source.read_answered hcheck k
      (reportAt source t.position k).lba (reportAt source t.position k).sectors
    refine ⟨reply, ?_, congrArg Outcome.status hanswer⟩
    rw [source_stateAfter h (Nat.le_of_lt hk), source_stateAfter h hk]
    exact hread

/-- The read of the first block fails. It is reported as any other, and the short one behind it is
read. -/
theorem scan_partitions_surface_around_failure :
    let source : Source := ⟨.posix, 600, fun _ lba _ => if lba = 300 then ⟨.uncorrectable, 7, #[]⟩
      else ⟨.ok, 5, #[]⟩, none, none, ⟨0, 0, 0, 0⟩⟩
    300 < source.capacity ∧ ∃ t, ofSource .ofProcess source 300 = .ok t ∧
      let run := procedure.loop (.free ReadTest) t
      run.ending = .outcome .completed ∧
      run.events = [⟨⟨300, 256, .uncorrectable, 7, false⟩, ⟨256, 300⟩⟩,
        ⟨⟨556, 44, .ok, 5, false⟩, ⟨300, 300⟩⟩] ∧
      run.state.source.calls.reads = 2 ∧
      procedure.stepAt t 2 = .complete := by
  intro source
  have hstart : 300 < source.capacity := by decide
  obtain ⟨hopens, hruns⟩ := scan_partitions_surface .ofProcess hstart
  obtain ⟨t, h⟩ := hopens Memory.givesBlock_ofProcess
  obtain ⟨-, hdone, hending, hevents, -, -, -, hreads⟩ := hruns t h
  obtain ⟨hcalls, -⟩ := hreads rfl
  exact ⟨hstart, t, h, hending, hevents.trans (by decide), hcalls.trans (by decide),
    hdone 2 (by decide)⟩

end ReadTest

end DriveRescue
