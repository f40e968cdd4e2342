import DriveRescue.Proofs.Procedure.Looping
import Mathlib.Algebra.Order.Floor.Div
import Mathlib.GroupTheory.GroupAction.Ring

/-! Jobs that go through their sectors in address order, a block at a time, whatever becomes of each
block. Such a job reports every sector once, and how many calls it takes is known beforehand. -/
namespace DriveRescue.Procedure

/-- From a ready state the job reports the block at its position and moves behind it. At `stop` it
has nothing more to do. -/
structure InOrder {σ : Type} (p : Procedure σ) (position : σ → Nat) (stop : Nat)
    (Ready : σ → Prop) : Prop where
  ready : ∀ s, Ready s → Ready (p.perform s).2
  proceeds : ∀ s, Ready s → position s < stop → ∃ report, (p.perform s).1 = .proceed report ∧
    report.lba = position s ∧ report.sectors = min blockSectors (stop - position s)
  moves : ∀ s, Ready s → position s < stop →
    position (p.perform s).2 = position s + min blockSectors (stop - position s) ∧
      p.progress (p.perform s).2 = (p.progress s).advance (min blockSectors (stop - position s))
  completes : ∀ s, Ready s → stop ≤ position s → p.perform s = (.complete, s)
  left : ∀ s, Ready s → p.blocksLeft s = stop - position s

/-- As many blocks as it takes to hold some sectors. -/
theorem lt_ceilDiv_iff {sectors k : Nat} :
    k < sectors ⌈/⌉ blockSectors ↔ blockSectors * k < sectors := by
  rw [← not_le, ceilDiv_le_iff_le_smul (by decide), smul_eq_mul, not_le]

variable {σ : Type} {p : Procedure σ} {position : σ → Nat} {stop : Nat} {Ready : σ → Prop} {s : σ}

/-- Calls that all go on are all seen. -/
theorem events_of_proceeds {report : Nat → BlockReport} {n : Nat}
    (h : ∀ k < n, p.stepAt s k = .proceed (report k)) :
    p.events s n =
      (List.range n).map fun k => ⟨report k, p.progress (p.stateAfter s (k + 1))⟩ := by
  have hevent : ∀ k ∈ List.range n, p.eventAt? s k =
      (some ∘ fun k => (⟨report k, p.progress (p.stateAfter s (k + 1))⟩ : Event)) k := by
    intro k hk
    exact eventAt?_of_report (by rw [h k (List.mem_range.mp hk)]; rfl)
  rw [events, List.filterMap_congr hevent, List.filterMap_eq_map]

namespace InOrder

/-- The run lemma: each call moves a block further, up to the end. -/
theorem stateAfter (h : p.InOrder position stop Ready) (hs : Ready s) (k : Nat) :
    Ready (p.stateAfter s k) ∧ position (p.stateAfter s k) =
      max (position s) (min (position s + blockSectors * k) stop) := by
  induction k with
  | zero =>
    refine ⟨hs, ?_⟩
    show position s = _
    omega
  | succ k ih =>
    obtain ⟨hready, hposition⟩ := ih
    rw [stateAfter_succ]
    refine ⟨h.ready _ hready, ?_⟩
    rw [Nat.mul_succ]
    rcases Nat.lt_or_ge (position (p.stateAfter s k)) stop with hlt | hle
    · rw [(h.moves _ hready hlt).1, hposition]
      omega
    · rw [h.completes _ hready hle, hposition]
      omega

theorem perform_of_le (h : p.InOrder position stop Ready) (hs : Ready s) {k : Nat}
    (hk : (stop - position s) ⌈/⌉ blockSectors ≤ k) :
    p.perform (p.stateAfter s k) = (.complete, p.stateAfter s k) := by
  obtain ⟨hready, hposition⟩ := h.stateAfter hs k
  apply h.completes _ hready
  have hk := mt lt_ceilDiv_iff.mpr (Nat.not_lt_of_le hk)
  omega

theorem stateAfter_of_le (h : p.InOrder position stop Ready) (hs : Ready s) {n k : Nat}
    (hn : (stop - position s) ⌈/⌉ blockSectors ≤ n) (hk : n ≤ k) :
    p.stateAfter s k = p.stateAfter s n := by
  induction k, hk using Nat.le_induction with
  | base => rfl
  | succ k hk ih => rw [stateAfter_succ, h.perform_of_le hs (hn.trans hk), ih]

theorem position_of_lt (h : p.InOrder position stop Ready) (hs : Ready s) {k : Nat}
    (hk : k < (stop - position s) ⌈/⌉ blockSectors) :
    position (p.stateAfter s k) = position s + blockSectors * k ∧
      position s + blockSectors * k < stop := by
  obtain ⟨-, hposition⟩ := h.stateAfter hs k
  have hlt := lt_ceilDiv_iff.mp hk
  omega

/-- Call number `k` reports block number `k`. -/
theorem exists_report (h : p.InOrder position stop Ready) (hs : Ready s) {k : Nat}
    (hk : k < (stop - position s) ⌈/⌉ blockSectors) :
    ∃ report, p.stepAt s k = .proceed report ∧ report.lba = position s + blockSectors * k ∧
      report.lba + report.sectors = min (position s + blockSectors * (k + 1)) stop := by
  obtain ⟨hready, -⟩ := h.stateAfter hs k
  obtain ⟨hposition, hlt⟩ := h.position_of_lt hs hk
  obtain ⟨report, hstep, hlba, hsectors⟩ := h.proceeds _ hready (hposition ▸ hlt)
  refine ⟨report, hstep, hlba.trans hposition, ?_⟩
  rw [hlba, hsectors, hposition, Nat.mul_succ]
  omega

theorem stepAt_eq_complete_iff (h : p.InOrder position stop Ready) (hs : Ready s) {k : Nat} :
    p.stepAt s k = .complete ↔ (stop - position s) ⌈/⌉ blockSectors ≤ k := by
  constructor
  · intro hstep
    by_contra hlt
    obtain ⟨report, hreport, -⟩ := h.exists_report hs (Nat.lt_of_not_le hlt)
    rw [hreport] at hstep
    cases hstep
  · intro hk
    exact congrArg Prod.fst (h.perform_of_le hs hk)

/-- The progress keeps up with the position. -/
theorem progress_stateAfter (h : p.InOrder position stop Ready) (hs : Ready s)
    (hbegun : p.progress s = ⟨0, stop - position s⟩) (k : Nat) :
    p.progress (p.stateAfter s k) =
      ⟨min (blockSectors * k) (stop - position s), stop - position s⟩ := by
  induction k with
  | zero =>
    rw [Nat.mul_zero, Nat.zero_min]
    exact hbegun
  | succ k ih =>
    obtain ⟨hready, hposition⟩ := h.stateAfter hs k
    rw [stateAfter_succ, Nat.mul_succ]
    rcases Nat.lt_or_ge (position (p.stateAfter s k)) stop with hlt | hle
    · rw [(h.moves _ hready hlt).2, ih, Progress.advance, Progress.mk.injEq]
      refine ⟨?_, rfl⟩
      dsimp only
      omega
    · rw [h.completes _ hready hle, ih, Progress.mk.injEq]
      refine ⟨?_, rfl⟩
      omega

/-- The blocks that are reported by the first calls, one behind the other, are the sectors from the
first position on: none is left out and none comes twice. -/
theorem spans_events (h : p.InOrder position stop Ready) (hs : Ready s) (k : Nat) :
    (p.events s k).flatMap (fun e => List.range' e.report.lba e.report.sectors) =
      List.range' (position s) (min (blockSectors * k) (stop - position s)) := by
  induction k with
  | zero => rw [Nat.mul_zero, Nat.zero_min]; rfl
  | succ k ih =>
    rw [events_succ, List.flatMap_append, ih]
    rcases Nat.lt_or_ge k ((stop - position s) ⌈/⌉ blockSectors) with hlt | hle
    · obtain ⟨report, hstep, hlba, hend⟩ := h.exists_report hs hlt
      have hroom := lt_ceilDiv_iff.mp hlt
      have hdone : min (blockSectors * k) (stop - position s) = blockSectors * k := by omega
      have hmore : min (blockSectors * (k + 1)) (stop - position s) =
          blockSectors * k + report.sectors := by omega
      rw [eventAt?_of_report (by rw [hstep]; rfl), Option.toList_some, List.flatMap_singleton,
        hdone, hmore, hlba, ← List.range'_append_1]
    · have hover := mt lt_ceilDiv_iff.mpr (Nat.not_lt_of_le hle)
      have hsame : min (blockSectors * (k + 1)) (stop - position s) =
          min (blockSectors * k) (stop - position s) := by
        rw [Nat.mul_succ]
        omega
      rw [eventAt?_of_none (by rw [(h.stepAt_eq_complete_iff hs).mpr hle]; rfl), hsame]
      exact List.append_nil _

/-- The sectors of the reports add up to those gone through. -/
theorem sum_sectors_events (h : p.InOrder position stop Ready) (hs : Ready s) (k : Nat) :
    ((p.events s k).map fun e => e.report.sectors).sum =
      min (blockSectors * k) (stop - position s) := by
  have hlength := congrArg List.length (h.spans_events hs k)
  simpa only [List.length_flatMap, List.length_range'] using hlength

theorem diminishes (h : p.InOrder position stop Ready) (hs : Ready s) : p.Diminishes s := by
  intro k report hstep
  obtain ⟨hready, hposition⟩ := h.stateAfter hs k
  obtain ⟨hready', hposition'⟩ := h.stateAfter hs (k + 1)
  have hk : ¬ (stop - position s) ⌈/⌉ blockSectors ≤ k := by
    rw [← h.stepAt_eq_complete_iff hs, hstep]
    simp
  have hlt := lt_ceilDiv_iff.mp (Nat.lt_of_not_le hk)
  rw [h.left _ hready, h.left _ hready', hposition, hposition', Nat.mul_succ]
  simp only [blockSectors] at hlt ⊢
  omega

/-- A run that nothing stops from outside reports the blocks and completes. -/
theorem loop_free (h : p.InOrder position stop Ready) (hs : Ready s) :
    let n := (stop - position s) ⌈/⌉ blockSectors
    p.loop (.free σ) s = ⟨.outcome .completed, p.events s n, p.stateAfter s n⟩ := by
  intro n
  have hgoing : ∀ i < n, ∃ report, p.stepAt s i = .proceed report := by
    intro i hi
    obtain ⟨report, hstep, -⟩ := h.exists_report hs hi
    exact ⟨report, hstep⟩
  have hstep : p.stepAt s n = .complete := (h.stepAt_eq_complete_iff hs).mpr (Nat.le_refl n)
  have hloop := (h.diminishes hs).loop_free hgoing (.completed Control.not_stops_free hstep)
  rwa [events_succ_of_none (by rw [hstep]; rfl),
    h.stateAfter_of_le hs (Nat.le_refl n) (Nat.le_succ n)] at hloop

end InOrder

end DriveRescue.Procedure
