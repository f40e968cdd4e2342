import DriveRescue.Proofs.Strategy.Exhaustion
import DriveRescue.Proofs.Strategy.Retracing

/-! From which borders zones are read. A strategy that leaves a zone at a failure reads at clean
borders only, but for the sweeps through what is left. So each failure of the smart strategy before
its fallback uses up a clean border, and the only new ones are those of its splits. -/
namespace DriveRescue

namespace Zone

/-- The border that is read from in the given direction is clean. -/
def CleanAt (z : Zone) : Direction → Prop
  | .forward => z.startDefective = false
  | .backward => z.stopDefective = false

/-- How many borders are clean, of those that may be read from. -/
def cleanBorders (z : Zone) (reverse : Bool) : Nat :=
  (!z.startDefective).toNat + (reverse && !z.stopDefective).toNat

variable {z : Zone} {d : Direction} {reverse : Bool}

theorem CleanAt.cleanBorders_pos (h : z.CleanAt d) (hd : d = .backward → reverse = true) :
    1 ≤ z.cleanBorders reverse := by
  cases d with
  | forward =>
    have hstart : z.startDefective = false := h
    simp [cleanBorders, hstart]
  | backward =>
    have hstop : z.stopDefective = false := h
    simp [cleanBorders, hstop, hd rfl]

/-- A failure uses up the border that was read from. -/
theorem CleanAt.cleanBorders_after (h : z.CleanAt d) (hd : d = .backward → reverse = true)
    (failed : Bool) :
    (z.after d failed).cleanBorders reverse + failed.toNat = z.cleanBorders reverse := by
  cases d with
  | forward =>
    have hstart : z.startDefective = false := h
    rw [after_forward]
    cases failed <;> simp [cleanBorders, hstart, Nat.add_comm]
  | backward =>
    have hstop : z.stopDefective = false := h
    rw [after_backward]
    cases failed <;> simp [cleanBorders, hstop, hd rfl]

theorem cleanBorders_cut (z : Zone) (cut : Nat) (reverse : Bool) :
    (z.leading cut).cleanBorders reverse + (z.trailing cut).cleanBorders reverse =
      z.cleanBorders reverse + if reverse then 2 else 1 := by
  cases reverse with
  | false => simp [cleanBorders, leading, trailing]
  | true =>
    simp only [cleanBorders, leading, trailing, Bool.not_false, Bool.true_and, Bool.toNat_true,
      ↓reduceIte]
    omega

end Zone

namespace ZoneTable

/-- Clean borders in the table that may be read from, starts and stops counted apart. -/
def cleanBorders (t : ZoneTable) (reverse : Bool) : Nat :=
  (t.zones.map (·.cleanBorders reverse)).sum

variable {t : ZoneTable} {l r : List Zone} {z : Zone} {d : Direction} {reverse : Bool}

theorem Reading.cleanBorders_consume (h : t.Reading l z r d) (hz : z.start < z.stop)
    (hclean : z.CleanAt d) (hd : d = .backward → reverse = true) (failed : Bool) :
    (t.consume (z.task d) failed).cleanBorders reverse + failed.toNat ≤
      t.cleanBorders reverse := by
  have hpos := hclean.cleanBorders_pos hd
  have hafter := hclean.cleanBorders_after hd failed
  have hone := failed.toNat_le
  rw [h.consume hz]
  split <;>
  · simp only [cleanBorders, h.zones, List.map_append, List.map_cons, List.sum_append,
      List.sum_cons]
    omega

end ZoneTable

namespace Strategy

variable {s s' s₀ : Strategy} {t t' t₀ : ZoneTable} {task : Task} {made : List Attempt}
  {l r : List Zone} {z : Zone} {d : Direction} {reverse : Bool} {skipBlocks splits : Nat}

theorem Prefers.cleanAt {full : Bool} (h : s.Prefers full l z r d)
    (hleaves : s.leavesOnFailure = true) : z.CleanAt d := by
  cases s with
  | plain => simp [leavesOnFailure] at hleaves
  | smart reverse fallback =>
    obtain rfl : false = fallback := by simpa [leavesOnFailure] using hleaves.symm
    cases d with
    | forward => exact h.1
    | backward => exact h.2.1
  | skipFail reverse skipBlocks =>
    cases d with
    | forward => exact h.1
    | backward => exact h.2.2.1

/-! Leaps. -/

/-- From a table without a selection on, whatever the reads bring, a strategy that leaps reads at
clean borders unless the table is full. Downwards it reads only if it may, and never in the last
zone, so that beyond such a task there is always a sector unread. -/
theorem skipFail_spares_borders (hc : t₀.isConsistent = true) (hcursor : t₀.cursor = none)
    (h : Reaches (skipFail reverse skipBlocks) t₀ made s t)
    (hn : s.next t = (.read task, s', t')) :
    ∃ l z r d, t'.Reading l z r d ∧ task = z.task d ∧
      (t'.size < maxZones → z.CleanAt d) ∧
      (d = .backward → reverse = true ∧ r ≠ [] ∧
        ∀ x, task.Spans x → ∃ y, x < y ∧ Zone.Covered t'.zones y) := by
  rw [ZoneTable.isConsistent_iff] at hc
  obtain rfl : s = skipFail reverse skipBlocks := eq_skipFail_of_restart h.restart
  have hrestart := restart_next (skipFail reverse skipBlocks) t
  rw [hn] at hrestart
  obtain rfl : s' = skipFail reverse skipBlocks := eq_skipFail_of_restart hrestart
  obtain ⟨l, z, r, d, hr, rfl, hprefers⟩ := (h.onTrack hc hcursor).exists_reading hn
  obtain ⟨l', z', r', d', -, hr', hp⟩ := next_poised hn (h.consistent hc).spaced
  obtain ⟨rfl, rfl, rfl, rfl⟩ := hr.unique hr'
  refine ⟨l', z', r', d', hr, rfl, fun hroom => ?_, ?_⟩
  · rcases hprefers with hprefers | ⟨hfull, -⟩
    · exact hprefers.cleanAt rfl
    · simp only [ZoneTable.isFull, decide_eq_true_eq] at hfull
      omega
  · rintro rfl
    rcases hprefers with ⟨hdown, -, -, hne, -⟩ | ⟨-, -, hd⟩
    · refine ⟨hdown, hne, fun x hx => ?_⟩
      obtain ⟨w, rest, rfl⟩ := List.exists_cons_of_ne_nil hne
      have hw := hp.others.1 w (by simp)
      have habove := hp.above w (by simp)
      have hin := Zone.contains_of_task_spans hp.nonempty hx
      exact ⟨w.start, by omega, w, by simp [hr.zones], Nat.le_refl _, hw⟩
    · simp at hd

/-- After the failure of the first block a leap over the second one has it read downwards, with the
rest unread above it. -/
theorem skipFail_spares_borders_below_leap :
    let s₀ := Strategy.skipFail true 1
    let t₀ := ZoneTable.ofRange 0 1024
    let made := [⟨⟨0, 256, .forward⟩, true⟩]
    ∃ t t', t₀.isConsistent = true ∧ t₀.cursor = none ∧ Reaches s₀ t₀ made s₀ t ∧
      s₀.next t = (.read ⟨256, 256, .backward⟩, s₀, t') ∧ t'.size < maxZones ∧
      ∃ l z r d, t'.Reading l z r d ∧ (⟨256, 256, .backward⟩ : Task) = z.task d ∧ z.CleanAt d := by
  intro s₀ t₀ made
  have hc : t₀.isConsistent = true := by decide
  have hfirst : s₀.next t₀ = (.read ⟨0, 256, .forward⟩, s₀,
      ⟨[⟨0, 1024, false, false⟩], some ⟨0, .forward⟩⟩) := by decide
  have h : Reaches s₀ t₀ made s₀ ⟨[⟨256, 1024, true, false⟩], none⟩ := .turn true .start hfirst
  have hn : s₀.next ⟨[⟨256, 1024, true, false⟩], none⟩ = (.read ⟨256, 256, .backward⟩, s₀,
      ⟨[⟨256, 512, true, false⟩, ⟨512, 1024, false, false⟩], some ⟨0, .backward⟩⟩) := by decide
  obtain ⟨l, z, r, d, hr, htask, hclean, -⟩ := skipFail_spares_borders hc rfl h hn
  exact ⟨_, _, hc, rfl, h, hn, by decide, l, z, r, d, hr, htask, hclean (by decide)⟩

/-! Splits. -/

/-- The same states as are reached, with the number of zones divided on the way. A division is all
that makes zones more when a task is asked for. -/
inductive ReachesDividing (s₀ : Strategy) (t₀ : ZoneTable) :
    List Attempt → Nat → Strategy → ZoneTable → Prop
  | start : ReachesDividing s₀ t₀ [] 0 s₀ t₀
  | turn {made divided s t task s' t'} (failed : Bool) :
      ReachesDividing s₀ t₀ made divided s t → s.next t = (.read task, s', t') →
      ReachesDividing s₀ t₀ (made ++ [⟨task, failed⟩]) (divided + (t'.size - t.size)) s'
        (s'.settle t' task failed).2

theorem ReachesDividing.reaches (h : ReachesDividing s₀ t₀ made splits s t) :
    Reaches s₀ t₀ made s t := by
  induction h with
  | start => exact .start
  | turn failed _ hn ih => exact ih.turn failed hn

/-- Every reachable state has such a number. -/
theorem Reaches.exists_dividing (h : Reaches s₀ t₀ made s t) :
    ∃ divided, ReachesDividing s₀ t₀ made divided s t := by
  induction h with
  | start => exact ⟨0, .start⟩
  | turn failed _ hn ih =>
    obtain ⟨divided, hdivided⟩ := ih
    exact ⟨_, hdivided.turn failed hn⟩

theorem cleanBorders_next_smart (reverse fallback : Bool) (t : ZoneTable) :
    ((smart reverse fallback).next t).2.2.cleanBorders reverse = t.cleanBorders reverse +
      (if reverse then 2 else 1) * (((smart reverse fallback).next t).2.2.size - t.size) := by
  rcases next_smart_zones reverse fallback t with hsame | ⟨l, z, r, hz, -, hcut⟩
  · simp [ZoneTable.cleanBorders, ZoneTable.size, hsame]
  · have hone : ((smart reverse fallback).next t).2.2.size - t.size = 1 := by
      simp only [ZoneTable.size, hz, hcut, List.length_append, List.length_cons]
      omega
    have hnew := z.cleanBorders_cut z.middle reverse
    rw [hone]
    simp only [ZoneTable.cleanBorders, hz, hcut, List.map_append, List.map_cons, List.sum_append,
      List.sum_cons]
    omega

/-- There is no way back from the fallback. -/
theorem next_smart_fallback (reverse : Bool) (t : ZoneTable) :
    ((smart reverse true).next t).2.1 = smart reverse true := by
  unfold next
  split
  · rfl
  · split <;> rfl

theorem OnTrack.cleanAt_of_smart (h : s.OnTrack t)
    (hn : s.next t = (.read task, smart reverse false, t')) :
    ∃ l z r d, t'.Reading l z r d ∧ task = z.task d ∧ z.CleanAt d ∧
      (d = .backward → reverse = true) := by
  obtain ⟨l, z, r, d, hr, htask, hprefers⟩ := h.exists_reading hn
  have hprefers := hprefers.resolve_right id
  refine ⟨l, z, r, d, hr, htask, hprefers.cleanAt rfl, ?_⟩
  rintro rfl
  exact hprefers.1

theorem countP_failed_concat (made : List Attempt) (a : Attempt) :
    (made ++ [a]).countP Attempt.failed = made.countP Attempt.failed + a.failed.toNat := by
  cases ha : a.failed <;> simp [ha]

/-- What holds of failures and clean borders before the fallback. -/
theorem ReachesDividing.failures_add_cleanBorders_le (hc : t₀.Consistent)
    (hcursor : t₀.cursor = none) (h : ReachesDividing (smart reverse false) t₀ made splits s t)
    (hs : s = smart reverse false) :
    made.countP Attempt.failed + t.cleanBorders reverse ≤
      t₀.cleanBorders reverse + (if reverse then 2 else 1) * splits := by
  induction h with
  | start => simp
  | @turn made splits s t task s' t' failed h hn ih =>
    subst hs
    have hconsistent := h.reaches.consistent hc
    obtain ⟨fallback, rfl⟩ := exists_eq_smart h.reaches.restart
    obtain rfl : false = fallback := by
      cases fallback with
      | false => rfl
      | true =>
        have hstays := next_smart_fallback reverse t
        rw [hn] at hstays
        simp at hstays
    have hnext := cleanBorders_next_smart reverse false t
    obtain ⟨l, z, r, d, hr, rfl, hclean, hd⟩ :=
      (h.reaches.onTrack hc hcursor).cleanAt_of_smart hn
    have hz := nonempty_of_next hn hconsistent hr
    have hconsume := hr.cleanBorders_consume hz hclean hd failed
    have hsettled : ((smart reverse false).settle t' (z.task d) failed).2.cleanBorders reverse =
        (t'.consume (z.task d) failed).cleanBorders reverse := by
      simp only [ZoneTable.cleanBorders, settle_zones]
    have ih := ih rfl
    rw [hn] at hnext
    dsimp only at hnext
    simp only [countP_failed_concat, hsettled, Nat.mul_add]
    omega

/-- Before its fallback the smart strategy reads at clean borders only, whatever the reads bring.
Its failures up to then are no more than the clean borders at first and those that its splits have
brought: two with each split or, if starts alone are read from, one. The zones by which a turn adds
to the number of splits are the halvings of its search. -/
theorem smart_spares_borders (hc : t₀.isConsistent = true) (hcursor : t₀.cursor = none)
    (h : ReachesDividing (smart reverse false) t₀ made splits (smart reverse false) t) :
    made.countP Attempt.failed ≤ t₀.cleanBorders reverse + (if reverse then 2 else 1) * splits ∧
      ∀ task s' t', (smart reverse false).next t = (.read task, s', t') →
        search reverse 2 false t = some (t'.size - t.size, .read task, s', t') ∧
        (s' = smart reverse false →
          ∃ l z r d, t'.Reading l z r d ∧ task = z.task d ∧ z.CleanAt d) := by
  rw [ZoneTable.isConsistent_iff] at hc
  refine ⟨?_, fun task s' t' hn => ⟨search_eq_of_next (h.reaches.consistent hc) hn 0, ?_⟩⟩
  · have hsum := h.failures_add_cleanBorders_le hc hcursor rfl
    omega
  · rintro rfl
    obtain ⟨l, z, r, d, hr, htask, hclean, -⟩ :=
      (h.reaches.onTrack hc hcursor).cleanAt_of_smart hn
    exact ⟨l, z, r, d, hr, htask, hclean⟩

/-- A zone without a clean border is split, the upper half fails at its start, and the lower one is
read downwards from its stop. -/
theorem smart_spares_borders_after_split :
    let s₀ := Strategy.smart true false
    let t₀ := ZoneTable.ofZones [⟨0, 1100000, true, true⟩]
    let made := [⟨⟨549888, 256, .forward⟩, true⟩]
    ∃ t t', t₀.isConsistent = true ∧ t₀.cursor = none ∧ t₀.cleanBorders true = 0 ∧
      ReachesDividing s₀ t₀ made 1 s₀ t ∧ made.countP Attempt.failed ≤ 0 + 2 * 1 ∧
      s₀.next t = (.read ⟨549632, 256, .backward⟩, s₀, t') ∧
      ∃ l z r d, t'.Reading l z r d ∧ (⟨549632, 256, .backward⟩ : Task) = z.task d ∧
        z.CleanAt d := by
  intro s₀ t₀ made
  have hc : t₀.isConsistent = true := by decide
  have hsplit : s₀.next t₀ = (.read ⟨549888, 256, .forward⟩, s₀,
      ⟨[⟨0, 549888, true, false⟩, ⟨549888, 1100000, false, true⟩], some ⟨1, .forward⟩⟩) := by
    decide
  have h : ReachesDividing s₀ t₀ made 1 s₀
      ⟨[⟨0, 549888, true, false⟩, ⟨550144, 1100000, true, true⟩], none⟩ :=
    .turn true .start hsplit
  have hn : s₀.next ⟨[⟨0, 549888, true, false⟩, ⟨550144, 1100000, true, true⟩], none⟩ =
      (.read ⟨549632, 256, .backward⟩, s₀,
        ⟨[⟨0, 549888, true, false⟩, ⟨550144, 1100000, true, true⟩], some ⟨0, .backward⟩⟩) := by
    decide
  obtain ⟨hfailures, hnext⟩ := smart_spares_borders hc rfl h
  exact ⟨_, _, hc, rfl, by decide, h, hfailures, hn, (hnext _ _ _ hn).2 rfl⟩

end Strategy

end DriveRescue
