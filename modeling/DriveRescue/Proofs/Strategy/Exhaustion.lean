import DriveRescue.Proofs.Strategy.Consumption
import DriveRescue.Proofs.Strategy.Probing
import Mathlib.Algebra.BigOperators.Group.List.Basic

/-! A run of the smart strategy goes on until nothing is unread. Each table has a worth that bounds
the tasks to come: halving a zone does not raise it, and every read lowers it. -/
namespace DriveRescue

namespace Zone

/-- What either half of a halved zone has at the least. -/
def leastHalf : Nat := 499745

/-- A zone is worth its full blocks, a task for each time that it can be halved, and a short task at
its end. -/
def worth (z : Zone) : Nat := z.len / blockSectors + (z.len / leastHalf - 1) + 1

variable {z : Zone} {d : Direction} {failed : Bool}

theorem worth_pos (z : Zone) : 1 ≤ z.worth := Nat.le_add_left ..

/-- Only a short read leaves nothing of its zone, so that any other is a read of a full block. -/
theorem worth_after (hz : z.start < z.stop) (hne : (z.after d failed).isEmpty = false) :
    (z.after d failed).worth + 1 ≤ z.worth := by
  have hlen := after_len hz d failed
  have hpos : 0 < (z.after d failed).len := by
    have : ¬ (z.after d failed).stop ≤ (z.after d failed).start := by
      rw [← isEmpty_iff, hne]
      decide
    simp only [len]
    omega
  rw [task_sectors] at hlen
  simp only [worth, blockSectors, leastHalf] at hlen ⊢
  omega

theorem worth_halves (h : indivisibleSectors < z.len) :
    (z.leading z.middle).worth + (z.trailing z.middle).worth ≤ z.worth := by
  have hlow := alignDown_le (z.start + z.len / 2)
  have hhigh := lt_alignDown_add (z.start + z.len / 2)
  have hleading : leastHalf ≤ (z.leading z.middle).len := by
    simp only [leading, middle, leastHalf, indivisibleSectors, blockSectors, len] at h hhigh ⊢
    omega
  have htrailing : leastHalf ≤ (z.trailing z.middle).len := by
    simp only [trailing, middle, leastHalf, indivisibleSectors, len] at h hlow ⊢
    omega
  have hsum : (z.leading z.middle).len + (z.trailing z.middle).len = z.len := by
    have := middle_between h
    simp only [leading, trailing, len]
    omega
  simp only [worth, leastHalf, blockSectors] at hleading htrailing ⊢
  omega

end Zone

namespace ZoneTable

def worth (t : ZoneTable) : Nat := (t.zones.map Zone.worth).sum

variable {t : ZoneTable} {l r : List Zone} {z : Zone} {d : Direction}

theorem worth_le (t : ZoneTable) :
    t.worth ≤ t.unread / blockSectors + t.unread / Zone.leastHalf + t.size := by
  obtain ⟨zones, cursor⟩ := t
  simp only [worth, size]
  induction zones with
  | nil => simp [unread]
  | cons z zones ih =>
    have hsame : unread ⟨zones, cursor⟩ = unread ⟨zones, none⟩ := rfl
    rw [hsame] at ih
    simp only [unread_cons, List.map_cons, List.sum_cons, List.length_cons, Zone.worth,
      blockSectors, Zone.leastHalf] at ih ⊢
    omega

theorem Reading.worth_consume (h : t.Reading l z r d) (hz : z.start < z.stop) (failed : Bool) :
    (t.consume (z.task d) failed).worth + 1 ≤ t.worth := by
  have hpos := z.worth_pos
  rw [h.consume hz]
  split
  · simp only [worth, h.zones, List.map_append, List.map_cons, List.sum_append, List.sum_cons]
    omega
  · next hne =>
    have hafter := Zone.worth_after hz (eq_false_of_ne_true hne)
    simp only [worth, h.zones, List.map_append, List.map_cons, List.sum_append, List.sum_cons]
    omega

end ZoneTable

namespace Strategy

variable {reverse fallback : Bool} {s s' s₀ : Strategy} {t t' t₀ : ZoneTable}
  {task : Task} {made : List Attempt}

theorem choose_smart_fst (reverse fallback : Bool) (t : ZoneTable) :
    ∃ fallback', ((smart reverse fallback).choose t).1 = smart reverse fallback' := by
  cases fallback with
  | true => exact ⟨true, rfl⟩
  | false =>
    rcases choose_smart_cases reverse t with ⟨c, -, h⟩ | ⟨-, l, z, r, -, -, h⟩ | ⟨-, -, h⟩
    · exact ⟨false, by rw [h]⟩
    · exact ⟨false, by rw [h]⟩
    · exact ⟨true, by rw [h]⟩

theorem worth_choose_smart (reverse fallback : Bool) (t : ZoneTable) :
    ((smart reverse fallback).choose t).2.worth ≤ t.worth := by
  cases fallback with
  | true => exact Nat.le_refl _
  | false =>
    rcases choose_smart_cases reverse t with ⟨c, -, h⟩ | ⟨-, l, z, r, hlr, hlong, h⟩ | ⟨-, -, h⟩
    · rw [h]
      exact Nat.le_refl _
    · have hhalves := Zone.worth_halves hlong
      rw [h]
      simp only [ZoneTable.worth, hlr, List.map_append, List.map_cons, List.sum_append,
        List.sum_cons]
      omega
    · rw [h]
      exact Nat.le_refl _

/-- The smart strategy stops at an empty table and nowhere else. -/
theorem next_smart_cases (reverse fallback : Bool) (t : ZoneTable) :
    (t.zones = [] ∧ ∃ u, (smart reverse fallback).next t = (.done, smart reverse fallback, u) ∧
        u.zones = []) ∨
      ∃ task fallback' t', t'.worth ≤ t.worth ∧
        (smart reverse fallback).next t = (.read task, smart reverse fallback', t') := by
  cases htask : t.currentTask? with
  | some task => exact .inr ⟨task, fallback, t, Nat.le_refl _, by simp [next, htask]⟩
  | none =>
    by_cases hempty : t.zones = []
    · exact .inl ⟨hempty, t, by simp [next, htask, ZoneTable.isEmpty, hempty], hempty⟩
    · obtain ⟨l, z, r, d, hr⟩ := (chosen_smart reverse fallback hempty).exists_reading
      obtain ⟨fallback', hfst⟩ := choose_smart_fst reverse fallback t
      refine .inr ⟨z.task d, fallback', _, worth_choose_smart reverse fallback t, ?_⟩
      simp [next, htask, ZoneTable.isEmpty, hempty, hr.currentTask?, ← hfst]

theorem worth_turn (h : s.next t = (.read task, s', t')) (hc : t.Consistent) (failed : Bool) :
    (s'.settle t' task failed).2.worth + 1 ≤ t'.worth := by
  obtain ⟨l, z, r, d, rfl, hr, hp⟩ := next_poised h hc.spaced
  have hconsume := hr.worth_consume hp.nonempty failed
  simpa only [ZoneTable.worth, settle_zones] using hconsume

/-- A run of the smart strategy is cut short only by its limit, and its length is within the worth
of its table. -/
theorem runFrom_smart {fails : Nat → Task → Bool} {limit k : Nat} {made : List Attempt}
    (hc : t.Consistent) :
    let r := runFrom fails limit made k (smart reverse fallback) t
    r.attempts.length ≤ made.length + t.worth ∧
      ((r.finish = .limit ∧ r.attempts.length = made.length + limit) ∨
        (r.finish = .done ∧ r.table.zones = [])) := by
  induction limit generalizing made k fallback t with
  | zero => exact ⟨by simp [runFrom], .inl ⟨rfl, by simp [runFrom]⟩⟩
  | succ limit ih =>
    rcases next_smart_cases reverse fallback t with ⟨hnil, u, hn, hu⟩ |
      ⟨task, fallback', t', hworth, hn⟩
    · simp [runFrom, hn, hu]
    · have hlower := worth_turn hn hc (fails k task)
      obtain ⟨l, z, r, d, rfl, hr, hp⟩ := next_poised hn hc.spaced
      have hc' := consistent_settle hr hp (smart reverse fallback') (fails k (z.task d))
      have hrest := @ih fallback' _ (k + 1) (⟨z.task d, fails k (z.task d)⟩ :: made) hc'
      -- No outcome makes the strategy give up.
      have hverdict : ((smart reverse fallback').settle t' (z.task d) (fails k (z.task d))).1 =
          .proceed := by simp [settle]
      rcases hsettle : (smart reverse fallback').settle t' (z.task d) (fails k (z.task d)) with
        ⟨verdict, u⟩
      simp only [hsettle] at hverdict hlower hrest
      subst hverdict
      simp only [runFrom, hn, hsettle, List.length_cons] at hrest ⊢
      refine ⟨by omega, ?_⟩
      rcases hrest.2 with ⟨hlimit, hlen⟩ | hdone
      · exact .inl ⟨hlimit, by omega⟩
      · exact .inr hdone

theorem Reaches.smart (h : Reaches (smart reverse fallback) t₀ made s t) :
    ∃ fallback', s = Strategy.smart reverse fallback' := by
  induction h with
  | start => exact ⟨fallback, rfl⟩
  | @turn made s t task s' t' failed _ hn ih =>
    obtain ⟨fallback', rfl⟩ := ih
    rcases next_smart_cases reverse fallback' t with ⟨-, u, hn', -⟩ | ⟨_, fallback'', _, -, hn'⟩
    · simp [hn] at hn'
    · simp only [hn, Prod.mk.injEq] at hn'
      exact ⟨fallback'', hn'.2.1⟩

/-- A sector that was unread and is not any more has been read in one attempt. -/
theorem Reaches.existsUnique_attempt (h : Reaches s₀ t₀ made s t) (hc : t₀.Consistent) {x : Nat}
    (hstart : Zone.Covered t₀.zones x) (hend : ¬ Zone.Covered t.zones x) :
    ∃! i : Nat, ∃ a ∈ made[i]?, a.task.Spans x := by
  obtain ⟨a, ha, hax⟩ := ((h.covered_start_iff hc x).mp hstart).resolve_left hend
  obtain ⟨i, hi⟩ := List.getElem?_of_mem ha
  refine ⟨i, ⟨a, hi, hax⟩, ?_⟩
  rintro k ⟨b, hk, hbx⟩
  have hdisjoint := List.pairwise_iff_getElem.mp (h.pairwise_disjoint hc)
  obtain ⟨hil, rfl⟩ := List.getElem?_eq_some_iff.mp hi
  obtain ⟨hkl, rfl⟩ := List.getElem?_eq_some_iff.mp hk
  rcases Nat.lt_trichotomy k i with hlt | heq | hlt
  · exact absurd hax (hdisjoint k i hkl hil hlt x hbx)
  · exact heq
  · exact absurd hbx (hdisjoint i k hil hkl hlt x hax)

/-- Whatever the outcomes, a run of the smart strategy ends with an empty table, when each sector has
been read in one attempt. There are no more tasks than full blocks, zones at first and halves that
zones can be cut into; and a search for a task takes two turns at the most and halves one zone at
the most. -/
theorem smart_run_exhausts (hc : t₀.isConsistent = true) (reverse fallback : Bool)
    (fails : Nat → Task → Bool) {limit : Nat}
    (hlimit : t₀.unread / 256 + t₀.unread / 499745 + t₀.size < limit) :
    let r := run fails limit (smart reverse fallback) t₀
    r.finish = .done ∧ r.table.zones = [] ∧
    r.attempts.length ≤ t₀.unread / 256 + t₀.unread / 499745 + t₀.size ∧
    (∀ x, Zone.Covered t₀.zones x ↔ ∃! i : Nat, ∃ a ∈ r.attempts[i]?, a.task.Spans x) ∧
    ∀ made s t, Reaches (smart reverse fallback) t₀ made s t → ∃ fallback',
      s = smart reverse fallback' ∧ ∀ turns, ∃ halved ≤ 1,
        search reverse (turns + 2) fallback' t = some (halved, s.next t) := by
  rw [ZoneTable.isConsistent_iff] at hc
  intro r
  have hworth : t₀.worth ≤ t₀.unread / 256 + t₀.unread / 499745 + t₀.size := t₀.worth_le
  obtain ⟨hlength, hfinish⟩ := @runFrom_smart reverse fallback t₀ fails limit 0 [] hc
  have hreach := reaches_run (smart reverse fallback) t₀ fails limit
  have hlength : r.attempts.length ≤ t₀.worth := by
    rwa [List.length_nil, Nat.zero_add] at hlength
  obtain ⟨hdone, hempty⟩ : r.finish = .done ∧ r.table.zones = [] := by
    rcases hfinish with ⟨-, hcut⟩ | hdone
    · have hcut : r.attempts.length = limit := hcut.trans (Nat.zero_add _)
      omega
    · exact hdone
  have hnone (x : Nat) : ¬ Zone.Covered r.table.zones x := by simp [hempty]
  refine ⟨hdone, hempty, Nat.le_trans hlength hworth, fun x => ⟨fun hx => ?_, ?_⟩, ?_⟩
  · exact hreach.existsUnique_attempt hc hx (hnone x)
  · rintro ⟨i, ⟨a, ha, hax⟩, -⟩
    exact (hreach.covered_start_iff hc x).mpr (.inr ⟨a, List.mem_of_getElem? ha, hax⟩)
  · intro made s t h
    obtain ⟨fallback', rfl⟩ := h.smart
    exact ⟨fallback', rfl, exists_search_eq reverse fallback' (h.consistent hc)⟩

/-- A failure at the start of the lower zone has it left for the upper one; the rest of it is read
downwards. -/
theorem smart_run_exhausts_around_failure :
    let t₀ := ZoneTable.ofZones [.clean 0 600, .clean 700 800]
    let r := run (fun k _ => k == 0) 6 (smart true false) t₀
    t₀.unread / 256 + t₀.unread / 499745 + t₀.size < 6 ∧ r.finish = .done ∧
      r.attempts = [⟨⟨0, 256, .forward⟩, true⟩, ⟨⟨700, 100, .forward⟩, false⟩,
        ⟨⟨344, 256, .backward⟩, false⟩, ⟨⟨256, 88, .backward⟩, false⟩] ∧
      ∃! i : Nat, ∃ a ∈ r.attempts[i]?, a.task.Spans 300 := by
  intro t₀ r
  have hlimit : t₀.unread / 256 + t₀.unread / 499745 + t₀.size < 6 := by decide
  have hc : t₀.isConsistent = true := by decide
  have h := smart_run_exhausts hc true false (fun k _ => k == 0) hlimit
  exact ⟨hlimit, h.1, by decide +kernel,
    (h.2.2.2.1 300).mp ⟨.clean 0 600, by decide, by decide, by decide⟩⟩

end Strategy

end DriveRescue
