import DriveRescue.Proofs.Strategy.Consumption
import DriveRescue.Proofs.Strategy.Leaping

/-! When a strategy that leaps gives up. It does so on a table that has room for another zone, all
of whose zones are within one leap and none of whose borders may be read; any other table it reads
on, from a border of a zone or from a cut that it makes for that. -/
namespace DriveRescue

namespace Zone

variable {reverse : Bool} {blocks : Nat} {z : Zone} {zones : List Zone}

theorem mem_dropLast_iff : z ∈ zones.dropLast ↔ ∃ l r, zones = l ++ z :: r ∧ r ≠ [] := by
  constructor
  · intro hz
    have hne : zones ≠ [] := by
      rintro rfl
      simp at hz
    obtain ⟨l, r, hlr⟩ := List.append_of_mem hz
    refine ⟨l, r ++ [zones.getLast hne], ?_, by simp⟩
    rw [← List.cons_append, ← List.append_assoc, ← hlr, List.dropLast_concat_getLast]
  · rintro ⟨l, r, rfl, hr⟩
    rw [List.dropLast_append_of_ne_nil (List.cons_ne_nil z r), List.dropLast_cons_of_ne_nil hr]
    simp

theorem stuck_iff (hblocks : 1 ≤ blocks) : z.Stuck reverse false (blocks * blockSectors) ↔
    z.startDefective = true ∧ z.len ≤ blocks * blockSectors ∧
      (reverse = true → z.stopDefective = true) := by
  constructor
  · intro h
    exact ⟨h.start, h.len_le hblocks, h.stop⟩
  · rintro ⟨hstart, hlen, hstop⟩
    exact ⟨hstart, hstop, .inr (.inl hlen)⟩

theorem passedOver_iff (hblocks : 1 ≤ blocks) :
    PassedOver reverse false (blocks * blockSectors) zones ↔
      (∀ z ∈ zones, z.startDefective = true ∧ z.len ≤ blocks * blockSectors) ∧
        (reverse = true → ∀ z ∈ zones.dropLast, z.stopDefective = true) := by
  simp only [PassedOver, stuck_iff hblocks, stop_counts_iff]
  constructor
  · intro h
    constructor
    · intro z hz
      obtain ⟨l, r, hlr⟩ := List.append_of_mem hz
      exact ⟨(h l z r hlr).1, (h l z r hlr).2.1⟩
    · intro hreverse z hz
      obtain ⟨l, r, hlr, hr⟩ := mem_dropLast_iff.mp hz
      exact (h l z r hlr).2.2 ⟨hreverse, hr⟩
  · rintro ⟨hshort, hstop⟩ l z r hlr
    obtain ⟨hstart, hlen⟩ := hshort z (by simp [hlr])
    refine ⟨hstart, hlen, fun hborder => ?_⟩
    exact hstop hborder.1 z (mem_dropLast_iff.mpr ⟨l, r, hlr, hborder.2⟩)

end Zone

namespace ZoneTable

variable {t u : ZoneTable} {reverse full : Bool} {skip : Nat}

/-- A zone of the table is selected in `u`, or one of the table after a cut. -/
def SelectedIn (t u : ZoneTable) : Prop :=
  ∃ v i d z, (v = t ∨ ∃ k cut, t.carve? k cut = some (k + 1, v)) ∧ v.zones[i]? = some z ∧
    u = v.select i d

theorem selectedIn_select {i : Nat} (h : i < t.zones.length) (d : Direction) :
    t.SelectedIn (t.select i d) :=
  ⟨t, i, d, t.zones[i], .inl rfl, List.getElem?_eq_getElem h, rfl⟩

theorem selectedIn_of_carve? {v : ZoneTable} {k i cut : Nat} (h : t.carve? k cut = some (k + 1, v))
    (hi : i ≤ k + 1) (d : Direction) : t.SelectedIn (v.select i d) := by
  obtain ⟨l, z, r, -, rfl, -, -, -, hv⟩ := carve?_eq_some h
  have hlt : i < v.zones.length := by
    simp only [hv, List.length_append, List.length_cons]
    omega
  exact ⟨v, i, d, v.zones[i], .inr ⟨l.length, cut, h⟩, List.getElem?_eq_getElem hlt, rfl⟩

/-- A scan cuts once at most. -/
theorem selectedIn_of_leap? {i : Nat} {zones : List Zone}
    (hi : i + zones.length = t.zones.length) (h : t.leap? reverse full skip i zones = some u) :
    t.SelectedIn u := by
  induction zones generalizing i with
  | nil => simp [leap?] at h
  | cons z rest ih =>
    simp only [List.length_cons] at hi
    simp only [leap?] at h
    split at h
    · obtain rfl := Option.some.inj h
      exact selectedIn_select (by omega) _
    · split at h
      · obtain rfl := Option.some.inj h
        exact selectedIn_select (by omega) _
      · split at h
        · next upper v hcarve =>
          split at hcarve
          · obtain ⟨-, -, -, -, -, rfl, -⟩ := carve?_eq_some hcarve
            obtain rfl := Option.some.inj h
            cases reverse with
            | true => exact selectedIn_of_carve? hcarve (Nat.le_succ i) _
            | false => exact selectedIn_of_carve? hcarve (Nat.le_refl _) _
          · simp at hcarve
        · exact ih (by omega) h

end ZoneTable

namespace Strategy

variable {s s' : Strategy} {t u : ZoneTable} {reverse : Bool} {skipBlocks : Nat}

theorem next_of_selectedIn (hne : t.zones ≠ []) (hnone : t.currentTask? = none)
    (hu : t.SelectedIn u) (hchoose : s.choose t = (s', u)) :
    ∃ v i d z, (v = t ∨ ∃ k cut, t.carve? k cut = some (k + 1, v)) ∧ v.zones[i]? = some z ∧
      s.next t = (.read (z.task d), s', v.select i d) := by
  obtain ⟨v, i, d, z, hv, hz, rfl⟩ := hu
  refine ⟨v, i, d, z, hv, hz, ?_⟩
  have htask : (v.select i d).currentTask? = some (z.task d) := by
    simp [ZoneTable.currentTask?, ZoneTable.select, hz]
  rw [s.next_of_currentTask? hne hnone, hchoose, htask, Option.elim_some]

/-- A table with room is left alone by a scan that stops nowhere. -/
theorem next_skipFail_of_scan (hne : t.zones ≠ []) (hnone : t.currentTask? = none)
    (hroom : t.isFull = false)
    (hscan : t.leap? reverse t.isFull (skipSectors skipBlocks) 0 t.zones = none) :
    (skipFail reverse skipBlocks).next t = (.unresolved, skipFail reverse skipBlocks, t) := by
  have hchoose : (skipFail reverse skipBlocks).choose t = (skipFail reverse skipBlocks, t) := by
    simp only [choose, hscan, if_neg (ne_true_of_eq_false hroom)]
  rw [next_of_currentTask? _ hne hnone, hchoose, hnone, Option.elim_none]

/-- The strategy reads at a border, or it passes over all zones of a table that has room. -/
theorem next_skipFail_reads_or_ends (reverse : Bool) (skipBlocks : Nat) (hne : t.zones ≠ [])
    (hnone : t.currentTask? = none) :
    (∃ v i d z, (v = t ∨ ∃ k cut, t.carve? k cut = some (k + 1, v)) ∧ v.zones[i]? = some z ∧
        (skipFail reverse skipBlocks).next t =
          (.read (z.task d), skipFail reverse skipBlocks, v.select i d)) ∨
      (t.isFull = false ∧ Zone.PassedOver reverse false (skipSectors skipBlocks) t.zones ∧
        (skipFail reverse skipBlocks).next t = (.unresolved, skipFail reverse skipBlocks, t)) := by
  cases hscan : t.leap? reverse t.isFull (skipSectors skipBlocks) 0 t.zones with
  | some u =>
    have hu := ZoneTable.selectedIn_of_leap? (Nat.zero_add _) hscan
    exact .inl (next_of_selectedIn hne hnone hu (by simp only [choose, hscan]))
  | none =>
    by_cases hfull : t.isFull = true
    · have hfirst := ZoneTable.selectedIn_select (List.length_pos_iff.mpr hne) .forward
      exact .inl (next_of_selectedIn hne hnone hfirst (by simp only [choose, hscan, if_pos hfull]))
    · have hroom := eq_false_of_ne_true hfull
      refine .inr ⟨hroom, fun l z r hz => ?_, next_skipFail_of_scan hne hnone hroom hscan⟩
      have hstuck := @ZoneTable.stuck_of_leap?_eq_none t reverse _ [] r l z t.zones rfl hscan hz
      rwa [hroom] at hstuck

theorem next_skipFail_of_passedOver (hne : t.zones ≠ []) (hnone : t.currentTask? = none)
    (hroom : t.isFull = false)
    (hpassed : Zone.PassedOver reverse false (skipSectors skipBlocks) t.zones) :
    (skipFail reverse skipBlocks).next t = (.unresolved, skipFail reverse skipBlocks, t) := by
  apply next_skipFail_of_scan hne hnone hroom
  rw [hroom]
  exact @ZoneTable.leap?_of_passedOver t reverse false _ [] t.zones rfl hpassed

/-- On a consistent table that has zones but none selected the strategy gives up if and only if the
table has room, every zone is marked at its start and within one leap, and, where stops may be read
from, every zone but the last is marked at its stop. Otherwise it reads an end of a zone of the
table, or of the table after one cut. It is never done while zones are left. -/
theorem skipFail_gives_up_iff (hc : t.isConsistent = true) (hne : t.zones ≠ [])
    (hfree : t.cursor = none) (hskip : max skipBlocks 1 * 256 < 2 ^ 64) :
    let s := skipFail reverse (max skipBlocks 1)
    ((s.next t).1 = .unresolved ↔
      t.size < maxZones ∧
      (∀ z ∈ t.zones, z.startDefective = true ∧ z.len ≤ max skipBlocks 1 * 256) ∧
      (reverse = true → ∀ z ∈ t.zones.dropLast, z.stopDefective = true)) ∧
    ((s.next t).1 = .unresolved → s.next t = (.unresolved, s, t)) ∧
    ((s.next t).1 ≠ .unresolved →
      ∃ u i d z, (u = t ∨ ∃ k cut, t.carve? k cut = some (k + 1, u)) ∧ u.zones[i]? = some z ∧
        s.next t = (.read (z.task d), s, u.select i d) ∧
        (z.task d).IsEndOf z ∧ 1 ≤ (z.task d).sectors ∧ (z.task d).sectors ≤ 256) ∧
    (s.next t).1 ≠ .done := by
  intro s
  rw [ZoneTable.isConsistent_iff] at hc
  have hleap : skipSectors (max skipBlocks 1) = max skipBlocks 1 * 256 := skipSectors_of_lt hskip
  have hiff := @Zone.passedOver_iff reverse _ t.zones (Nat.le_max_right skipBlocks 1)
  have hnone := ZoneTable.currentTask?_of_cursor hfree
  have hcases := next_skipFail_reads_or_ends reverse (max skipBlocks 1) hne hnone
  rw [hleap] at hcases
  rcases hcases with ⟨u, i, d, z, hu, hz, hread⟩ | ⟨hroom, hpassed, hgive⟩
  · have hgoes : (s.next t).1 = .read (z.task d) := congrArg Prod.fst hread
    have hnonempty : z.start < z.stop := by
      have hconsistent := s.consistent_next hc
      rw [hread] at hconsistent
      exact hconsistent.spaced.1 z (List.mem_of_getElem? hz)
    refine ⟨?_, by simp [hgoes], fun _ => ?_, by simp [hgoes]⟩
    · constructor
      · simp [hgoes]
      · rintro ⟨hroom, hshort⟩
        have hgive := next_skipFail_of_passedOver hne hnone
          (ZoneTable.isFull_eq_false_iff.mpr hroom) (hleap ▸ hiff.mpr hshort)
        exact congrArg Prod.fst hgive
    · refine ⟨u, i, d, z, hu, hz, hread, z.task_isEndOf d hnonempty,
        Zone.task_sectors_pos hnonempty d, ?_⟩
      rw [Zone.task_sectors]
      exact Nat.min_le_right ..
  · have hends : (s.next t).1 = .unresolved := congrArg Prod.fst hgive
    refine ⟨?_, fun _ => hgive, fun hgoes => absurd hends hgoes, by simp [hends]⟩
    constructor
    · intro _
      exact ⟨ZoneTable.isFull_eq_false_iff.mp hroom, hiff.mp hpassed⟩
    · intro _
      exact hends

/-- Two zones within a leap are given up, one beyond it is cut and read downwards from the cut. -/
theorem skipFail_gives_up_within_a_leap :
    let s := skipFail true (max 2 1)
    let short : ZoneTable := ⟨[⟨256, 512, true, true⟩, ⟨1024, 1100, true, false⟩], none⟩
    let long : ZoneTable := ⟨[⟨300, 900, true, true⟩], none⟩
    max 2 1 * 256 < 2 ^ 64 ∧ short.isConsistent = true ∧ (s.next short).1 = .unresolved ∧
      long.isConsistent = true ∧ ∃ u i d z,
        (u = long ∨ ∃ k cut, long.carve? k cut = some (k + 1, u)) ∧
        u.zones[i]? = some z ∧ s.next long = (.read (z.task d), s, u.select i d) ∧
        (z.task d).IsEndOf z := by
  intro s short long
  have hskip : max 2 1 * 256 < 2 ^ 64 := by decide
  have hshort : short.isConsistent = true := by decide
  have hlong : long.isConsistent = true := by decide
  obtain ⟨hgives, -⟩ := @skipFail_gives_up_iff short true 2 hshort (by decide) rfl hskip
  obtain ⟨-, -, hreads, -⟩ := @skipFail_gives_up_iff long true 2 hlong (by decide) rfl hskip
  obtain ⟨u, i, d, z, hu, hz, hread, hend, -⟩ := hreads (by decide)
  refine ⟨hskip, hshort, hgives.mpr ?_, hlong, u, i, d, z, hu, hz, hread, hend⟩
  decide

end Strategy

end DriveRescue
