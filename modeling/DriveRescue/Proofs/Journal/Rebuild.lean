import DriveRescue.Journal.Basic
import DriveRescue.Proofs.Zones.Spacing

/-! The zones that a journal yields: the maximal runs of its unread bytes, a border marked where a
failed sector lies beside it. -/
namespace DriveRescue

namespace Journal

variable (j : Journal)

/-- Runs lie apart, and begin at the place the scan stands at or where a run was opened before. -/
theorem spaced_unreadRuns (opened : Option Nat) (lba : Nat) (bytes : List UInt8)
    (h : ∀ s, opened = some s → s < lba) :
    Zone.Spaced 1 ((unreadRuns opened lba bytes).map j.zoneOfRun) ∧
      ∀ z ∈ (unreadRuns opened lba bytes).map j.zoneOfRun, opened.getD lba ≤ z.start := by
  -- The scan carries an open run along, so the induction is over every run that may be open.
  induction bytes generalizing opened lba with
  | nil =>
    cases opened with
    | none => simp [unreadRuns, Zone.spaced_nil]
    | some s => simp [unreadRuns, Zone.spaced_cons, Zone.spaced_nil, zoneOfRun, h s rfl]
  | cons b rest ih =>
    cases opened with
    | none =>
      simp only [unreadRuns, Option.getD_none]
      split
      · exact ih (some lba) (lba + 1) (by simp)
      · obtain ⟨hs, hle⟩ := ih none (lba + 1) (by simp)
        exact ⟨hs, fun z hz => Nat.le_of_succ_le (hle z hz)⟩
    | some s =>
      have hlt := h s rfl
      simp only [unreadRuns, Option.getD_some]
      split
      · exact ih (some s) (lba + 1) fun s' hs' => by
          obtain rfl := Option.some.inj hs'
          omega
      · obtain ⟨hs, hle⟩ := ih none (lba + 1) (by simp)
        rw [List.map_cons]
        refine ⟨Zone.spaced_cons.mpr ⟨hlt, hle, hs⟩, fun z hz => ?_⟩
        rcases List.mem_cons.mp hz with rfl | hz
        · exact Nat.le_refl s
        · have : lba + 1 ≤ z.start := hle z hz
          omega

/-- A byte counted from `lba` on is the first one or one of the rest. -/
private theorem getElem?_cons_sub (b c : UInt8) (rest : List UInt8) (lba x : Nat) :
    (lba ≤ x ∧ (b :: rest)[x - lba]? = some c) ↔
      (x = lba ∧ b = c) ∨ (lba + 1 ≤ x ∧ rest[x - (lba + 1)]? = some c) := by
  rcases Nat.lt_trichotomy x lba with hlt | rfl | hlt
  · omega
  · have hnot : ¬ x + 1 ≤ x := Nat.not_succ_le_self x
    simp [hnot]
  · rw [List.getElem?_cons, if_neg (by omega), Nat.sub_add_eq]
    simp only [Nat.le_of_lt hlt, true_and, Nat.ne_of_gt hlt, false_and, false_or,
      Nat.succ_le_of_lt hlt]

theorem covered_unreadRuns (opened : Option Nat) (lba : Nat) (bytes : List UInt8)
    (h : ∀ s, opened = some s → s < lba) (x : Nat) :
    Zone.Covered ((unreadRuns opened lba bytes).map j.zoneOfRun) x ↔
      (opened.getD lba ≤ x ∧ x < lba) ∨ (lba ≤ x ∧ bytes[x - lba]? = some 0) := by
  induction bytes generalizing opened lba with
  | nil =>
    cases opened with
    | none => simp [unreadRuns]
    | some s => simp [unreadRuns, zoneOfRun]
  | cons b rest ih =>
    rw [getElem?_cons_sub]
    cases opened with
    | none =>
      simp only [unreadRuns, Option.getD_none]
      split
      · next hb =>
        rw [ih (some lba) (lba + 1) (by simp)]
        simp only [Option.getD_some, hb, and_true]
        grind
      · next hb =>
        rw [ih none (lba + 1) (by simp)]
        simp only [Option.getD_none, hb, and_false]
        grind
    | some s =>
      have hlt := h s rfl
      simp only [unreadRuns, Option.getD_some]
      split
      · next hb =>
        rw [ih (some s) (lba + 1) fun s' hs' => by
          obtain rfl := Option.some.inj hs'
          omega]
        simp only [Option.getD_some, hb, and_true]
        grind
      · next hb =>
        rw [List.map_cons, Zone.covered_cons, ih none (lba + 1) (by simp)]
        simp only [zoneOfRun, Option.getD_none, hb, and_false, false_or]
        grind

theorem filter_nonempty {gap : Nat} {zones : List Zone} (h : Zone.Spaced gap zones) :
    zones.filter (!·.isEmpty) = zones := by
  refine List.filter_eq_self.mpr fun z hz => ?_
  have := h.1 z hz
  simp [Zone.isEmpty, this]

theorem rebuild_zones {start stop : Nat} (h : start < min stop j.sectors) :
    (j.rebuild start stop).zones =
      (unreadRuns none start (j.bytes.extract start (min stop j.sectors)).toList).map
        j.zoneOfRun := by
  simp only [rebuild, Nat.not_le.mpr h, ↓reduceIte, ZoneTable.ofZones]
  exact filter_nonempty (j.spaced_unreadRuns none start _ (by simp)).1

theorem rebuild_of_le {start stop : Nat} (h : min stop j.sectors ≤ start) :
    j.rebuild start stop = .empty := by simp [rebuild, h]

theorem rebuild_cursor (start stop : Nat) : (j.rebuild start stop).cursor = none := by
  simp only [rebuild]
  split <;> rfl

theorem spaced_rebuild (start stop : Nat) : Zone.Spaced 1 (j.rebuild start stop).zones := by
  by_cases h : min stop j.sectors ≤ start
  · rw [j.rebuild_of_le h]
    exact Zone.spaced_nil 1
  · rw [j.rebuild_zones (Nat.lt_of_not_le h)]
    exact (j.spaced_unreadRuns none start _ (by simp)).1

theorem consistent_rebuild (start stop : Nat) : (j.rebuild start stop).Consistent :=
  ⟨(j.spaced_rebuild start stop).mono (Nat.zero_le 1), by simp [rebuild_cursor]⟩

/-- Unread are the sectors of the range whose byte is zero. -/
theorem covered_rebuild (start stop x : Nat) :
    Zone.Covered (j.rebuild start stop).zones x ↔
      start ≤ x ∧ x < stop ∧ j.bytes[x]? = some 0 := by
  have hsize (hx : j.bytes[x]? = some 0) : x < j.sectors :=
    (Array.getElem?_eq_some_iff.mp hx).1
  by_cases h : min stop j.sectors ≤ start
  · rw [j.rebuild_of_le h]
    simp only [ZoneTable.empty, Zone.covered_nil, false_iff]
    rintro ⟨hlo, hhi, hx⟩
    have := hsize hx
    omega
  · rw [j.rebuild_zones (Nat.lt_of_not_le h), j.covered_unreadRuns none start _ (by simp)]
    rw [Array.getElem?_toList, Array.getElem?_extract]
    simp only [Option.getD_none]
    constructor
    · rintro (hx | ⟨hlo, hx⟩)
      · omega
      · split at hx
        · rw [Nat.add_sub_cancel' hlo] at hx
          exact ⟨hlo, by omega, hx⟩
        · simp at hx
    · rintro ⟨hlo, hhi, hx⟩
      have := hsize hx
      refine .inr ⟨hlo, ?_⟩
      rw [if_pos (by unfold sectors at *; omega), Nat.add_sub_cancel' hlo]
      exact hx

/-- The zones depend on the bytes alone. -/
theorem rebuild_congr {j k : Journal} (h : j.bytes = k.bytes) (start stop : Nat) :
    j.rebuild start stop = k.rebuild start stop := by
  have hrun : j.zoneOfRun = k.zoneOfRun := by
    funext run
    simp only [zoneOfRun, failedAt, status, h]
  have hsize : j.sectors = k.sectors := by rw [sectors, sectors, h]
  unfold rebuild
  rw [h, hrun, hsize]

theorem rebuild_zones_eq_nil {start stop : Nat}
    (h : ∀ x, start ≤ x → x < stop → j.bytes[x]? ≠ some 0) :
    (j.rebuild start stop).zones = [] := by
  cases hzones : (j.rebuild start stop).zones with
  | nil => rfl
  | cons z rest =>
    have hpos := (j.spaced_rebuild start stop).1 z (by simp [hzones])
    have hcovered : Zone.Covered (j.rebuild start stop).zones z.start := by simp [hzones, hpos]
    obtain ⟨hlo, hhi, hzero⟩ := (j.covered_rebuild start stop z.start).mp hcovered
    exact absurd hzero (h z.start hlo hhi)

/-- The marks of a zone are those of the sectors beside it. -/
theorem mem_rebuild {start stop : Nat} {z : Zone} (h : z ∈ (j.rebuild start stop).zones) :
    z = j.zoneOfRun (z.start, z.stop) := by
  by_cases hle : min stop j.sectors ≤ start
  · simp [j.rebuild_of_le hle, ZoneTable.empty] at h
  · rw [j.rebuild_zones (Nat.lt_of_not_le hle)] at h
    obtain ⟨run, -, rfl⟩ := List.mem_map.mp h
    rfl

/-- A sector is known to have failed by either of two bytes. -/
theorem failedAt_iff (x : Nat) :
    j.failedAt x = true ↔ j.bytes[x]? = some 2 ∨ j.bytes[x]? = some 3 := by
  cases hbyte : j.bytes[x]? with
  | none => simp [failedAt, status, hbyte]
  | some b =>
    simp only [failedAt, status, hbyte, Option.bind_some, SectorStatus.ofByte?, Option.some.injEq]
    grind [SectorStatus.isFailure]

theorem rebuild_startDefective_iff {start stop : Nat} {z : Zone}
    (h : z ∈ (j.rebuild start stop).zones) :
    z.startDefective = true ↔
      0 < z.start ∧ (j.bytes[z.start - 1]? = some 2 ∨ j.bytes[z.start - 1]? = some 3) := by
  rw [j.mem_rebuild h, ← j.failedAt_iff]
  simp [zoneOfRun]

theorem rebuild_stopDefective_iff {start stop : Nat} {z : Zone}
    (h : z ∈ (j.rebuild start stop).zones) :
    z.stopDefective = true ↔
      z.stop < j.sectors ∧ (j.bytes[z.stop]? = some 2 ∨ j.bytes[z.stop]? = some 3) := by
  rw [j.mem_rebuild h, ← j.failedAt_iff]
  refine ⟨fun hfailed => ⟨?_, hfailed⟩, And.right⟩
  rcases (j.failedAt_iff z.stop).mp hfailed with hbyte | hbyte <;>
    exact (Array.getElem?_eq_some_iff.mp hbyte).1

/-- A run that another one follows ends at a byte that is not zero. -/
theorem rebuild_apart {start stop : Nat} {l r : List Zone} {z w : Zone}
    (h : (j.rebuild start stop).zones = l ++ z :: w :: r) :
    z.stop < w.start ∧ ∃ b, j.bytes[z.stop]? = some b ∧ b ≠ 0 := by
  have hspaced := j.spaced_rebuild start stop
  have hz : z ∈ (j.rebuild start stop).zones := by simp [h]
  have hw : w ∈ (j.rebuild start stop).zones := by simp [h]
  have hzpos := hspaced.1 z hz
  have hwpos := hspaced.1 w hw
  have hgap : z.stop + 1 ≤ w.start := by
    rw [h] at hspaced
    exact (Zone.spaced_cons.mp (Zone.spaced_append.mp hspaced).2.1).2.1 w (by simp)
  obtain ⟨hlo, -, -⟩ := (j.covered_rebuild start stop z.start).mp ⟨z, hz, Nat.le_refl _, hzpos⟩
  obtain ⟨-, hhi, hbyte⟩ :=
    (j.covered_rebuild start stop w.start).mp ⟨w, hw, Nat.le_refl _, hwpos⟩
  have hsize : w.start < j.bytes.size := (Array.getElem?_eq_some_iff.mp hbyte).1
  refine ⟨hgap, j.bytes[z.stop], Array.getElem?_eq_getElem (by omega), fun hzero => ?_⟩
  -- An unread sector right behind the zone would lie in a zone, and none is so near.
  apply (hspaced.not_covered_beside hz).1
  rw [covered_rebuild]
  refine ⟨by omega, by omega, ?_⟩
  rw [Array.getElem?_eq_getElem (by omega), hzero]

/-- The zones are the maximal runs of zero bytes in the range, as far as there are bytes. A border
is marked where the byte beside it stands for a failure, even if that byte lies outside the
range. -/
theorem rebuild_finds_unread_runs (start stop : Nat) :
    (j.rebuild start stop).isConsistent = true ∧
    (j.rebuild start stop).cursor = none ∧
    (∀ x, Zone.Covered (j.rebuild start stop).zones x ↔
      start ≤ x ∧ x < min stop j.sectors ∧ j.bytes[x]? = some 0) ∧
    (∀ l z w r, (j.rebuild start stop).zones = l ++ z :: w :: r →
      z.stop < w.start ∧ ∃ b, j.bytes[z.stop]? = some b ∧ b ≠ 0) ∧
    ∀ z ∈ (j.rebuild start stop).zones,
      (z.startDefective = true ↔
        0 < z.start ∧ (j.bytes[z.start - 1]? = some 2 ∨ j.bytes[z.start - 1]? = some 3)) ∧
      (z.stopDefective = true ↔
        z.stop < j.sectors ∧ (j.bytes[z.stop]? = some 2 ∨ j.bytes[z.stop]? = some 3)) := by
  refine ⟨ZoneTable.isConsistent_iff.mpr (j.consistent_rebuild start stop),
    j.rebuild_cursor start stop, fun x => ?_, fun l z w r h => j.rebuild_apart h,
    fun z hz => ⟨j.rebuild_startDefective_iff hz, j.rebuild_stopDefective_iff hz⟩⟩
  rw [covered_rebuild]
  refine ⟨fun ⟨hlo, hhi, hx⟩ => ⟨hlo, ?_, hx⟩, fun ⟨hlo, hhi, hx⟩ => ⟨hlo, by omega, hx⟩⟩
  exact Nat.lt_min.mpr ⟨hhi, (Array.getElem?_eq_some_iff.mp hx).1⟩

/-- Two runs with a byte between them. Their outer borders touch failures beyond the range. -/
theorem rebuild_finds_unread_runs_between_failures :
    let j : Journal := ⟨#[0, 2, 0, 0, 1, 0, 3, 0], none, true⟩
    (j.rebuild 2 6).zones = [⟨2, 4, true, false⟩, ⟨5, 6, false, true⟩] ∧
      (4 < 5 ∧ ∃ b, j.bytes[4]? = some b ∧ b ≠ 0) ∧
      (0 < 2 ∧ (j.bytes[2 - 1]? = some 2 ∨ j.bytes[2 - 1]? = some 3)) ∧
      (6 < j.sectors ∧ (j.bytes[6]? = some 2 ∨ j.bytes[6]? = some 3)) := by
  intro j
  have hzones : (j.rebuild 2 6).zones = [⟨2, 4, true, false⟩, ⟨5, 6, false, true⟩] := by
    decide +kernel
  obtain ⟨-, -, -, hapart, hmarks⟩ := j.rebuild_finds_unread_runs 2 6
  have hlower := (hmarks ⟨2, 4, true, false⟩ (by simp [hzones])).1
  have hupper := (hmarks ⟨5, 6, false, true⟩ (by simp [hzones])).2
  exact ⟨hzones, hapart [] _ _ [] hzones, hlower.mp rfl, hupper.mp rfl⟩

end Journal

end DriveRescue
