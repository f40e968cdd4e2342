import DriveRescue.Proofs.Strategy.Choice

/-! How the skip-fail strategy finds a task. It passes over the zones that it can do nothing with
and stops at the first other one, to read it from a clean border or to leap into it. -/
namespace DriveRescue

namespace Zone

def landing (skip : Nat) (z : Zone) : Nat := alignDown (z.start + skip)

structure Stuck (reverse full : Bool) (skip : Nat) (z : Zone) : Prop where
  start : z.startDefective = true
  stop : reverse = true → z.stopDefective = true
  short : full = true ∨ z.len ≤ skip ∨ z.landing skip ≤ z.start

/-- A scan passes over all of `zones`. The stop of the last one does not count. -/
def PassedOver (reverse full : Bool) (skip : Nat) (zones : List Zone) : Prop :=
  ∀ l z r, zones = l ++ z :: r → z.Stuck (reverse && !r.isEmpty) full skip

variable {reverse full : Bool} {skip : Nat} {z : Zone}

/-- The stop of a zone counts if zones are read downwards and it is not the last. -/
theorem stop_counts_iff {r : List Zone} :
    (reverse && !r.isEmpty) = true ↔ reverse = true ∧ r ≠ [] := by
  simp

/-- What is too short for a leap stays so when there is no room for leaps any more. -/
theorem Stuck.of_room (h : z.Stuck reverse false skip) (full : Bool) : z.Stuck reverse full skip :=
  ⟨h.start, h.stop, .inr (h.short.resolve_left (by decide))⟩

theorem landing_lt_stop (h : skip < z.len) : z.landing skip < z.stop := by
  have hle := alignDown_le (z.start + skip)
  simp only [landing, len] at h hle ⊢
  omega

/-- A leap of whole blocks lands beyond the start. -/
theorem start_lt_landing {blocks : Nat} (hblocks : 1 ≤ blocks) (z : Zone) :
    z.start < z.landing (blocks * blockSectors) := by
  have hlt := lt_alignDown_add (z.start + blocks * blockSectors)
  simp only [landing, blockSectors] at hlt ⊢
  omega

/-- A zone that is too short for a leap of whole blocks is no longer than the leap. -/
theorem Stuck.len_le {blocks : Nat} (hblocks : 1 ≤ blocks)
    (h : z.Stuck reverse false (blocks * blockSectors)) : z.len ≤ blocks * blockSectors := by
  rcases h.short with hfull | hshort | hlanding
  · simp at hfull
  · exact hshort
  · have hlt := z.start_lt_landing hblocks
    omega

theorem leading_landing_len_le (skip : Nat) (z : Zone) :
    (z.leading (z.landing skip)).len ≤ skip := by
  have hle := alignDown_le (z.start + skip)
  simp only [leading, landing, len]
  omega

end Zone

namespace ZoneTable

variable {t : ZoneTable} {reverse full : Bool} {skip : Nat} {l r pre : List Zone} {z : Zone}

theorem carve?_eq (h : t.zones = l ++ z :: r) (hfull : t.isFull = false) {cut : Nat}
    (hlo : z.start < cut) (hhi : cut < z.stop) :
    t.carve? l.length cut = some (l.length + 1,
      ⟨l ++ z.leading cut :: z.trailing cut :: r, t.cursor.map (·.afterInsert l.length)⟩) := by
  simp [carve?, divide?, h, hfull, hlo, hhi]

/-- No leap starts in a zone that is short, or for whose pieces the table has no room. -/
theorem leap?_of_short (h : t.zones = l ++ z :: r) (hstart : z.startDefective = true)
    (hborder : (reverse && !z.stopDefective && !r.isEmpty) = false)
    (hshort : full = true ∨ z.len ≤ skip ∨ z.landing skip ≤ z.start) :
    t.leap? reverse full skip l.length (z :: r) =
      t.leap? reverse full skip (l.length + 1) r := by
  have hcarve : (if skip < z.len && !full then t.carve? l.length (alignDown (z.start + skip))
      else none) = none := by
    rcases hshort with hfull | hshort | hlanding
    · simp [hfull]
    · simp [Nat.not_lt.mpr hshort]
    · have hno : ¬ z.start < alignDown (z.start + skip) := Nat.not_lt.mpr hlanding
      simp [carve?, h, hno]
  rw [leap?, if_neg (by simp [hstart]), hborder]
  simp only [hcarve, Bool.false_eq_true, ↓reduceIte]

/-- The scan comes to the first zone that is not passed over. -/
theorem leap?_append_of_stuck (h : t.zones = l ++ (pre ++ r))
    (hpre : ∀ w ∈ pre, w.Stuck reverse full skip) :
    t.leap? reverse full skip l.length (pre ++ r) =
      t.leap? reverse full skip (l.length + pre.length) r := by
  induction pre generalizing l with
  | nil => rfl
  | cons w pre ih =>
    have hw := hpre w (by simp)
    have hborder : (reverse && !w.stopDefective && !(pre ++ r).isEmpty) = false := by
      cases reverse with
      | false => rfl
      | true => simp [hw.stop rfl]
    have hrest := @ih (l ++ [w]) (by simpa using h) fun v hv => hpre v (by simp [hv])
    rw [List.cons_append, leap?_of_short (by simpa using h) hw.start hborder hw.short]
    simpa [Nat.add_assoc, Nat.add_comm 1] using hrest

/-- Where a scan stops, and what it does there. -/
inductive Leapt (t : ZoneTable) (reverse : Bool) (skip : Nat) (u : ZoneTable) : Prop
  | upwards (l : List Zone) (z : Zone) (r : List Zone) : t.zones = l ++ z :: r →
      (∀ w ∈ l, w.Stuck reverse t.isFull skip) → z.startDefective = false →
      u = t.select l.length .forward → Leapt t reverse skip u
  | downwards (l : List Zone) (z : Zone) (r : List Zone) : t.zones = l ++ z :: r →
      (∀ w ∈ l, w.Stuck reverse t.isFull skip) → reverse = true → z.startDefective = true →
      z.stopDefective = false → r ≠ [] → u = t.select l.length .backward → Leapt t reverse skip u
  | leap (l : List Zone) (z : Zone) (r : List Zone) : t.zones = l ++ z :: r →
      (∀ w ∈ l, w.Stuck reverse false skip) → z.startDefective = true →
      z.start < z.landing skip → z.landing skip < z.stop →
      u = ⟨l ++ z.leading (z.landing skip) :: z.trailing (z.landing skip) :: r,
        some (if reverse then ⟨l.length, .backward⟩ else ⟨l.length + 1, .forward⟩)⟩ →
      Leapt t reverse skip u

/-- What the scan does with the zone that it has come to. -/
theorem leap?_cases (h : t.zones = l ++ z :: r) (reverse : Bool) (skip : Nat) :
    (z.startDefective = false ∧
        t.leap? reverse t.isFull skip l.length (z :: r) = some (t.select l.length .forward)) ∨
      (reverse = true ∧ z.startDefective = true ∧ z.stopDefective = false ∧ r ≠ [] ∧
        t.leap? reverse t.isFull skip l.length (z :: r) = some (t.select l.length .backward)) ∨
      (t.isFull = false ∧ z.startDefective = true ∧ z.start < z.landing skip ∧
        z.landing skip < z.stop ∧
        t.leap? reverse t.isFull skip l.length (z :: r) =
          some ⟨l ++ z.leading (z.landing skip) :: z.trailing (z.landing skip) :: r,
            some (if reverse then ⟨l.length, .backward⟩ else ⟨l.length + 1, .forward⟩)⟩) ∨
      (z.Stuck (reverse && !r.isEmpty) t.isFull skip ∧
        t.leap? reverse t.isFull skip l.length (z :: r) =
          t.leap? reverse t.isFull skip (l.length + 1) r) := by
  by_cases hstart : z.startDefective = true
  swap
  · exact .inl ⟨by simpa using hstart, by rw [leap?, if_pos (by simp [hstart])]⟩
  by_cases hborder : (reverse && !z.stopDefective && !r.isEmpty) = true
  · refine .inr (.inl ?_)
    have hscan : t.leap? reverse t.isFull skip l.length (z :: r) =
        some (t.select l.length .backward) := by
      rw [leap?, if_neg (by simp [hstart]), if_pos hborder]
    simp only [Bool.and_eq_true, Bool.not_eq_eq_eq_not, Bool.not_true] at hborder
    exact ⟨hborder.1.1, hstart, hborder.1.2, by simpa using hborder.2, hscan⟩
  have hborder := eq_false_of_ne_true hborder
  by_cases hleap : t.isFull = false ∧ skip < z.len ∧ z.start < z.landing skip
  · obtain ⟨hfull, hlong, hlo⟩ := hleap
    have hhi := Zone.landing_lt_stop hlong
    have hcarve := carve?_eq h hfull hlo hhi
    rw [Zone.landing] at hcarve
    refine .inr (.inr (.inl ⟨hfull, hstart, hlo, hhi, ?_⟩))
    rw [leap?, if_neg (by simp [hstart]), hborder]
    simp only [hlong, hfull, decide_true, Bool.not_false, Bool.and_self, ↓reduceIte,
      hcarve, Bool.false_eq_true]
    cases reverse <;> rfl
  · have hshort : t.isFull = true ∨ z.len ≤ skip ∨ z.landing skip ≤ z.start := by
      cases hfull : t.isFull with
      | true => exact .inl rfl
      | false =>
        simp only [hfull, true_and] at hleap
        exact .inr (by omega)
    refine .inr (.inr (.inr ⟨⟨hstart, fun hdown => ?_, hshort⟩, ?_⟩))
    · -- The zone is not the last, so that what keeps it from being read is a marked stop.
      simp only [Bool.and_eq_true] at hdown
      simpa [hdown.1, hdown.2] using hborder
    · exact leap?_of_short h hstart hborder hshort

theorem leapt_of_leap? {u : ZoneTable} {zones : List Zone} (h : t.zones = l ++ zones)
    (hl : ∀ w ∈ l, w.Stuck reverse t.isFull skip)
    (hu : t.leap? reverse t.isFull skip l.length zones = some u) : t.Leapt reverse skip u := by
  induction zones generalizing l with
  | nil => simp [leap?] at hu
  | cons z r ih =>
    rcases leap?_cases h reverse skip with ⟨hstart, hscan⟩ | ⟨hdown, hstart, hstop, hr, hscan⟩ |
      ⟨hfull, hstart, hlo, hhi, hscan⟩ | ⟨hstuck, hscan⟩
    · exact .upwards l z r h hl hstart (Option.some.inj (hu.symm.trans hscan))
    · exact .downwards l z r h hl hdown hstart hstop hr (Option.some.inj (hu.symm.trans hscan))
    · exact .leap l z r h (hfull ▸ hl) hstart hlo hhi (Option.some.inj (hu.symm.trans hscan))
    · rw [hscan] at hu
      cases r with
      | nil => simp [leap?] at hu
      | cons w r =>
        have hstuck : z.Stuck reverse t.isFull skip := by simpa using hstuck
        refine @ih (l ++ [z]) (by simpa using h) ?_ (by simpa using hu)
        intro v hv
        rcases List.mem_append.mp hv with hv | hv
        · exact hl v hv
        · obtain rfl := List.mem_singleton.mp hv
          exact hstuck

/-- A scan that stops nowhere has passed over every zone, the last one even if its stop is clean. -/
theorem stuck_of_leap?_eq_none {zones : List Zone} (h : t.zones = l ++ zones)
    (hnone : t.leap? reverse t.isFull skip l.length zones = none) (hz : zones = pre ++ z :: r) :
    z.Stuck (reverse && !r.isEmpty) t.isFull skip := by
  induction zones generalizing l pre with
  | nil => simp at hz
  | cons w rest ih =>
    rcases leap?_cases h reverse skip with ⟨-, hscan⟩ | ⟨-, -, -, -, hscan⟩ |
      ⟨-, -, -, -, hscan⟩ | ⟨hstuck, hscan⟩
    · simp [hscan] at hnone
    · simp [hscan] at hnone
    · simp [hscan] at hnone
    · cases pre with
      | nil =>
        obtain ⟨rfl, rfl⟩ := List.cons.inj hz
        exact hstuck
      | cons v pre =>
        obtain ⟨rfl, rfl⟩ := List.cons.inj hz
        rw [hscan] at hnone
        exact @ih (l ++ [w]) pre (by simpa using h) (by simpa using hnone) rfl

theorem leap?_of_passedOver {zones : List Zone} (h : t.zones = l ++ zones)
    (hpassed : Zone.PassedOver reverse full skip zones) :
    t.leap? reverse full skip l.length zones = none := by
  induction zones generalizing l with
  | nil => rfl
  | cons w rest ih =>
    have hw := hpassed [] w rest rfl
    have hborder : (reverse && !w.stopDefective && !rest.isEmpty) = false := by
      cases hdown : reverse && !rest.isEmpty with
      | false => rw [Bool.and_right_comm, hdown, Bool.false_and]
      | true => simp [hw.stop hdown]
    have hrest := @ih (l ++ [w]) (by simpa using h) fun pre z r hz =>
      hpassed (w :: pre) z r (by simp [hz])
    rw [leap?_of_short h hw.start hborder hw.short]
    simpa using hrest

theorem Leapt.exists_reading {u : ZoneTable} (h : t.Leapt reverse skip u) :
    ∃ l z r d, u.Reading l z r d := by
  cases h with
  | upwards l z r hz _ _ hu => exact ⟨l, z, r, .forward, hu ▸ ⟨hz, rfl⟩⟩
  | downwards l z r hz _ _ _ _ _ hu => exact ⟨l, z, r, .backward, hu ▸ ⟨hz, rfl⟩⟩
  | leap l z r _ _ _ _ _ hu =>
    subst hu
    cases reverse with
    | true => exact ⟨l, _, _, .backward, rfl, rfl⟩
    | false =>
      exact ⟨l ++ [z.leading (z.landing skip)], z.trailing (z.landing skip), r, .forward,
        by simp, by simp⟩

end ZoneTable

namespace Strategy

variable {t : ZoneTable} {reverse : Bool} {skipBlocks : Nat}

/-- The strategy reads where its scan stops. A scan that stops nowhere has it sweep a full table,
and leave any other alone. -/
theorem choose_skipFail_cases (reverse : Bool) (skipBlocks : Nat) (t : ZoneTable) :
    (∃ u, t.Leapt reverse (skipSectors skipBlocks) u ∧
        (skipFail reverse skipBlocks).choose t = (skipFail reverse skipBlocks, u)) ∨
      (t.isFull = true ∧ (skipFail reverse skipBlocks).choose t =
        (skipFail reverse skipBlocks, t.select 0 .forward)) ∨
      (t.isFull = false ∧
        (∀ l z r, t.zones = l ++ z :: r →
          z.Stuck (reverse && !r.isEmpty) false (skipSectors skipBlocks)) ∧
        (skipFail reverse skipBlocks).choose t = (skipFail reverse skipBlocks, t)) := by
  simp only [choose]
  split
  · next u hu =>
    exact .inl ⟨u, @ZoneTable.leapt_of_leap? t _ _ [] u t.zones rfl (by simp) hu, rfl⟩
  · next hnone =>
    split
    · next hfull => exact .inr (.inl ⟨hfull, rfl⟩)
    · next hroom =>
      have hroom := eq_false_of_ne_true hroom
      refine .inr (.inr ⟨hroom, fun l z r hz => ?_, rfl⟩)
      have hstuck := @ZoneTable.stuck_of_leap?_eq_none t reverse _ [] r l z t.zones rfl hnone hz
      rwa [hroom] at hstuck

/-- A clean start that the scan comes to is read from. -/
theorem choose_skipFail_upwards {l r : List Zone} {z : Zone} (h : t.zones = l ++ z :: r)
    (hl : ∀ w ∈ l, w.Stuck reverse t.isFull (skipSectors skipBlocks))
    (hz : z.startDefective = false) :
    (skipFail reverse skipBlocks).choose t =
      (skipFail reverse skipBlocks, t.select l.length .forward) := by
  have hscan := @ZoneTable.leap?_append_of_stuck t _ _ _ [] (z :: r) l h hl
  simp only [List.length_nil, Nat.zero_add, ← h] at hscan
  simp [choose, hscan, ZoneTable.leap?, hz]

theorem choose_skipFail_downwards {l r : List Zone} {z : Zone} (h : t.zones = l ++ z :: r)
    (hl : ∀ w ∈ l, w.Stuck true t.isFull (skipSectors skipBlocks))
    (hstart : z.startDefective = true) (hstop : z.stopDefective = false) (hr : r ≠ []) :
    (skipFail true skipBlocks).choose t =
      (skipFail true skipBlocks, t.select l.length .backward) := by
  have hscan := @ZoneTable.leap?_append_of_stuck t _ _ _ [] (z :: r) l h hl
  simp only [List.length_nil, Nat.zero_add, ← h] at hscan
  simp [choose, hscan, ZoneTable.leap?, hstart, hstop, hr]

/-- A zone that the scan comes to is leapt into if no border of it may be read. -/
theorem choose_skipFail_leap {l r : List Zone} {z : Zone} (h : t.zones = l ++ z :: r)
    (hl : ∀ w ∈ l, w.Stuck reverse false (skipSectors skipBlocks)) (hroom : t.isFull = false)
    (hstart : z.startDefective = true)
    (hstop : reverse = true → r ≠ [] → z.stopDefective = true)
    (hlong : skipSectors skipBlocks < z.len) (hlo : z.start < z.landing (skipSectors skipBlocks)) :
    (skipFail reverse skipBlocks).choose t =
      (skipFail reverse skipBlocks,
        ⟨l ++ z.leading (z.landing (skipSectors skipBlocks)) ::
            z.trailing (z.landing (skipSectors skipBlocks)) :: r,
          some (if reverse then ⟨l.length, .backward⟩ else ⟨l.length + 1, .forward⟩)⟩) := by
  have hscan := @ZoneTable.leap?_append_of_stuck t _ _ _ [] (z :: r) l h (hroom ▸ hl)
  simp only [List.length_nil, Nat.zero_add, ← h] at hscan
  rcases ZoneTable.leap?_cases h reverse (skipSectors skipBlocks) with ⟨hclean, -⟩ |
    ⟨hdown, -, hclean, hr, -⟩ | ⟨-, -, -, -, hleap⟩ | ⟨hstuck, -⟩
  · simp [hstart] at hclean
  · simp [hstop hdown hr] at hclean
  · simp only [choose, hscan, hleap]
  · rcases hstuck.short with hfull | hshort | hlanding
    · simp [hroom] at hfull
    · omega
    · omega

end Strategy

end DriveRescue
