import DriveRescue.Proofs.Strategy.Borders
import DriveRescue.Proofs.Zones.Operations

/-! The sweep that a run of the smart strategy ends with. It begins when no border is clean and no
zone can be halved, and it goes upwards through the zones, a block at a time, whatever the reads
bring. -/
namespace DriveRescue

namespace Zone

def blocks (z : Zone) : Nat := (z.len + (blockSectors - 1)) / blockSectors

variable {z : Zone} {d : Direction} {failed : Bool}

theorem blocks_of_last (hz : z.start < z.stop) (he : (z.after d failed).isEmpty = true) :
    z.blocks = 1 := by
  have hlen := after_len hz d failed
  have hnone : (z.after d failed).len = 0 := Nat.sub_eq_zero_of_le (isEmpty_iff.mp he)
  rw [task_sectors, hnone] at hlen
  simp only [blocks, len, blockSectors] at hlen ⊢
  omega

theorem blocks_after (hz : z.start < z.stop) (he : (z.after d failed).isEmpty = false) :
    (z.after d failed).blocks + 1 = z.blocks := by
  have hlen := after_len hz d failed
  have hpos : 0 < (z.after d failed).len := by
    apply Nat.sub_pos_of_lt
    simpa [isEmpty] using he
  rw [task_sectors] at hlen
  simp only [blocks, blockSectors] at hlen ⊢
  omega

end Zone

namespace ZoneTable

def blocks (t : ZoneTable) : Nat := (t.zones.map Zone.blocks).sum

/-- No zone is selected, or the first one is read upwards. -/
def Sweeping (t : ZoneTable) : Prop := ∀ c, t.cursor = some c → c = ⟨0, .forward⟩

variable {t : ZoneTable} {l r : List Zone} {z : Zone} {d : Direction}

/-- Each read is one of those that the table takes. -/
theorem Reading.blocks_consume (h : t.Reading l z r d) (hz : z.start < z.stop) (failed : Bool) :
    (t.consume (z.task d) failed).blocks + 1 = t.blocks := by
  rw [h.consume hz]
  split
  · next he =>
    have hlast := Zone.blocks_of_last hz he
    simp only [blocks, h.zones, List.map_append, List.map_cons, List.sum_append, List.sum_cons]
    omega
  · next he =>
    have hafter := Zone.blocks_after hz (eq_false_of_ne_true he)
    simp only [blocks, h.zones, List.map_append, List.map_cons, List.sum_append, List.sum_cons]
    omega

theorem Reading.size_consume_le (h : t.Reading l z r d) (hz : z.start < z.stop) (failed : Bool) :
    (t.consume (z.task d) failed).size ≤ t.size := by
  rw [h.consume hz]
  split <;> simp [size, h.zones]

theorem Reading.sweeping_consume (h : t.Reading [] z r .forward) (hz : z.start < z.stop)
    (failed : Bool) : (t.consume (z.task .forward) failed).Sweeping := by
  rw [h.consume hz]
  intro c hc
  split at hc
  · simp at hc
  · exact (Option.some.inj hc).symm

/-- What is left after a read of the lowest zone lies above the first sector that was read. -/
theorem Reading.lt_start_of_mem_consume (h : t.Reading [] z r .forward) (hs : Zone.Spaced 0 t.zones)
    {failed : Bool} {w : Zone} (hw : w ∈ (t.consume (z.task .forward) failed).zones) :
    (z.task .forward).lba < w.start := by
  rw [h.zones, List.nil_append] at hs
  obtain ⟨hz, hr, -⟩ := Zone.spaced_cons.mp hs
  show z.start < w.start
  rcases h.mem_consume hz hw with rfl | hw
  · rw [Zone.after_forward]
    simp only [Zone.len, blockSectors]
    omega
  · have := hr w hw
    omega

theorem exists_split?_middle {i : Nat} (hroom : t.size < maxZones) (hz : t.zones[i]? = some z)
    (hlong : indivisibleSectors < z.len) :
    ∃ u, t.split? i (alignDown (z.start + z.len / 2)) = some u := by
  apply Option.isSome_iff_exists.mp
  rw [isSome_split?_iff]
  obtain ⟨hblock, hlo, hhi⟩ := Zone.middle_between hlong
  exact ⟨hroom, hblock, z, hz, hlo, hhi⟩

end ZoneTable

namespace Strategy

variable {s s' s₀ s₁ : Strategy} {t t' t₀ : ZoneTable} {task : Task} {made : List Attempt}
  {found : Next} {reverse : Bool}

/-- The strategy falls back for want of a clean border and of a zone to halve. -/
theorem of_falls_back (hn : (smart reverse false).next t = (found, smart reverse true, t')) :
    t.currentTask? = none ∧ t.cleanBorder? reverse = none ∧
      (t.isFull = true ∨ ∀ z ∈ t.zones, z.len ≤ indivisibleSectors) ∧
      (smart reverse false).next t = (smart reverse true).next t := by
  cases htask : t.currentTask? with
  | some task => simp [next, htask] at hn
  | none =>
    by_cases hempty : t.isEmpty = true
    · simp [next, htask, hempty] at hn
    · simp only [next, htask, if_neg hempty] at hn
      rcases choose_smart_cases reverse t with ⟨c, -, h⟩ | ⟨-, l, z, r, -, -, h⟩ |
        ⟨hborder, hwhy, h⟩
      · simp [h] at hn
      · simp [h] at hn
      · refine ⟨rfl, hborder, hwhy, ?_⟩
        simp only [next, htask, if_neg hempty, h]
        rfl

/-- A sweep takes the first block of the lowest zone next, and is over when there is none. -/
theorem next_sweeping (h : t.Sweeping) (reverse : Bool) :
    (smart reverse true).next t = (.done, smart reverse true, t) ∨
      ∃ z r t', (smart reverse true).next t = (.read (z.task .forward), smart reverse true, t') ∧
        t'.zones = t.zones ∧ t'.Reading [] z r .forward := by
  obtain ⟨zones, cursor⟩ := t
  cases zones with
  | nil => cases cursor <;> exact .inl (by simp [next, ZoneTable.currentTask?, ZoneTable.isEmpty])
  | cons z r =>
    refine .inr ⟨z, r, ⟨z :: r, some ⟨0, .forward⟩⟩, ?_, rfl, rfl, rfl⟩
    cases cursor with
    | none => simp [next, choose, ZoneTable.currentTask?, ZoneTable.isEmpty, ZoneTable.select]
    | some c =>
      obtain rfl := h c rfl
      simp [next, ZoneTable.currentTask?]

structure SweepsOn (reverse : Bool) (t₀ : ZoneTable) (made : List Attempt) (s : Strategy)
    (t : ZoneTable) : Prop where
  strategy : s = smart reverse true
  sweeping : t.Sweeping
  consistent : t.Consistent
  upwards : ∀ a ∈ made, a.task.direction = .forward
  passed : ∀ a ∈ made, ∀ z ∈ t.zones, a.task.lba < z.start
  ascending : made.Pairwise fun a b => a.task.lba < b.task.lba
  blocks : made.length + t.blocks = t₀.blocks

theorem SweepsOn.next (h : SweepsOn reverse t₀ made s t) (hn : s.next t = (.read task, s', t')) :
    s' = smart reverse true ∧ t'.zones = t.zones ∧
      ∃ z r, task = z.task .forward ∧ t'.Reading [] z r .forward ∧ z.start < z.stop := by
  obtain rfl := h.strategy
  rcases next_sweeping h.sweeping reverse with hdone | ⟨z, r, u, hread, hzones, hr⟩
  · simp [hdone] at hn
  · obtain ⟨rfl, rfl, rfl⟩ : z.task .forward = task ∧ smart reverse true = s' ∧ u = t' := by
      simpa [hread] using hn
    exact ⟨rfl, hzones, z, r, rfl, hr, nonempty_of_next hread h.consistent hr⟩

theorem SweepsOn.size_next (h : SweepsOn reverse t₀ made s t) : (s.next t).2.2.size = t.size := by
  rw [h.strategy]
  rcases next_sweeping h.sweeping reverse with hdone | ⟨z, r, u, hread, hzones, -⟩
  · rw [hdone]
  · rw [hread]
    exact congrArg List.length hzones

theorem SweepsOn.size_turn_le (h : SweepsOn reverse t₀ made s t)
    (hn : s.next t = (.read task, s', t')) (failed : Bool) :
    (s'.settle t' task failed).2.size ≤ t.size := by
  obtain ⟨-, hzones, z, r, rfl, hr, hz⟩ := h.next hn
  have hconsume := hr.size_consume_le hz failed
  simpa only [ZoneTable.size, settle_zones, hzones] using hconsume

theorem SweepsOn.turn (h : SweepsOn reverse t₀ made s t) (hn : s.next t = (.read task, s', t'))
    (failed : Bool) :
    SweepsOn reverse t₀ (made ++ [⟨task, failed⟩]) s' (s'.settle t' task failed).2 := by
  have hconsistent : (s'.settle t' task failed).2.Consistent :=
    (Reaches.turn failed .start hn).consistent h.consistent
  obtain ⟨rfl, hzones, z, r, rfl, hr, hz⟩ := h.next hn
  -- A sweep leaves no zone because of a failure.
  have hsettle : ((smart reverse true).settle t' (z.task .forward) failed).2 =
      t'.consume (z.task .forward) failed := by simp [settle, leavesOnFailure]
  rw [hsettle] at hconsistent ⊢
  have hspaced : Zone.Spaced 0 t'.zones := hzones ▸ h.consistent.spaced
  have hmem : z ∈ t.zones := by simp [← hzones, hr.zones]
  constructor
  · rfl
  · exact hr.sweeping_consume hz failed
  · exact hconsistent
  · intro a ha
    rcases List.mem_append.mp ha with ha | ha
    · exact h.upwards a ha
    · obtain rfl := List.mem_singleton.mp ha
      exact z.task_direction .forward
  · intro a ha w hw
    have hnew := hr.lt_start_of_mem_consume hspaced hw
    rcases List.mem_append.mp ha with ha | ha
    · exact Nat.lt_trans (h.passed a ha z hmem) hnew
    · obtain rfl := List.mem_singleton.mp ha
      exact hnew
  · apply List.pairwise_append.mpr
    refine ⟨h.ascending, List.pairwise_singleton .., fun a ha b hb => ?_⟩
    obtain rfl := List.mem_singleton.mp hb
    exact h.passed a ha z hmem
  · have hblocks := hr.blocks_consume hz failed
    have hsame : t'.blocks = t.blocks := by rw [ZoneTable.blocks, hzones]; rfl
    have hbefore := h.blocks
    rw [List.length_append, List.length_singleton]
    omega

theorem Reaches.sweepsOn (h : Reaches (Strategy.smart reverse true) t made s t') (hc : t.Consistent)
    (hs : t.Sweeping) : SweepsOn reverse t made s t' := by
  induction h with
  | start => exact ⟨rfl, hs, hc, by simp, by simp, .nil, Nat.zero_add _⟩
  | turn failed _ hn ih => exact ih.turn hn failed

/-- Two strategies that are about to do the same go on alike. -/
theorem Reaches.exists_of_next_eq (h : Reaches s₀ t₀ made s t)
    (hnext : s₀.next t₀ = s₁.next t₀) : ∃ s', s.next t = s'.next t ∧ Reaches s₁ t₀ made s' t := by
  induction h with
  | start => exact ⟨s₁, hnext, .start⟩
  | turn failed _ hn ih =>
    obtain ⟨s', hsame, hreach⟩ := ih
    exact ⟨_, rfl, .turn failed hreach (hsame ▸ hn)⟩

/-- A search for a task that makes the smart strategy fall back has found every border defective
that may be read from, and no zone that can be halved, as any long zone of a table that is not full
can. The reads from there on go upwards through the zones as they are. Whatever they bring, there
are as many of them as the zones have blocks, and the run ends with nothing unread. -/
theorem smart_sweeps_at_last (hc : t₀.isConsistent = true)
    (h : Reaches (smart reverse false) t₀ made (smart reverse false) t)
    (hn : (smart reverse false).next t = (found, smart reverse true, t')) :
    (∀ z ∈ t.zones, z.startDefective = true ∧ (reverse = true → z.stopDefective = true)) ∧
    ((∀ z ∈ t.zones, z.len ≤ 1000000) ∨ 1000 ≤ t.size) ∧
    (∀ (u : ZoneTable) i z, u.size < 1000 → u.zones[i]? = some z → 1000000 < z.len →
      ∃ v, u.split? i (alignDown (z.start + z.len / 2)) = some v) ∧
    (∀ later s u, Reaches (smart reverse false) t later s u →
      (s.next u).2.1 = smart reverse true ∧
      (∀ a ∈ later, a.task.direction = .forward) ∧
      later.Pairwise (fun a b => a.task.lba < b.task.lba) ∧
      (s.next u).2.2.size = u.size ∧
      ∀ task s' u', s.next u = (.read task, s', u') →
        ∀ failed, (s'.settle u' task failed).2.size ≤ u.size) ∧
    ∀ fails limit, t.blocks < limit →
      let r := run fails limit (smart reverse false) t
      r.finish = .done ∧ r.table.zones = [] ∧ r.attempts.length = t.blocks := by
  rw [ZoneTable.isConsistent_iff] at hc
  have ht : t.Consistent := h.consistent hc
  obtain ⟨htask, hborder, hwhy, hsame⟩ := of_falls_back hn
  obtain ⟨hstart, hstop⟩ := ZoneTable.cleanBorder?_eq_none_iff.mp hborder
  have hsweeping : t.Sweeping := by
    intro c hcursor
    simp [ZoneTable.cursor_eq_none_of_currentTask? ht htask] at hcursor
  refine ⟨fun z hz => ⟨hstart z hz, fun hreverse => hstop hreverse z hz⟩, ?_, ?_, ?_, ?_⟩
  · rcases hwhy with hfull | hshort
    · exact .inr (of_decide_eq_true hfull)
    · exact .inl hshort
  · intro u i z hroom hz hlong
    exact ZoneTable.exists_split?_middle hroom hz hlong
  · intro later s u hreach
    obtain ⟨s₁, hnext, hreach⟩ := hreach.exists_of_next_eq hsame
    have hon := hreach.sweepsOn ht hsweeping
    rw [hnext]
    refine ⟨?_, hon.upwards, hon.ascending, hon.size_next, fun task s' u' hread failed => ?_⟩
    · rw [hon.strategy]
      exact next_smart_fallback reverse u
    · exact hon.size_turn_le hread failed
  · intro fails limit hlimit r
    obtain ⟨s₁, -, hreach⟩ := (reaches_run _ t fails limit).exists_of_next_eq hsame
    have hblocks : r.attempts.length + r.table.blocks = t.blocks :=
      (hreach.sweepsOn ht hsweeping).blocks
    obtain ⟨-, hfinish⟩ := @runFrom_smart reverse false t fails limit 0 [] ht
    rcases hfinish with ⟨-, hcut⟩ | ⟨hdone, hempty⟩
    · have hcut : r.attempts.length = limit := hcut.trans (Nat.zero_add _)
      omega
    · have hempty : r.table.zones = [] := hempty
      have hnone : r.table.blocks = 0 := by
        rw [ZoneTable.blocks, hempty]
        rfl
      exact ⟨hdone, hempty, by omega⟩

/-- A failure at the only clean border leaves two zones that are enclosed, the lower one of two
blocks. -/
theorem smart_sweeps_at_last_past_failure :
    let s₀ := Strategy.smart true false
    let t₀ := ZoneTable.ofZones [⟨0, 600, false, true⟩, ⟨700, 800, true, true⟩]
    let t : ZoneTable := ⟨[⟨256, 600, true, true⟩, ⟨700, 800, true, true⟩], none⟩
    let t' : ZoneTable := ⟨t.zones, some ⟨0, .forward⟩⟩
    let r := run (fun _ _ => true) 4 s₀ t
    t₀.isConsistent = true ∧ Reaches s₀ t₀ [⟨⟨0, 256, .forward⟩, true⟩] s₀ t ∧
      s₀.next t = (.read ⟨256, 256, .forward⟩, smart true true, t') ∧
      (∀ z ∈ t.zones, z.startDefective = true ∧ (true = true → z.stopDefective = true)) ∧
      t.blocks = 3 ∧ r.finish = .done ∧ r.attempts.length = 3 := by
  intro s₀ t₀ t t' r
  have hc : t₀.isConsistent = true := by decide
  have hup : s₀.next t₀ = (.read ⟨0, 256, .forward⟩, s₀,
      ⟨[⟨0, 600, false, true⟩, ⟨700, 800, true, true⟩], some ⟨0, .forward⟩⟩) := by decide
  have h : Reaches s₀ t₀ [⟨⟨0, 256, .forward⟩, true⟩] s₀ t := .turn true .start hup
  have hn : s₀.next t = (.read ⟨256, 256, .forward⟩, smart true true, t') := by decide
  have hblocks : t.blocks = 3 := by decide
  obtain ⟨henclosed, -, -, -, hend⟩ := smart_sweeps_at_last hc h hn
  obtain ⟨hdone, -, hlength⟩ := hend (fun _ _ => true) 4 (by omega)
  exact ⟨hc, h, hn, henclosed, hblocks, hdone, hlength.trans hblocks⟩

end Strategy

end DriveRescue
