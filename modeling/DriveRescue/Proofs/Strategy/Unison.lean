import DriveRescue.Proofs.Strategy.Sweeping

/-! What the strategies have in common. Over zones whose starts are all clean each of them goes
upwards through the zones, a block at a time, and none differs from the others in its tasks or in
its table. It is the first failure that tells them apart. -/
namespace DriveRescue

namespace Zone

variable {z : Zone}

/-- The block number `i` of the zone, counted from its start. The last block may be short. -/
def block (z : Zone) (i : Nat) : Task :=
  let start := z.start + i * blockSectors
  ⟨start, min (z.stop - start) blockSectors, .forward⟩

/-- The blocks of the zone in address order. -/
def sweep (z : Zone) : List Task := (List.range z.blocks).map z.block

theorem block_zero (z : Zone) : z.block 0 = z.task .forward := by
  simp [block, task, len]

theorem sweep_of_isEmpty (h : z.isEmpty = true) : z.sweep = [] := by
  have hlen : z.len = 0 := Nat.sub_eq_zero_of_le (isEmpty_iff.mp h)
  simp [sweep, blocks, hlen, blockSectors]

/-- A read of the first block leaves the others as they are. -/
theorem sweep_eq_cons (hz : z.start < z.stop) (failed : Bool) :
    z.sweep = z.task .forward :: (z.after .forward failed).sweep := by
  cases he : (z.after .forward failed).isEmpty with
  | true =>
    rw [sweep_of_isEmpty he, sweep, blocks_of_last hz he, ← block_zero]
    rfl
  | false =>
    rw [sweep, ← blocks_after hz he, List.range_succ_eq_map, List.map_cons, List.map_map,
      block_zero, sweep]
    congr 1
    apply List.map_congr_left
    intro i _
    -- Sectors are left, so that the first block was a whole one.
    have hwhole : min z.len blockSectors = blockSectors := by
      have hrest : (z.after .forward failed).start < (z.after .forward failed).stop := by
        simpa [isEmpty] using he
      rw [after_forward] at hrest
      simp only [len] at hrest ⊢
      omega
    simp only [Function.comp, block, after_forward, hwhole, Nat.succ_mul]
    rw [Nat.add_comm (i * blockSectors), ← Nat.add_assoc]

end Zone

namespace ZoneTable

variable {t : ZoneTable} {z : Zone} {r : List Zone} {task : Task} {rest : List Task}

/-- The blocks of all zones in address order. -/
def sweep (t : ZoneTable) : List Task := t.zones.flatMap Zone.sweep

def advance (t : ZoneTable) : ZoneTable :=
  match t.zones with
  | [] => t
  | z :: _ => (t.select 0 .forward).consume (z.task .forward) false

structure Upright (t : ZoneTable) : Prop where
  consistent : t.Consistent
  clean : ∀ z ∈ t.zones, z.startDefective = false
  sweeping : t.Sweeping

theorem advance_of_nil (h : t.zones = []) : t.advance = t := by
  simp only [advance, h]

theorem advance_of_cons (h : t.zones = z :: r) :
    t.advance = (t.select 0 .forward).consume (z.task .forward) false := by
  simp only [advance, h]

theorem reading_first (h : t.zones = z :: r) : (t.select 0 .forward).Reading [] z r .forward :=
  ⟨h, rfl⟩

theorem Upright.nonempty (h : t.Upright) (hz : t.zones = z :: r) : z.start < z.stop :=
  h.consistent.spaced.1 z (by simp [hz])

theorem Upright.zones_advance (h : t.Upright) (hz : t.zones = z :: r) :
    t.advance.zones =
      if (z.after .forward false).isEmpty then r else z.after .forward false :: r := by
  rw [advance_of_cons hz, (reading_first hz).consume (h.nonempty hz)]
  split <;> rfl

theorem Upright.advance (h : t.Upright) : t.advance.Upright := by
  cases hz : t.zones with
  | nil => rwa [advance_of_nil hz]
  | cons z r =>
    have hreading := reading_first hz
    have hnonempty := h.nonempty hz
    have hclean : ∀ w ∈ z :: r, w.startDefective = false := hz ▸ h.clean
    rw [List.forall_mem_cons] at hclean
    constructor
    · have hpoised := (hz ▸ h.consistent.spaced : Zone.Spaced 0 ([] ++ z :: r)).poised .forward
      have hsettled := Strategy.consistent_settle hreading hpoised .plain false
      rw [advance_of_cons hz]
      simpa [Strategy.settle] using hsettled
    · rw [h.zones_advance hz]
      split
      · exact hclean.2
      · rw [Zone.after_forward]
        exact List.forall_mem_cons.mpr ⟨rfl, hclean.2⟩
    · rw [advance_of_cons hz]
      exact hreading.sweeping_consume hnonempty false

/-- A good read of the first block leaves the others to be read. -/
theorem Upright.sweep_eq_cons (h : t.Upright) (hz : t.zones = z :: r) :
    t.sweep = z.task .forward :: t.advance.sweep := by
  have hsweep := Zone.sweep_eq_cons (h.nonempty hz) false
  rw [sweep, hz, List.flatMap_cons, hsweep, sweep, h.zones_advance hz]
  split
  · next he =>
    rw [Zone.sweep_of_isEmpty he]
    rfl
  · rfl

theorem exists_cons_of_sweep (h : t.sweep = task :: rest) :
    ∃ z r, t.zones = z :: r := by
  apply List.exists_cons_of_ne_nil
  intro hz
  simp [sweep, hz] at h

theorem Upright.sweep_advance (h : t.Upright) : t.advance.sweep = t.sweep.tail := by
  cases hz : t.zones with
  | nil => simp [advance_of_nil hz, sweep, hz]
  | cons z r => simp [h.sweep_eq_cons hz]

theorem Upright.iterate (h : t.Upright) (n : Nat) : (ZoneTable.advance^[n] t).Upright := by
  induction n with
  | zero => exact h
  | succ n ih =>
    rw [Function.iterate_succ_apply']
    exact ih.advance

theorem Upright.sweep_iterate (h : t.Upright) (n : Nat) :
    (ZoneTable.advance^[n] t).sweep = t.sweep.drop n := by
  induction n with
  | zero => rfl
  | succ n ih => rw [Function.iterate_succ_apply', (h.iterate n).sweep_advance, ih, List.tail_drop]

theorem Upright.zones_eq_nil (h : t.Upright) (hsweep : t.sweep = []) : t.zones = [] := by
  cases hz : t.zones with
  | nil => rfl
  | cons z r =>
    rw [h.sweep_eq_cons hz] at hsweep
    simp at hsweep

end ZoneTable

namespace Strategy

variable {s s' : Strategy} {t t' : ZoneTable} {z : Zone} {r : List Zone}
  {fails : Nat → Task → Bool} {made : List Attempt} {task : Task} {limit n k : Nat}

/-- Whatever the strategy, it takes the first block of the first zone. -/
theorem next_of_upright (hs : s.restart = s) (h : t.Upright) (hz : t.zones = z :: r) :
    s.next t = (.read (z.task .forward), s, t.select 0 .forward) := by
  have hreading := ZoneTable.reading_first hz
  cases hcursor : t.cursor with
  | some c =>
    obtain rfl := h.sweeping c hcursor
    have hselected : t.select 0 .forward = t := by rw [ZoneTable.select, ← hcursor]
    rw [hselected] at hreading ⊢
    simp only [next, hreading.currentTask?]
  | none =>
    have hclean : z.startDefective = false := h.clean z (by simp [hz])
    have hprefers : s.Prefers t.isFull [] z r .forward := by
      cases s with
      | plain => exact ⟨rfl, rfl⟩
      | smart reverse fallback =>
        obtain rfl : false = fallback := by simpa [restart] using hs
        exact ⟨hclean, by simp⟩
      | skipFail reverse skipBlocks => exact ⟨hclean, by simp⟩
    have hchoose : s.choose t = (s, t.select 0 .forward) := choose_of_prefers hs hz hprefers
    rw [s.next_of_currentTask? (by simp [hz]) (ZoneTable.currentTask?_of_cursor hcursor), hchoose,
      hreading.currentTask?]
    rfl

/-- What is asked for next and the table it leaves are the same for all strategies. -/
theorem next_eq_head (hs : s.restart = s) (h : t.Upright) :
    (s.next t).1 = t.sweep.head?.elim .done .read ∧ (s.next t).2.2 = (plain.next t).2.2 := by
  cases hz : t.zones with
  | nil => simp [next_of_nil _ hz, ZoneTable.sweep, hz]
  | cons z r =>
    rw [next_of_upright hs h hz, next_of_upright rfl h hz, h.sweep_eq_cons hz]
    exact ⟨rfl, rfl⟩

theorem settle_good (s : Strategy) (t : ZoneTable) (task : Task) :
    s.settle t task false = (.proceed, t.consume task false) := by
  simp [settle]

/-- One good read of a run. -/
theorem runFrom_succ (hs : s.restart = s) (h : t.Upright) (hz : t.zones = z :: r)
    (hgood : fails k (z.task .forward) = false) :
    runFrom fails (limit + 1) made k s t =
      runFrom fails limit (⟨z.task .forward, false⟩ :: made) (k + 1) s t.advance := by
  simp only [runFrom, next_of_upright hs h hz, hgood, settle_good, ZoneTable.advance_of_cons hz]

/-- While no read fails a run goes through the blocks in address order. -/
theorem runFrom_add (hs : s.restart = s) (h : t.Upright) (hn : n ≤ t.sweep.length)
    (hgood : ∀ i < n, ∀ task, t.sweep[i]? = some task → fails (k + i) task = false) :
    runFrom fails (n + limit) made k s t =
      runFrom fails limit (((t.sweep.take n).map (⟨·, false⟩)).reverse ++ made) (k + n) s
        (ZoneTable.advance^[n] t) := by
  induction n generalizing made k t with
  | zero => simp
  | succ n ih =>
    cases hz : t.zones with
    | nil => simp [ZoneTable.sweep, hz] at hn
    | cons z r =>
      have hsweep := h.sweep_eq_cons hz
      rw [hsweep] at hgood hn
      have hfirst : fails k (z.task .forward) = false := hgood 0 (by omega) _ rfl
      have hrest : ∀ i < n, ∀ task, t.advance.sweep[i]? = some task →
          fails (k + 1 + i) task = false := by
        intro i hi task htask
        have hlater := hgood (i + 1) (by omega) task (by simpa using htask)
        rwa [Nat.add_right_comm, Nat.add_assoc]
      rw [Nat.add_right_comm, runFrom_succ hs h hz hfirst,
        ih h.advance (Nat.le_of_succ_le_succ hn) hrest, hsweep, Function.iterate_succ_apply]
      simp [Nat.add_comm, Nat.add_left_comm]

/-- The run of so many good reads, which ends sooner when no block is left. -/
theorem run_of_good (hs : s.restart = s) (h : t.Upright)
    (hgood : ∀ i < limit, ∀ task, t.sweep[i]? = some task → fails i task = false) :
    run fails limit s t =
      ⟨if limit ≤ t.sweep.length then .limit else .done,
        (t.sweep.take limit).map (⟨·, false⟩), s, ZoneTable.advance^[limit] t⟩ := by
  rcases Nat.lt_or_ge t.sweep.length limit with hbeyond | hwithin
  · obtain ⟨spare, rfl⟩ := Nat.exists_eq_add_of_lt hbeyond
    have hnil : (ZoneTable.advance^[t.sweep.length] t).zones = [] := by
      apply (h.iterate _).zones_eq_nil
      rw [h.sweep_iterate, List.drop_length]
    have hfixed : ZoneTable.advance^[t.sweep.length + spare + 1] t =
        ZoneTable.advance^[t.sweep.length] t := by
      rw [Nat.add_assoc, Nat.add_comm, Function.iterate_add_apply]
      exact Function.iterate_fixed (ZoneTable.advance_of_nil hnil) _
    rw [hfixed, run, Nat.add_assoc, runFrom_add hs h (Nat.le_refl _) fun i hi task htask => by
      simpa using hgood i (by omega) task htask]
    simp [runFrom, next_of_nil s hnil]
  · have hall := @runFrom_add s t fails [] 0 limit 0 hs h hwithin fun i hi task htask => by
      simpa using hgood i hi task htask
    simpa [run, runFrom, hwithin] using hall

theorem attempts_of_read (fails : Nat → Task → Bool) (limit : Nat) (made : List Attempt) (k : Nat)
    (hn : s.next t = (.read task, s', t')) :
    (runFrom fails (limit + 1) made k s t).attempts = (⟨task, fails k task⟩ :: made).reverse ∨
      ∃ u, (runFrom fails (limit + 1) made k s t).attempts =
        (runFrom fails limit (⟨task, fails k task⟩ :: made) (k + 1) s' u).attempts := by
  rcases hsettle : s'.settle t' task (fails k task) with ⟨verdict, u⟩
  cases verdict with
  | abort => exact .inl (by simp [runFrom, hn, hsettle])
  | proceed => exact .inr ⟨u, by simp [runFrom, hn, hsettle]⟩

/-- Attempts that were made stand before those still to be made. -/
theorem exists_attempts_runFrom (fails : Nat → Task → Bool) (limit : Nat) (made : List Attempt)
    (k : Nat) (s : Strategy) (t : ZoneTable) :
    ∃ more, (runFrom fails limit made k s t).attempts = made.reverse ++ more := by
  induction limit generalizing made k s t with
  | zero => exact ⟨[], by simp [runFrom]⟩
  | succ limit ih =>
    rcases hn : s.next t with ⟨found, s', t'⟩
    cases found with
    | done => exact ⟨[], by simp [runFrom, hn]⟩
    | unresolved => exact ⟨[], by simp [runFrom, hn]⟩
    | read task =>
      rcases attempts_of_read fails limit made k hn with hlast | ⟨u, hrest⟩
      · exact ⟨[⟨task, fails k task⟩], by simp [hlast]⟩
      · obtain ⟨more, hmore⟩ := ih (⟨task, fails k task⟩ :: made) (k + 1) s' u
        exact ⟨⟨task, fails k task⟩ :: more, by simp [hrest, hmore]⟩

/-- The task that comes next is attempted next, whatever becomes of it. -/
theorem exists_attempts_of_read (fails : Nat → Task → Bool) (limit : Nat) (made : List Attempt)
    (k : Nat) (hn : s.next t = (.read task, s', t')) :
    ∃ more, (runFrom fails (limit + 1) made k s t).attempts =
      made.reverse ++ ⟨task, fails k task⟩ :: more := by
  rcases attempts_of_read fails limit made k hn with hlast | ⟨u, hrest⟩
  · exact ⟨[], by simp [hlast]⟩
  · obtain ⟨more, hmore⟩ :=
      exists_attempts_runFrom fails limit (⟨task, fails k task⟩ :: made) (k + 1) s' u
    exact ⟨more, by simp [hrest, hmore]⟩

/-- A block that fails after good reads is the last of which all strategies can be sure. -/
theorem take_attempts_of_failure (hs : s.restart = s) (h : t.Upright)
    (hgood : ∀ i < n, ∀ task, t.sweep[i]? = some task → fails i task = false)
    (htask : t.sweep[n]? = some task) (hfails : fails n task = true) (hlimit : n < limit) :
    (run fails limit s t).attempts.take (n + 1) =
      (t.sweep.take n).map (⟨·, false⟩) ++ [⟨task, true⟩] := by
  obtain ⟨hn, hat⟩ := List.getElem?_eq_some_iff.mp htask
  obtain ⟨spare, rfl⟩ := Nat.exists_eq_add_of_lt hlimit
  have hrest : (ZoneTable.advance^[n] t).sweep = task :: t.sweep.drop (n + 1) := by
    rw [h.sweep_iterate, List.drop_eq_getElem_cons hn, hat]
  obtain ⟨z, r, hz⟩ := ZoneTable.exists_cons_of_sweep hrest
  have hfirst : z.task .forward = task := by
    rw [(h.iterate n).sweep_eq_cons hz] at hrest
    exact (List.cons.inj hrest).1
  have hnext := next_of_upright hs (h.iterate n) hz
  rw [hfirst] at hnext
  obtain ⟨more, hmore⟩ := exists_attempts_of_read fails spare
    (((t.sweep.take n).map (⟨·, false⟩)).reverse ++ []) (0 + n) hnext
  rw [run, Nat.add_assoc, runFrom_add hs h (Nat.le_of_lt hn) (by simpa using hgood), hmore]
  have hlength : ((t.sweep.take n).map (⟨·, false⟩ : Task → Attempt)).length = n := by
    simp [Nat.le_of_lt hn]
  rw [List.append_nil, List.reverse_reverse, Nat.zero_add, hfails]
  generalize (t.sweep.take n).map (⟨·, false⟩ : Task → Attempt) = good at hlength ⊢
  rw [← hlength, List.take_length_add_append]
  rfl

/-- On a table without a selection, all of whose starts are clean, every strategy goes upwards
through the zones, each cut into blocks. Which strategy it is cannot be told before the first
failure has been taken in: the tasks up to that read are the same for all, and so is the table
before and after each of them is issued. Where nothing fails, every strategy is done in the end. -/
theorem strategies_agree_until_failure (hc : t.isConsistent = true) (hfree : t.cursor = none)
    (hclean : ∀ z ∈ t.zones, z.startDefective = false) (kind : StrategyKind) (skipBlocks : Nat)
    (fails : Nat → Task → Bool) (n : Nat)
    (hgood : ∀ i < n, ∀ task, t.sweep[i]? = some task → fails i task = false) :
    (∀ m ≤ n,
      let own := run fails m (ofKind kind skipBlocks) t
      let common := run fails m plain t
      own.attempts = (t.sweep.take m).map (⟨·, false⟩) ∧
        own.strategy = ofKind kind skipBlocks ∧ own.table = common.table ∧
        (own.strategy.next own.table).1 = t.sweep[m]?.elim .done .read ∧
        (own.strategy.next own.table).2.2 = (common.strategy.next common.table).2.2) ∧
      (∀ task, t.sweep[n]? = some task → fails n task = true → ∀ limit > n,
        (run fails limit (ofKind kind skipBlocks) t).attempts.take (n + 1) =
          (t.sweep.take n).map (⟨·, false⟩) ++ [⟨task, true⟩]) ∧
      (t.sweep.length ≤ n → ∀ limit > t.sweep.length,
        let own := run fails limit (ofKind kind skipBlocks) t
        own.finish = .done ∧ own.attempts = t.sweep.map (⟨·, false⟩) ∧ own.table.zones = []) := by
  have h : t.Upright := by
    constructor
    · exact ZoneTable.isConsistent_iff.mp hc
    · exact hclean
    · simp [ZoneTable.Sweeping, hfree]
  have hs := restart_ofKind kind skipBlocks
  refine ⟨fun m hm => ?_, fun task htask hfails limit hlimit => ?_, fun hall limit hlimit => ?_⟩
  · have hfirst (i : Nat) (hi : i < m) := hgood i (Nat.lt_of_lt_of_le hi hm)
    intro own common
    have hown : own = _ := run_of_good hs h hfirst
    have hcommon : common = _ := run_of_good rfl h hfirst
    obtain ⟨hnext, htable⟩ := next_eq_head hs (h.iterate m)
    rw [h.sweep_iterate, List.head?_drop] at hnext
    simp only [hown, hcommon]
    exact ⟨trivial, trivial, trivial, hnext, htable⟩
  · exact take_attempts_of_failure hs h hgood htask hfails hlimit
  · have hevery : ∀ i < limit, ∀ task, t.sweep[i]? = some task → fails i task = false := by
      intro i _ task htask
      obtain ⟨hi, -⟩ := List.getElem?_eq_some_iff.mp htask
      exact hgood i (Nat.lt_of_lt_of_le hi hall) task htask
    have hnil : (ZoneTable.advance^[limit] t).zones = [] := by
      apply (h.iterate limit).zones_eq_nil
      rw [h.sweep_iterate, List.drop_of_length_le (Nat.le_of_lt hlimit)]
    intro own
    have hown : own = _ := run_of_good hs h hevery
    rw [if_neg (Nat.not_le.mpr hlimit), List.take_of_length_le (Nat.le_of_lt hlimit)] at hown
    rw [hown]
    exact ⟨rfl, rfl, hnil⟩

/-- Two zones, of which the upper one fails. The short block that ends the lower zone comes before
it. -/
theorem strategies_agree_on_two_zones :
    let t : ZoneTable := ⟨[⟨100, 400, false, true⟩, ⟨700, 1300, false, false⟩], none⟩
    let fails (_ : Nat) (task : Task) : Bool := 700 ≤ task.lba
    let good : List Attempt := [⟨⟨100, 256, .forward⟩, false⟩, ⟨⟨356, 44, .forward⟩, false⟩]
    t.isConsistent = true ∧ (∀ z ∈ t.zones, z.startDefective = false) ∧
      t.sweep = [⟨100, 256, .forward⟩, ⟨356, 44, .forward⟩, ⟨700, 256, .forward⟩,
        ⟨956, 256, .forward⟩, ⟨1212, 88, .forward⟩] ∧
      ∀ kind skipBlocks,
        let own := run fails 2 (ofKind kind skipBlocks) t
        own.attempts = good ∧ own.table = (run fails 2 plain t).table ∧
          (run fails 9 (ofKind kind skipBlocks) t).attempts.take 3 =
            good ++ [⟨⟨700, 256, .forward⟩, true⟩] := by
  intro t fails good
  have hc : t.isConsistent = true := by decide
  have hclean : ∀ z ∈ t.zones, z.startDefective = false := by decide
  have hgood : ∀ i < 2, ∀ task, t.sweep[i]? = some task → fails i task = false := by
    intro i hi task htask
    obtain rfl | rfl : i = 0 ∨ i = 1 := by omega
    · obtain rfl : (⟨100, 256, .forward⟩ : Task) = task := Option.some.inj htask
      rfl
    · obtain rfl : (⟨356, 44, .forward⟩ : Task) = task := Option.some.inj htask
      rfl
  refine ⟨hc, hclean, by decide, fun kind skipBlocks => ?_⟩
  obtain ⟨hagree, hfirst, -⟩ :=
    strategies_agree_until_failure hc rfl hclean kind skipBlocks fails 2 hgood
  obtain ⟨hattempts, -, htable, -⟩ := hagree 2 (Nat.le_refl _)
  exact ⟨hattempts, htable, hfirst ⟨700, 256, .forward⟩ (by decide) rfl 9 (by decide)⟩

end Strategy

end DriveRescue
