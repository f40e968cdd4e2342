import DriveRescue.Proofs.Copy.Turning
import DriveRescue.Proofs.Journal.Marks
import DriveRescue.Proofs.Strategy.Retracing

/-! A copy that is taken up again from its journal reads on where it would have. The new session
knows the zones and the marks that the journal yields, and neither what was being read nor whether
the strategy had fallen back. For as long as that is all it needs, the two sessions are twins. -/
namespace DriveRescue

structure ZoneTable.Uncuttable (t : ZoneTable) : Prop where
  single : t.zones.length ≤ 1
  short : ∀ w ∈ t.zones, w.len ≤ indivisibleSectors

namespace ZoneTable

theorem Uncuttable.isFull_eq {t : ZoneTable} (h : t.Uncuttable) : t.isFull = false :=
  isFull_eq_false_iff.mpr (Nat.lt_of_le_of_lt h.single (by decide))

theorem Uncuttable.consume {t : ZoneTable} {l r : List Zone} {z : Zone} {d : Direction}
    (h : t.Uncuttable) (hr : t.Reading l z r d) (hz : z.start < z.stop) (failed : Bool) :
    (t.consume (z.task d) failed).Uncuttable := by
  constructor
  · have hsingle := h.single
    rw [hr.zones] at hsingle
    rw [hr.consume hz]
    simp only [List.length_append, List.length_cons] at hsingle
    split <;> simp only [List.length_append, List.length_cons] <;> omega
  · intro w hw
    rcases hr.mem_consume hz hw with rfl | hw
    · have hlen := Zone.after_len hz d failed
      have hshort := h.short z (by simp [hr.zones])
      omega
    · refine h.short w ?_
      rw [hr.zones]
      simp only [List.mem_append, List.mem_cons] at hw ⊢
      tauto

theorem uncuttable_ofRange {start stop : Nat} (h : stop - start ≤ indivisibleSectors) :
    (ofRange start stop).Uncuttable := by
  constructor
  · exact List.length_filter_le (!·.isEmpty) [Zone.clean start stop]
  · intro w hw
    obtain rfl := List.mem_singleton.mp (List.mem_filter.mp hw).1
    exact h

end ZoneTable

namespace CopySession

variable {s r : CopySession} {j k : Journal} {task : Task} {bad : Nat → Nat → Bool}

/-- The smart strategy may divide zones still. -/
def HasRoom (s : CopySession) : Prop :=
  ∀ reverse, s.copy.strategy.restart = .smart reverse false → s.copy.table.isFull = false

structure Rests (bad : Nat → Nat → Bool) (s : CopySession) (j : Journal) : Prop where
  opened : s.copy.closed = false
  failsAt : s.source.FailsAt bad
  agrees : s.Agrees j
  retraceable : s.copy.strategy.Retraceable s.copy.table

theorem Rests.perform (h : s.Rests bad j) (hroom : s.HasRoom) (hn : s.nextRead? = some task) :
    s.perform.2.Rests bad (j.record task.lba task.sectors (bad task.lba task.sectors)) := by
  obtain ⟨strategy, table, hturn, hstrategy, htable⟩ := exists_turn h.failsAt hn
  refine ⟨s.perform_closed.trans h.opened, perform_failsAt h.failsAt,
    h.agrees.perform_record h.failsAt hn, ?_⟩
  rw [hstrategy, htable]
  refine h.retraceable.turn h.agrees.mirrors.consistent ?_ hturn _
  intro reverse hs
  exact hroom reverse (by rw [hs]; rfl)

structure Twins (bad : Nat → Nat → Bool) (s r : CopySession) (j k : Journal) : Prop where
  left : s.Rests bad j
  right : r.Rests bad k
  alike : s.copy.strategy.Alike s.copy.table r.copy.strategy r.copy.table
  bytes : j.bytes = k.bytes

theorem Twins.nextRead?_eq (h : Twins bad s r j k) : s.nextRead? = r.nextRead? := by
  refine nextRead?_congr h.left.opened h.right.opened ?_
  exact (h.alike.next h.left.retraceable h.left.agrees.mirrors.consistent h.right.retraceable
    h.right.agrees.mirrors.consistent).1

theorem Twins.perform (h : Twins bad s r j k) (hroom : s.HasRoom) :
    ∃ j' k', Twins bad s.perform.2 r.perform.2 j' k' := by
  have hnext := h.nextRead?_eq
  rcases hn : s.nextRead? with _ | task
  · rw [hn] at hnext
    rw [perform_of_none hn, perform_of_none hnext.symm]
    exact ⟨j, k, h⟩
  · rw [hn] at hnext
    have hroom' : r.HasRoom := by
      intro reverse hr
      rw [← h.alike.isFull_eq]
      exact hroom reverse (h.alike.strategy.trans hr)
    obtain ⟨_, _, hs, hstrategy, htable⟩ := exists_turn h.left.failsAt hn
    obtain ⟨_, _, hr, hstrategy', htable'⟩ := exists_turn h.right.failsAt hnext.symm
    refine ⟨_, _, h.left.perform hroom hn, h.right.perform hroom' hnext.symm, ?_, ?_⟩
    · rw [hstrategy, htable, hstrategy', htable']
      exact h.alike.turn h.left.retraceable h.left.agrees.mirrors.consistent h.right.retraceable
        h.right.agrees.mirrors.consistent hs hr _
    · simp only [Journal.record, h.bytes]

theorem Twins.after (h : Twins bad s r j k) (hroom : ∀ n, (s.after n).HasRoom) (n : Nat) :
    ∃ j' k', Twins bad (s.after n) (r.after n) j' k' := by
  induction n with
  | zero => exact ⟨j, k, h⟩
  | succ n ih =>
    obtain ⟨j', k', htwins⟩ := ih
    rw [after_succ', after_succ']
    exact htwins.perform (hroom n)

/-- The journal tells all that the table knows. -/
structure Recoverable (bad : Nat → Nat → Bool) (s : CopySession) (j : Journal) : Prop where
  rests : s.Rests bad j
  marks : j.Marks s.copy.table s.copy.strategy.readsDown

theorem perform_readsDown (s : CopySession) :
    s.perform.2.copy.strategy.readsDown = s.copy.strategy.readsDown := by
  rw [← Strategy.restart_readsDown, perform_restart, Strategy.restart_readsDown]

theorem Recoverable.perform (h : s.Recoverable bad j) (hroom : s.HasRoom)
    (hmarks : ∀ task strategy table,
      s.copy.strategy.next s.copy.table = (.read task, strategy, table) →
      (j.record task.lba task.sectors (bad task.lba task.sectors)).Marks
        (strategy.settle table task (bad task.lba task.sectors)).2 s.copy.strategy.readsDown) :
    ∃ k, s.perform.2.Recoverable bad k := by
  rcases hn : s.nextRead? with _ | task
  · rw [perform_of_none hn]
    exact ⟨j, h⟩
  · obtain ⟨strategy, table, hturn, -, htable⟩ := exists_turn h.rests.failsAt hn
    refine ⟨_, h.rests.perform hroom hn, ?_⟩
    rw [htable, perform_readsDown]
    exact hmarks task strategy table hturn

theorem after_readsDown (n : Nat) (s : CopySession) :
    (s.after n).copy.strategy.readsDown = s.copy.strategy.readsDown := by
  rw [← Strategy.restart_readsDown, after_restart, Strategy.restart_readsDown]

theorem Recoverable.after_of_upwards (h : s.Recoverable bad j)
    (hdown : s.copy.strategy.readsDown = false) (hroom : ∀ n, (s.after n).HasRoom) (n : Nat) :
    ∃ k, (s.after n).Recoverable bad k := by
  induction n with
  | zero => exact ⟨j, h⟩
  | succ n ih =>
    obtain ⟨k, hk⟩ := ih
    have hdown' := (after_readsDown n s).trans hdown
    rw [after_succ']
    refine hk.perform (hroom n) fun task strategy table hturn => ?_
    have hmarks := hk.marks
    have hup := hk.rests.retraceable.direction_eq_forward hturn hdown'
    rw [hdown'] at hmarks ⊢
    exact hmarks.turn_of_upwards hk.rests.agrees.mirrors hturn hup _

theorem Recoverable.after_of_uncuttable {reverse : Bool} (h : s.Recoverable bad j)
    (hsmart : s.copy.strategy.restart = .smart reverse false) (hshort : s.copy.table.Uncuttable)
    (n : Nat) : (s.after n).copy.table.Uncuttable ∧ ∃ k, (s.after n).Recoverable bad k := by
  -- A table of one short zone is never cut: that no mark goes out of date, whichever way the zone
  -- is read, is the other half of the invariant.
  induction n with
  | zero => exact ⟨hshort, j, h⟩
  | succ n ih =>
    obtain ⟨hshort, k, hk⟩ := ih
    have hroom : (s.after n).HasRoom := fun _ _ => hshort.isFull_eq
    obtain ⟨fallback, hs⟩ := Strategy.exists_eq_smart ((after_restart n s).trans hsmart)
    have huncut {task : Task} {strategy : Strategy} {table : ZoneTable}
        (hturn : (s.after n).copy.strategy.next (s.after n).copy.table =
          (.read task, strategy, table)) : table.zones = (s.after n).copy.table.zones := by
      have hzones := Strategy.next_smart_zones reverse fallback (s.after n).copy.table
      rw [← hs, hturn] at hzones
      rcases hzones with hzones | ⟨l, z, r, hz, hlong, -⟩
      · exact hzones
      · have hlen := hshort.short z (by simp [hz])
        omega
    rw [after_succ']
    constructor
    · rcases hn : (s.after n).nextRead? with _ | task
      · rwa [perform_of_none hn]
      · obtain ⟨strategy, table, hturn, -, htable⟩ := exists_turn hk.rests.failsAt hn
        have hzones := huncut hturn
        obtain ⟨l, z, r, d, rfl, hr, hp⟩ := Strategy.next_poised hturn hk.rests.agrees.mirrors.apart
        have htable' : table.Uncuttable := ⟨hzones ▸ hshort.single, hzones ▸ hshort.short⟩
        have hsettled := htable'.consume hr hp.nonempty (bad (z.task d).lba (z.task d).sectors)
        rw [htable]
        exact ⟨by simpa using hsettled.single, by simpa using hsettled.short⟩
    · refine hk.perform hroom fun task strategy table hturn => ?_
      exact hk.marks.turn_of_uncut hk.rests.agrees.mirrors hturn (huncut hturn) _

/-- A session that is opened over the journal is the twin of the one that left it. -/
theorem Recoverable.exists_twin (h : s.Recoverable bad j) {memory : Memory} {source : Source}
    {target : Target} {file : Option JournalFile} {options : CopyOptions}
    (hstrategy : s.copy.strategy.restart = .ofKind options.strategy options.skipBlocks)
    (hstart : s.copy.start = options.startLba) (hstop : s.copy.stop = source.capacity)
    (hmemory : memory.givesBlock = true) (hlt : options.startLba < source.capacity)
    (hfails : source.FailsAt bad) (hsep : sharesFile target ⟨j.bytes, file, true⟩ = false) :
    ∃ r, ofParts memory source target (some ⟨j.bytes, file, true⟩) options = .ok r ∧
      Twins bad s r j ⟨j.bytes, file, true⟩ := by
  have hsize : j.sectors = source.capacity := h.rests.agrees.sectors.trans hstop
  obtain ⟨r, hr⟩ :=
    @exists_ofParts ⟨j.bytes, file, true⟩ memory source target options hmemory hlt hsize
  obtain ⟨hofKind, hopen⟩ := ofParts_strategy hr
  obtain ⟨-, -, hsource⟩ := ofParts_parts hr
  have hagrees := agrees_ofParts hr (by simp) hsep
  have hrebuilt : r.copy.table = j.rebuild s.copy.start j.sectors := by
    rw [ofParts_restored hr, hstart, hsize]
  have hreleased : r.copy.table.release = r.copy.table := by
    rw [ZoneTable.release, hrebuilt, ← j.rebuild_cursor s.copy.start j.sectors]
  refine ⟨r, hr, h.rests, ⟨hopen, ?_, hagrees, ?_⟩, ⟨?_, ?_⟩, rfl⟩
  · rw [hsource]
    exact hfails
  · refine Strategy.retraceable_of_cursor ?_ ?_
    · rw [hofKind, Strategy.restart_ofKind]
    · rw [hrebuilt]
      exact j.rebuild_cursor _ _
  · rw [hofKind, Strategy.restart_ofKind]
    exact hstrategy
  · rw [hreleased, hrebuilt]
    exact h.rests.agrees.mirrors.seen_rebuild h.marks

variable {memory : Memory} {source : Source} {target : Target} {file : Option JournalFile}
  {options : CopyOptions}

theorem recoverable_ofParts
    (hopen : ofParts memory source target (some ⟨Bytes.zeros source.capacity, file, false⟩)
      options = .ok s)
    (hfails : source.FailsAt bad)
    (hsep : sharesFile target ⟨Bytes.zeros source.capacity, file, false⟩ = false) :
    s.Recoverable bad ⟨Bytes.zeros source.capacity, file, false⟩ := by
  obtain ⟨hstrategy, hopened⟩ := ofParts_strategy hopen
  obtain ⟨-, -, hsource⟩ := ofParts_parts hopen
  obtain ⟨-, -, -, -, htable⟩ := ofParts_eq_ok hopen
  have hfresh : (⟨Bytes.zeros source.capacity, file, false⟩ : Journal).bytes =
      Bytes.zeros source.capacity := rfl
  have hagrees := agrees_ofParts hopen (by simp [Journal.sectors, Bytes.zeros]) hsep
  refine ⟨⟨hopened, ?_, hagrees, Strategy.retraceable_of_cursor ?_ ?_⟩, ?_⟩
  · rw [hsource]
    exact hfails
  · rw [hstrategy, Strategy.restart_ofKind]
  · rw [htable]
    rfl
  · rw [htable]
    exact Journal.marks_ofRange hfresh _ _

/-- The session does what another one would have done after `n` performs: it reads what that would
have read, task after task until there are no more, and its journal holds the same bytes all
along. -/
structure TakesUp (s' s : CopySession) (n : Nat) : Prop where
  reads : ∀ m, (s'.after m).nextRead? = (s.after (n + m)).nextRead?
  bytes : ∀ m, (s'.after m).journal.map (·.bytes) = (s.after (n + m)).journal.map (·.bytes)
  ends : ∃ m, (s'.after m).nextRead? = none

theorem Recoverable.exists_takesUp
    (hopen : ofParts memory source target (some ⟨Bytes.zeros source.capacity, file, false⟩)
      options = .ok s)
    {n : Nat} (hk : (s.after n).Recoverable bad k) (hroom : ∀ m, (s.after m).HasRoom)
    {memory' : Memory} {source' : Source} {target' : Target} {file' : Option JournalFile}
    (hmemory' : memory'.givesBlock = true) (hcapacity : source'.capacity = source.capacity)
    (hfails' : source'.FailsAt bad)
    (hsep' : ∀ bytes, sharesFile target' ⟨bytes, file', true⟩ = false) :
    ∃ k s', (s.after n).close.2.journal = some k ∧
      ofParts memory' source' target' (some ⟨k.bytes, file', true⟩) options = .ok s' ∧
      s'.TakesUp s n := by
  obtain ⟨hstrategy, -⟩ := ofParts_strategy hopen
  obtain ⟨hlt, -, hstart, hstop, -⟩ := ofParts_eq_ok hopen
  have hrestart : (s.after n).copy.strategy.restart =
      .ofKind options.strategy options.skipBlocks := by
    rw [after_restart, hstrategy, Strategy.restart_ofKind]
  obtain ⟨s', hs', htwins⟩ := hk.exists_twin hrestart ((after_range n s).1.trans hstart)
    ((after_range n s).2.trans (hstop.trans hcapacity.symm)) hmemory' (hcapacity ▸ hlt)
    hfails' (hsep' k.bytes)
  have hafter (m : Nat) : ∃ j' k', Twins bad (s.after (n + m)) (s'.after m) j' k' := by
    rw [after_add]
    refine htwins.after (fun m => ?_) m
    rw [← after_add]
    exact hroom (n + m)
  refine ⟨k, s', ?_, hs', fun m => ?_, fun m => ?_, ?_⟩
  · rw [close_journal]
    exact hk.rests.agrees.journal
  · obtain ⟨j', k', hm⟩ := hafter m
    exact hm.nextRead?_eq.symm
  · obtain ⟨j', k', hm⟩ := hafter m
    rw [hm.left.agrees.journal, hm.right.agrees.journal]
    exact congrArg some hm.bytes.symm
  · exact htwins.right.agrees.exists_last htwins.right.failsAt

/-- A copy is left after any number of performs and opened again over the journal that it left, with
memory for its buffer. The new session goes on as the old one would have. -/
theorem resumed_retraces
    (hopen : ofParts memory source target (some ⟨Bytes.zeros source.capacity, file, false⟩)
      options = .ok s)
    (hfails : source.FailsAt bad)
    (hsep : sharesFile target ⟨Bytes.zeros source.capacity, file, false⟩ = false)
    (hkind : options.strategy = .skipFailForward ∨
      (options.strategy = .smartForward ∧ ∀ m, (s.after m).copy.table.size < maxZones) ∨
      (options.strategy = .smart ∧ source.capacity - options.startLba ≤ 1000000)) (n : Nat)
    {memory' : Memory} {source' : Source} {target' : Target} {file' : Option JournalFile}
    (hmemory' : memory'.givesBlock = true) (hcapacity : source'.capacity = source.capacity)
    (hfails' : source'.FailsAt bad)
    (hsep' : ∀ bytes, sharesFile target' ⟨bytes, file', true⟩ = false) :
    ∃ k s', (s.after n).close.2.journal = some k ∧
      ofParts memory' source' target' (some ⟨k.bytes, file', true⟩) options = .ok s' ∧
      s'.TakesUp s n := by
  have hfresh := recoverable_ofParts hopen hfails hsep
  obtain ⟨hstrategy, -⟩ := ofParts_strategy hopen
  obtain ⟨-, -, -, -, htable⟩ := ofParts_eq_ok hopen
  obtain ⟨hroom, k, hk⟩ : (∀ m, (s.after m).HasRoom) ∧ ∃ k, (s.after n).Recoverable bad k := by
    rcases hkind with hkind | ⟨hkind, hsize⟩ | ⟨hkind, hshort⟩
    · have hroom (m : Nat) : (s.after m).HasRoom := by
        intro reverse hsmart
        rw [after_restart, hstrategy, hkind] at hsmart
        simp [Strategy.ofKind, Strategy.restart] at hsmart
      refine ⟨hroom, hfresh.after_of_upwards ?_ hroom n⟩
      rw [hstrategy, hkind]
      rfl
    · have hroom (m : Nat) : (s.after m).HasRoom :=
        fun _ _ => ZoneTable.isFull_eq_false_iff.mpr (hsize m)
      refine ⟨hroom, hfresh.after_of_upwards ?_ hroom n⟩
      rw [hstrategy, hkind]
      rfl
    · have hsmart : s.copy.strategy.restart = .smart true false := by
        rw [hstrategy, hkind]
        rfl
      have huncut : s.copy.table.Uncuttable := by
        rw [htable]
        exact ZoneTable.uncuttable_ofRange hshort
      have hafter (m : Nat) := hfresh.after_of_uncuttable hsmart huncut m
      exact ⟨fun m _ _ => (hafter m).1.isFull_eq, (hafter n).2⟩
  exact hk.exists_takesUp hopen hroom hmemory' hcapacity hfails' hsep'

/-- After a first block that fails both sessions read the last one, downwards from the end. -/
theorem resumed_retraces_downwards :
    let source := onesSourceBut (· < 256) 600
    ∃ s k s', ofParts .ofProcess source emptyImage (some ⟨Bytes.zeros 600, none, false⟩) .default =
        .ok s ∧
      source.FailsAt (fun lba _ => decide (lba < 256)) ∧
      (s.after 1).close.2.journal = some k ∧
      ofParts .ofProcess source emptyImage (some ⟨k.bytes, none, true⟩) .default = .ok s' ∧
      s'.TakesUp s 1 ∧ s'.nextRead? = some ⟨344, 256, .backward⟩ := by
  intro source
  have hfails : source.FailsAt (fun lba _ => decide (lba < 256)) := onesSourceBut_failsAt _ _
  let s := fresh source emptyImage none .default
  have hopen : ofParts .ofProcess source emptyImage (some ⟨Bytes.zeros 600, none, false⟩) .default =
      .ok s := ofParts_fresh emptyImage none Memory.givesBlock_ofProcess (by decide)
  have hkind : CopyOptions.default.strategy = .smart ∧
      source.capacity - CopyOptions.default.startLba ≤ 1000000 := by decide
  obtain ⟨k, s', hk, hs', htakes⟩ := @resumed_retraces s _ .ofProcess source emptyImage none
    .default hopen hfails rfl (.inr (.inr hkind)) 1 .ofProcess source emptyImage none
    Memory.givesBlock_ofProcess rfl hfails fun _ => rfl
  have hnext : s'.nextRead? = some ⟨344, 256, .backward⟩ :=
    (htakes.reads 0).trans (by decide +kernel)
  exact ⟨s, k, s', hopen, hfails, hk, hs', htakes, hnext⟩

/-- The copy goes on, but for a session that is opened on the file nothing is left to read. -/
theorem resumed_done_in_shared_file :
    ∃ s k s', ofParts .ofProcess (onesSourceBut (256 ≤ ·) 131072)
        (sharedTarget (Bytes.zeros 131072)) (some (sharedJournal (Bytes.zeros 131072) false))
        .default = .ok s ∧
      (onesSourceBut (256 ≤ ·) 131072).FailsAt (fun lba _ => decide (256 ≤ lba)) ∧
      CopyOptions.default.strategy = .smart ∧
      (onesSourceBut (256 ≤ ·) 131072).capacity - CopyOptions.default.startLba ≤ 1000000 ∧
      (s.after 1).close.2.journal = some k ∧
      ofParts .ofProcess (onesSourceBut (256 ≤ ·) 131072) (sharedTarget k.bytes)
        (some (sharedJournal k.bytes true)) .default = .ok s' ∧
      (s.after 1).nextRead? = some ⟨256, 256, .forward⟩ ∧ s'.nextRead? = none := by
  obtain ⟨s, k, s', hopen, hnext, hk, hs', hnone, -⟩ := sharedJournal_reopened
  exact ⟨s, k, s', hopen, onesSourceBut_failsAt _ _, rfl, by decide, by rwa [close_journal], hs',
    hnext, hnone⟩

end CopySession

end DriveRescue
