import DriveRescue.Proofs.Copy.Agreement
import DriveRescue.Proofs.Strategy.Retracing

/-! Sessions over a source whose reads fail by what they span. A perform is a turn of the strategy
with its record in the journal, so that a session goes on as its strategy and its table say. -/
namespace DriveRescue

/-- Whether a read fails depends on its span alone. -/
def Source.FailsAt (s : Source) (bad : Nat → Nat → Bool) : Prop :=
  ∀ k lba sectors, (s.reading k lba (sectors * sectorBytes)).status.isFailure = bad lba sectors

namespace CopySession

variable {s s' : CopySession} {j : Journal} {task : Task} {bad : Nat → Nat → Bool}

theorem nextRead?_eq_some_iff (hopen : s.copy.closed = false) :
    s.nextRead? = some task ↔ (s.copy.strategy.next s.copy.table).1 = .read task := by
  rw [nextRead?, hopen, if_neg (by decide)]
  unfold Copy.next
  rcases s.copy.strategy.next s.copy.table with ⟨found, strategy, table⟩
  cases found <;> simp

theorem nextRead?_congr (hopen : s.copy.closed = false) (hopen' : s'.copy.closed = false)
    (h : (s.copy.strategy.next s.copy.table).1 = (s'.copy.strategy.next s'.copy.table).1) :
    s.nextRead? = s'.nextRead? := by
  apply Option.ext
  intro task
  rw [nextRead?_eq_some_iff hopen, nextRead?_eq_some_iff hopen', h]

/-- A perform that has read something is not the last. -/
theorem nextRead?_of_complete (hopen : s.copy.closed = false) (h : s.perform.1 = .complete) :
    s.nextRead? = none := by
  rcases hn : s.nextRead? with _ | task
  · rfl
  · obtain ⟨-, copy, hnext⟩ := exists_next_of_nextRead? hn
    rw [perform_of_some hopen hnext] at h
    simp only [enter, Copy.settle] at h
    split at h <;> simp at h

theorem nextRead?_of_zones (h : s.copy.table.zones = []) : s.nextRead? = none := by
  rw [nextRead?]
  split
  · rfl
  · simp [Copy.next, Strategy.next_of_nil _ h]

theorem perform_closed (s : CopySession) : s.perform.2.copy.closed = s.copy.closed := by
  rcases hn : s.nextRead? with _ | task
  · rw [perform_of_none hn]
  · obtain ⟨hopen, copy, hnext⟩ := exists_next_of_nextRead? hn
    obtain ⟨strategy, table, -, rfl⟩ := Copy.next_some hnext
    rw [perform_of_some hopen hnext, enter_copy, store_copy]
    rfl

theorem perform_restart (s : CopySession) :
    s.perform.2.copy.strategy.restart = s.copy.strategy.restart := by
  rcases hn : s.nextRead? with _ | task
  · rw [perform_of_none hn]
  · obtain ⟨hopen, copy, hnext⟩ := exists_next_of_nextRead? hn
    obtain ⟨strategy, table, hturn, rfl⟩ := Copy.next_some hnext
    have hrestart := Strategy.restart_next s.copy.strategy s.copy.table
    rw [hturn] at hrestart
    rw [perform_of_some hopen hnext, enter_copy, store_copy]
    exact hrestart

theorem perform_failsAt (h : s.source.FailsAt bad) : s.perform.2.source.FailsAt bad := by
  rw [perform_source]
  cases s.nextRead? <;> exact h

/-- A perform with a task settles it as the reply was. -/
theorem perform_settle (hn : s.nextRead? = some task) :
    ∃ strategy table writeFailed,
      s.copy.strategy.next s.copy.table = (.read task, strategy, table) ∧
      (s.perform.1, s.perform.2.copy) = { s.copy with strategy, table }.settle task
        ⟨(s.fetch task).1.status, (s.fetch task).1.nanos⟩ writeFailed := by
  obtain ⟨hopen, copy, hnext⟩ := exists_next_of_nextRead? hn
  obtain ⟨strategy, table, hturn, rfl⟩ := Copy.next_some hnext
  rw [perform_of_some hopen hnext, enter_settle, store_copy]
  exact ⟨strategy, table, _, hturn, rfl⟩

/-- A perform is a turn on the table. -/
theorem exists_turn_of_fetch (hn : s.nextRead? = some task) :
    ∃ strategy table, s.copy.strategy.next s.copy.table = (.read task, strategy, table) ∧
      s.perform.2.copy.strategy = strategy ∧
      s.perform.2.copy.table =
        (strategy.settle table task (s.fetch task).1.status.isFailure).2 ∧
      ∃ writeFailed, s.perform.2.copy.tally =
        s.copy.tally.add task.sectors (s.fetch task).1.status.isFailure writeFailed := by
  obtain ⟨strategy, table, writeFailed, hturn, hsettle⟩ := perform_settle hn
  have hcopy := congrArg Prod.snd hsettle
  dsimp only at hcopy
  refine ⟨strategy, table, hturn, ?_⟩
  rw [hcopy]
  exact ⟨rfl, rfl, writeFailed, rfl⟩

theorem exists_turn (hfails : s.source.FailsAt bad) (hn : s.nextRead? = some task) :
    ∃ strategy table, s.copy.strategy.next s.copy.table = (.read task, strategy, table) ∧
      s.perform.2.copy.strategy = strategy ∧
      s.perform.2.copy.table = (strategy.settle table task (bad task.lba task.sectors)).2 := by
  have hfailed : (s.fetch task).1.status.isFailure = bad task.lba task.sectors := hfails ..
  obtain ⟨strategy, table, hturn, hstrategy, htable, -⟩ := exists_turn_of_fetch hn
  exact ⟨strategy, table, hturn, hstrategy, hfailed ▸ htable⟩

theorem perform_of_turn {strategy : Strategy} {table : ZoneTable} (hopen : s.copy.closed = false)
    (hfails : s.source.FailsAt bad)
    (hturn : s.copy.strategy.next s.copy.table = (.read task, strategy, table)) :
    s.nextRead? = some task ∧ s.perform.2.copy.strategy = strategy ∧
      s.perform.2.copy.table = (strategy.settle table task (bad task.lba task.sectors)).2 := by
  have hn : s.nextRead? = some task := by rw [nextRead?_eq_some_iff hopen, hturn]
  obtain ⟨strategy', table', hturn', hleft⟩ := exists_turn hfails hn
  obtain ⟨-, rfl, rfl⟩ : Next.read task = .read task ∧ strategy = strategy' ∧ table = table' := by
    simpa [hturn] using hturn'
  exact ⟨hn, hleft⟩

theorem Agrees.perform_record (h : s.Agrees j) (hfails : s.source.FailsAt bad)
    (hn : s.nextRead? = some task) :
    s.perform.2.Agrees (j.record task.lba task.sectors (bad task.lba task.sectors)) := by
  have hnoted := h.perform_noted hn
  have hfailed : (s.fetch task).1.status.isFailure = bad task.lba task.sectors := hfails ..
  rwa [noted, hfailed] at hnoted

theorem after_succ (n : Nat) (s : CopySession) : s.after (n + 1) = s.perform.2.after n :=
  Function.iterate_succ_apply ..

theorem after_one (s : CopySession) : s.after 1 = s.perform.2 := rfl

theorem after_succ' (n : Nat) (s : CopySession) : s.after (n + 1) = (s.after n).perform.2 :=
  Function.iterate_succ_apply' ..

theorem after_add (m n : Nat) (s : CopySession) : s.after (m + n) = (s.after m).after n := by
  rw [Nat.add_comm]
  exact Function.iterate_add_apply ..

theorem after_failsAt (h : s.source.FailsAt bad) (n : Nat) : (s.after n).source.FailsAt bad := by
  induction n with
  | zero => exact h
  | succ n ih =>
    rw [after_succ']
    exact perform_failsAt ih

theorem Agrees.after_record {n lba sectors : Nat} {d : Direction} {failed : Bool}
    (h : (s.after n).Agrees j) (hfails : s.source.FailsAt bad)
    (hn : (s.after n).nextRead? = some ⟨lba, sectors, d⟩) (hbad : bad lba sectors = failed) :
    (s.after (n + 1)).Agrees (j.record lba sectors failed) := by
  rw [after_succ', ← hbad]
  exact h.perform_record (after_failsAt hfails n) hn

theorem after_closed (n : Nat) (s : CopySession) : (s.after n).copy.closed = s.copy.closed := by
  induction n with
  | zero => rfl
  | succ n ih => rw [after_succ', perform_closed, ih]

theorem after_restart (n : Nat) (s : CopySession) :
    (s.after n).copy.strategy.restart = s.copy.strategy.restart := by
  induction n with
  | zero => rfl
  | succ n ih => rw [after_succ', perform_restart, ih]

/-- A turn takes its sectors, of which there is at least one, out of the unread ones. -/
theorem Agrees.unread_perform (h : s.Agrees j) (hfails : s.source.FailsAt bad)
    (hn : s.nextRead? = some task) :
    1 ≤ task.sectors ∧ task.sectors + s.perform.2.copy.table.unread = s.copy.table.unread := by
  obtain ⟨strategy, table, hturn, -, htable⟩ := exists_turn hfails hn
  have hpos := (Strategy.Reaches.start.next_fresh h.mirrors.consistent hturn).1
  have hunread := Strategy.unread_turn hturn h.mirrors.consistent (bad task.lba task.sectors)
  rw [htable]
  exact ⟨hpos, by omega⟩

theorem Agrees.nextRead?_of_unread (h : s.Agrees j) (hunread : s.copy.table.unread = 0) :
    s.nextRead? = none :=
  nextRead?_of_zones (h.mirrors.consistent.unread_eq_zero_iff.mp hunread)

theorem Agrees.exists_last (h : s.Agrees j) (hfails : s.source.FailsAt bad) :
    ∃ n, (s.after n).nextRead? = none := by
  -- Every read makes the unread sectors fewer.
  induction hunread : s.copy.table.unread using Nat.strongRecOn generalizing s j with
  | ind unread ih =>
    rcases hn : s.nextRead? with _ | task
    · exact ⟨0, hn⟩
    · obtain ⟨hpos, hsum⟩ := h.unread_perform hfails hn
      obtain ⟨n, hlast⟩ := ih s.perform.2.copy.table.unread (by omega)
        (h.perform_record hfails hn) (perform_failsAt hfails) rfl
      exact ⟨n + 1, by rwa [after_succ]⟩

theorem ofParts_strategy {memory : Memory} {source : Source} {target : Target}
    {journal : Option Journal} {options : CopyOptions}
    (h : ofParts memory source target journal options = .ok s) :
    s.copy.strategy = .ofKind options.strategy options.skipBlocks ∧ s.copy.closed = false := by
  obtain ⟨-, -, table, tally, hcopy, -⟩ := ofParts_copy h
  rw [hcopy]
  exact ⟨rfl, rfl⟩

theorem exists_ofParts {memory : Memory} {source : Source} (target : Target)
    {options : CopyOptions} (hmemory : memory.givesBlock = true)
    (hstart : options.startLba < source.capacity) (hsize : j.sectors = source.capacity) :
    ∃ s, ofParts memory source target (some j) options = .ok s := by
  simp only [ofParts_eq, if_pos hmemory, Copy.begin?, if_neg (Nat.not_le_of_lt hstart), hsize,
    ne_eq, not_true_eq_false, ↓reduceIte]
  split <;> exact ⟨_, rfl⟩

/-- What a session finds over a restored journal are the zones that the journal yields. -/
theorem ofParts_restored {memory : Memory} {source : Source} {target : Target}
    {file : Option JournalFile} {options : CopyOptions}
    (h : ofParts memory source target (some ⟨j.bytes, file, true⟩) options = .ok s) :
    s.copy.table = j.rebuild options.startLba source.capacity := by
  obtain ⟨-, -, -, -, htable⟩ := ofParts_eq_ok h
  rw [htable, if_pos rfl]
  exact Journal.rebuild_congr rfl _ _

def fresh (source : Source) (target : Target) (file : Option JournalFile) (options : CopyOptions) :
    CopySession where
  copy := .ofTable options options.startLba source.capacity
    (.ofRange options.startLba source.capacity) ⟨0, 0, 0⟩
  source := source.prepare
  target := target
  journal := some ⟨Bytes.zeros source.capacity, file, false⟩

theorem ofParts_fresh {memory : Memory} {source : Source} (target : Target)
    (file : Option JournalFile) {options : CopyOptions} (hmemory : memory.givesBlock = true)
    (hlt : options.startLba < source.capacity) :
    ofParts memory source target (some ⟨Bytes.zeros source.capacity, file, false⟩) options =
      .ok (fresh source target file options) := by
  simp only [ofParts_eq, if_pos hmemory, Copy.begin?, if_neg (Nat.not_le_of_lt hlt),
    Journal.sectors, Bytes.zeros, Array.size_replicate, ne_eq, not_true_eq_false,
    Bool.false_eq_true, ↓reduceIte]
  rfl

theorem close_journal (s : CopySession) : s.close.2.journal = s.journal := by
  unfold close
  split <;> rfl

def emptyImage : Target := ⟨#[], none, fun _ _ count => some count, 0⟩

def onesSourceBut (bad : Nat → Bool) (sectors : Nat) : Source :=
  ⟨.posix, sectors, fun _ lba count =>
    if bad lba then ⟨.uncorrectable, 0, #[]⟩ else ⟨.ok, 0, Array.replicate count 1⟩, none, none,
    ⟨0, 0, 0, 0⟩⟩

theorem onesSourceBut_failsAt (bad : Nat → Bool) (sectors : Nat) :
    (onesSourceBut bad sectors).FailsAt (fun lba _ => bad lba) := by
  intro k lba count
  cases hlba : bad lba <;> simp [onesSourceBut, hlba] <;> rfl

/-- The data of the first block fill the file that the journal lies in. -/
theorem sharedJournal_filled :
    ∃ s, ofParts .ofProcess (onesSourceBut (256 ≤ ·) 131072) (sharedTarget (Bytes.zeros 131072))
        (some (sharedJournal (Bytes.zeros 131072) false)) .default = .ok s ∧
      (s.after 1).nextRead? = some ⟨256, 256, .forward⟩ ∧
      ∃ k, (s.after 1).journal = some k ∧ k.sectors = 131072 ∧
        ∀ x < 131072, k.bytes[x]? = some 1 := by
  let source := onesSourceBut (256 ≤ ·) 131072
  let journal := sharedJournal (Bytes.zeros 131072) false
  let s := fresh source (sharedTarget (Bytes.zeros 131072)) journal.file .default
  have hopen : ofParts .ofProcess source (sharedTarget (Bytes.zeros 131072)) (some journal)
      .default = .ok s := ofParts_fresh _ _ Memory.givesBlock_ofProcess (by decide)
  have hfails : s.source.FailsAt (fun lba _ => decide (256 ≤ lba)) :=
    onesSourceBut_failsAt (256 ≤ ·) 131072
  have hturn : s.copy.strategy.next s.copy.table = (.read ⟨0, 256, .forward⟩, .smart true false,
      ⟨[.clean 0 131072], some ⟨0, .forward⟩⟩) := by decide +kernel
  obtain ⟨-, hstrategy, htable⟩ := perform_of_turn rfl hfails hturn
  have hnext : (s.after 1).nextRead? = some ⟨256, 256, .forward⟩ := by
    rw [after_one, nextRead?_eq_some_iff s.perform_closed, hstrategy, htable]
    decide +kernel
  have hwrite := @writeAll_sharedTarget (Bytes.zeros 131072) 0 (Array.replicate 131072 1) (by simp)
  have hfetch : (s.fetch ⟨0, 256, .forward⟩).1 = ⟨.ok, 0, Array.replicate 131072 1⟩ := rfl
  have hk := @perform_journal_of_shared s ⟨0, 256, .forward⟩ _ journal rfl rfl rfl rfl
    (by rw [hfetch]; rfl) (by rw [hfetch]; exact hwrite)
  have hoffset : 0 * sectorBytes = 0 := rfl
  rw [hfetch, hoffset, ← after_one] at hk
  have hsize : journal.sectors = 131072 := Array.size_replicate
  refine ⟨s, hopen, hnext, _, hk, ?_, fun x hx => ?_⟩
  · rw [Journal.sectors_record, Journal.sectors_overwrite, hsize]
  · exact getElem?_record_overwrite_ones (hsize ▸ hx) hx

/-- A session that is opened on that file has nothing left to read. -/
theorem sharedJournal_reopened :
    ∃ s k s', ofParts .ofProcess (onesSourceBut (256 ≤ ·) 131072)
        (sharedTarget (Bytes.zeros 131072)) (some (sharedJournal (Bytes.zeros 131072) false))
        .default = .ok s ∧
      (s.after 1).nextRead? = some ⟨256, 256, .forward⟩ ∧ (s.after 1).journal = some k ∧
      ofParts .ofProcess (onesSourceBut (256 ≤ ·) 131072) (sharedTarget k.bytes)
        (some (sharedJournal k.bytes true)) .default = .ok s' ∧
      s'.nextRead? = none ∧ s'.journal.map (·.status 256) = some (some .readOk) := by
  obtain ⟨s, hopen, hnext, k, hk, hsize, hbytes⟩ := sharedJournal_filled
  obtain ⟨s', hs'⟩ := @exists_ofParts (sharedJournal k.bytes true) .ofProcess
    (onesSourceBut (256 ≤ ·) 131072) (sharedTarget k.bytes) .default Memory.givesBlock_ofProcess
    (by decide) hsize
  obtain ⟨hjournal, -, -⟩ := ofParts_parts hs'
  have hnone : s'.copy.table.zones = [] := by
    rw [ofParts_restored hs']
    refine Journal.rebuild_zones_eq_nil _ fun x _ hx => ?_
    rw [hbytes x hx]
    decide
  refine ⟨s, k, s', hopen, hnext, hk, hs', nextRead?_of_zones hnone, ?_⟩
  have hbyte : (sharedJournal k.bytes true).bytes[256]? = some 1 := hbytes 256 (by decide)
  rw [hjournal, Option.map_some, Journal.status, hbyte]
  rfl

end CopySession

end DriveRescue
