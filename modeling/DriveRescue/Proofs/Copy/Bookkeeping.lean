import DriveRescue.Proofs.Copy.Turning
import DriveRescue.Proofs.Journal.Counting

/-! The books of a copy. Its tally, its progress, its unread zones and its journal are kept by
separate hands, and each of them tells how far the copy has come. -/
namespace DriveRescue

namespace Tally

/-- Whatever comes of a read, its sectors are good or failed ones. -/
theorem settled_add (t : Tally) (sectors : Nat) (failed writeFailed : Bool) :
    (t.add sectors failed writeFailed).readOk + (t.add sectors failed writeFailed).failed =
      t.readOk + t.failed + sectors := by
  unfold add
  cases failed <;> simp only [Bool.false_eq_true, ↓reduceIte] <;> omega

end Tally

theorem Progress.advance_of_le {p : Progress} {sectors : Nat} (h : p.done + sectors ≤ p.total) :
    p.advance sectors = ⟨p.done + sectors, p.total⟩ := by
  unfold advance
  rw [Nat.min_eq_left h]

namespace Copy

structure Balanced (c : Copy) : Prop where
  consistent : c.table.Consistent
  shares : c.tally.readOk + c.tally.failed + c.table.unread = c.stop - c.start
  progress : c.progress = ⟨c.tally.readOk + c.tally.failed, c.stop - c.start⟩

variable {c : Copy} {task : Task} {strategy : Strategy} {table : ZoneTable}

theorem balanced_ofTable {options : CopyOptions} {start stop : Nat} {tally : Tally}
    (hc : table.Consistent) (h : tally.readOk + tally.failed + table.unread = stop - start) :
    (ofTable options start stop table tally).Balanced := by
  refine ⟨hc, h, ?_⟩
  have hdone : stop - start - table.unread = tally.readOk + tally.failed := by omega
  unfold ofTable
  rw [hdone]

/-- What a task takes out of the unread sectors it adds to the others, and the progress has room
for it. -/
theorem Balanced.settle (h : c.Balanced)
    (hturn : c.strategy.next c.table = (.read task, strategy, table)) (outcome : Outcome)
    (writeFailed : Bool) :
    ({ c with strategy, table }.settle task outcome writeFailed).2.Balanced ∧
      ({ c with strategy, table }.settle task outcome writeFailed).2.progress.done =
        c.progress.done + task.sectors := by
  have hunread := Strategy.unread_turn hturn h.consistent outcome.status.isFailure
  have hconsistent : (strategy.settle table task outcome.status.isFailure).2.Consistent :=
    (Strategy.Reaches.turn outcome.status.isFailure .start hturn).consistent h.consistent
  have hsettled := c.tally.settled_add task.sectors outcome.status.isFailure writeFailed
  have hshares := h.shares
  have hadvance : c.progress.advance task.sectors =
      ⟨c.tally.readOk + c.tally.failed + task.sectors, c.stop - c.start⟩ := by
    rw [h.progress]
    apply Progress.advance_of_le
    show c.tally.readOk + c.tally.failed + task.sectors ≤ c.stop - c.start
    omega
  unfold Copy.settle
  constructor
  · constructor
    · exact hconsistent
    · dsimp only
      omega
    · dsimp only
      rw [hadvance, hsettled]
  · dsimp only
    rw [hadvance, h.progress]

end Copy

namespace CopySession

variable {s : CopySession} {j : Journal} {task : Task}

theorem balanced_ofParts {memory : Memory} {source : Source} {target : Target}
    {options : CopyOptions} (hopen : ofParts memory source target (some j) options = .ok s)
    (hknown : j.restored = true → ∀ b ∈ j.bytes, b ≤ 3) : s.copy.Balanced := by
  obtain ⟨hstart, hsize, table, tally, hcopy, hfresh, hrestored⟩ := ofParts_copy hopen
  rw [hcopy]
  have hsize := hsize j rfl
  cases hr : j.restored with
  | false =>
    obtain ⟨rfl, rfl⟩ := hfresh (by simpa using hr)
    apply Copy.balanced_ofTable (ZoneTable.consistent_ofRange _ _)
    rw [ZoneTable.unread_ofRange]
    exact Nat.zero_add _
  | true =>
    obtain ⟨rfl, rfl⟩ := hrestored j rfl hr
    apply Copy.balanced_ofTable (j.consistent_rebuild _ _)
    have hunread := (j.mirrors_rebuild options.startLba).unread_eq (hknown hr)
    have hsum := j.counts_sum options.startLba (Nat.le_refl _)
    rw [hsize] at hunread hsum
    dsimp only
    omega

theorem balanced_perform (h : s.copy.Balanced) (hn : s.nextRead? = some task) :
    s.perform.2.copy.Balanced ∧
      s.perform.2.copy.progress.done = s.copy.progress.done + task.sectors := by
  obtain ⟨strategy, table, writeFailed, hturn, hsettle⟩ := perform_settle hn
  have hcopy : s.perform.2.copy = _ := congrArg Prod.snd hsettle
  rw [hcopy]
  exact h.settle hturn _ writeFailed

theorem balanced_after (h : s.copy.Balanced) (n : Nat) : (s.after n).copy.Balanced := by
  induction n with
  | zero => exact h
  | succ n ih =>
    rw [after_succ']
    rcases hn : (s.after n).nextRead? with _ | task
    · rwa [perform_of_none hn]
    · exact (balanced_perform ih hn).1

theorem progress_after_le (h : s.copy.Balanced) {m n : Nat} (hmn : m ≤ n) :
    (s.after m).copy.progress.done ≤ (s.after n).copy.progress.done := by
  induction n, hmn using Nat.le_induction with
  | base => exact Nat.le_refl _
  | succ n _ ih =>
    rw [after_succ']
    rcases hn : (s.after n).nextRead? with _ | task
    · rwa [perform_of_none hn]
    · rw [(balanced_perform (balanced_after h n) hn).2]
      omega

/-- The journal counts as the copy does. -/
def CountsAlike (s : CopySession) (j : Journal) : Prop :=
  j.counts s.copy.start s.copy.stop =
    ⟨s.copy.table.unread, s.copy.tally.readOk, s.copy.tally.failed⟩

theorem Agrees.countsAlike_ofParts {memory : Memory} {source : Source} {target : Target}
    {options : CopyOptions} (h : s.Agrees j)
    (hopen : ofParts memory source target (some j) options = .ok s)
    (hfresh : j.restored = false → j.bytes = Bytes.zeros j.sectors)
    (hknown : j.restored = true → ∀ b ∈ j.bytes, b ≤ 3) : s.CountsAlike j := by
  have hbytes : ∀ b ∈ j.bytes, b ≤ 3 := by
    cases hr : j.restored with
    | true => exact hknown hr
    | false =>
      intro b hb
      rw [hfresh hr] at hb
      obtain rfl := Array.eq_of_mem_replicate hb
      decide
  have hunread := h.mirrors.unread_eq hbytes
  have hsum := j.counts_sum s.copy.start (Nat.le_of_eq h.sectors.symm)
  have hshares := (balanced_ofParts hopen hknown).shares
  obtain ⟨-, -, table, tally, hcopy, hnone, hrestored⟩ := ofParts_copy hopen
  rw [h.sectors] at hunread
  unfold CountsAlike
  rw [hunread]
  have htally : (j.counts s.copy.start s.copy.stop).readOk = s.copy.tally.readOk ∧
      (j.counts s.copy.start s.copy.stop).failed = s.copy.tally.failed := by
    cases hr : j.restored with
    | false =>
      -- All sectors are unread in the table, so that the journal has no others.
      obtain ⟨-, rfl⟩ := hnone (by simpa using hr)
      have hzero : s.copy.tally = ⟨0, 0, 0⟩ := by rw [hcopy]; rfl
      rw [hzero] at hshares ⊢
      dsimp only at hshares ⊢
      omega
    | true =>
      obtain ⟨-, rfl⟩ := hrestored j rfl hr
      rw [hcopy]
      exact ⟨rfl, rfl⟩
  rw [← htally.1, ← htally.2]

/-- The record in the journal and the entry in the tally count the same sectors. -/
theorem Agrees.countsAlike_perform (h : s.Agrees j) (hcounts : s.CountsAlike j)
    (hn : s.nextRead? = some task) : s.perform.2.CountsAlike (s.noted task j) := by
  obtain ⟨strategy, table, writeFailed, hturn, hsettle⟩ := perform_settle hn
  have hcopy : s.perform.2.copy = _ := congrArg Prod.snd hsettle
  have hspan {x : Nat} (hx : task.Spans x) : s.copy.start ≤ x ∧ j.bytes[x]? = some 0 :=
    h.mirrors.unread_of_spans hturn hx
  have hpos := (Strategy.Reaches.start.next_fresh h.mirrors.consistent hturn).1
  have hlo : s.copy.start ≤ task.lba := (hspan ⟨Nat.le_refl _, by omega⟩).1
  have hhi : task.lba + task.sectors ≤ s.copy.stop := by
    have hlast := (hspan (x := task.lba + task.sectors - 1) ⟨by omega, by omega⟩).2
    have := (Array.getElem?_eq_some_iff.mp hlast).1
    have := h.sectors
    unfold Journal.sectors at this
    omega
  let failed := (s.fetch task).1.status.isFailure
  let counts := (j.record task.lba task.sectors failed).counts s.copy.start s.copy.stop
  let tally := s.copy.tally.add task.sectors failed writeFailed
  obtain ⟨hopen, hgood, hlost⟩ := Journal.counts_record hlo hhi (Nat.le_of_eq h.sectors.symm)
    (fun x hx => (hspan hx).2) failed
  rw [hcounts] at hopen hgood hlost
  have hunread : (strategy.settle table task failed).2.unread = counts.unread := by
    have hturned := Strategy.unread_turn hturn h.mirrors.consistent failed
    dsimp only [counts] at hopen ⊢
    omega
  have hreadOk : tally.readOk = counts.readOk := hgood.symm
  have hfailed : tally.failed = counts.failed := hlost.symm
  unfold CountsAlike
  rw [hcopy]
  show counts = ⟨(strategy.settle table task failed).2.unread, tally.readOk, tally.failed⟩
  rw [hunread, hreadOk, hfailed]

theorem countsAlike_after (hagrees : s.Agrees j) (hcounts : s.CountsAlike j) (n : Nat) :
    ∃ k, (s.after n).Agrees k ∧ (s.after n).CountsAlike k := by
  induction n with
  | zero => exact ⟨j, hagrees, hcounts⟩
  | succ n ih =>
    obtain ⟨k, hk, hcounts⟩ := ih
    rw [after_succ']
    rcases hn : (s.after n).nextRead? with _ | task
    · rw [perform_of_none hn]
      exact ⟨k, hk, hcounts⟩
    · exact ⟨_, hk.perform_noted hn, hk.countsAlike_perform hcounts hn⟩

/-- After any number of performs of a copy over a fresh or a restored journal, the good, the failed
and the unread sectors make up its range. The progress is the first two, it never goes back, no
advance of it is cut, and it is complete when no zone is left. In a file of its own the journal
counts the same sectors. -/
theorem books_agree {memory : Memory} {source : Source} {target : Target}
    {options : CopyOptions} (hopen : ofParts memory source target (some j) options = .ok s)
    (hfresh : j.restored = false → j.bytes = Bytes.zeros j.sectors)
    (hknown : j.restored = true → ∀ b ∈ j.bytes, b ≤ 3) (n : Nat) :
    let copy := (s.after n).copy
    let summary := copy.summary
    summary.unresolved = copy.table.unread ∧
    summary.readOk + summary.failed + summary.unresolved =
      source.capacity - options.startLba ∧
    copy.progress = ⟨summary.readOk + summary.failed, source.capacity - options.startLba⟩ ∧
    (∀ m ≤ n, (s.after m).copy.progress.done ≤ copy.progress.done) ∧
    (∀ task, (s.after n).nextRead? = some task →
      (s.after (n + 1)).copy.progress.done = copy.progress.done + task.sectors) ∧
    (copy.progress.isComplete = true ↔ copy.table.isEmpty = true) ∧
    (sharesFile target j = false → ∃ k, (s.after n).journal = some k ∧
      k.counts options.startLba source.capacity =
        ⟨summary.unresolved, summary.readOk, summary.failed⟩) := by
  intro copy summary
  obtain ⟨-, -, hstart, hstop, -⟩ := ofParts_eq_ok hopen
  have hrange : copy.start = options.startLba ∧ copy.stop = source.capacity := by
    rw [← hstart, ← hstop]
    exact after_range n s
  have hbegun := balanced_ofParts hopen hknown
  have hb : copy.Balanced := balanced_after hbegun n
  have hshares := hb.shares
  have hprogress := hb.progress
  rw [hrange.1, hrange.2] at hshares hprogress
  refine ⟨rfl, hshares, hprogress, fun m hm => progress_after_le hbegun hm, ?_, ?_, ?_⟩
  · intro task hn
    rw [after_succ']
    exact (balanced_perform hb hn).2
  · unfold Progress.isComplete ZoneTable.isEmpty
    rw [hprogress, decide_eq_true_iff, List.isEmpty_iff, ← hb.consistent.unread_eq_zero_iff]
    dsimp only
    omega
  · intro hsep
    have hagrees := agrees_ofParts hopen hfresh hsep
    obtain ⟨k, hk, hcounts⟩ :=
      countsAlike_after hagrees (hagrees.countsAlike_ofParts hopen hfresh hknown) n
    have hcounts : k.counts copy.start copy.stop = _ := hcounts
    rw [hrange.1, hrange.2] at hcounts
    exact ⟨k, hk.journal, hcounts⟩

/-- One failed sector is known of before, and one more comes to it. -/
theorem books_agree_restored :
    let source : Source := ⟨.posix, 4, fun _ _ _ => ⟨.uncorrectable, 0, #[]⟩, none, none,
      ⟨0, 0, 0, 0⟩⟩
    let target : Target := ⟨#[], none, fun _ _ count => some count, 0⟩
    let j : Journal := ⟨#[0, 2, 0, 0], none, true⟩
    ∃ s, ofParts .ofProcess source target (some j) .default = .ok s ∧ (∀ b ∈ j.bytes, b ≤ 3) ∧
      sharesFile target j = false ∧ (s.after 1).copy.progress = ⟨2, 4⟩ ∧
      ∃ k, (s.after 1).journal = some k ∧ k.counts 0 4 = ⟨2, 0, 2⟩ := by
  intro source target j
  have hknown : ∀ b ∈ j.bytes, b ≤ 3 := by simp [j]
  refine ⟨_, rfl, hknown, rfl, by decide +kernel, ?_⟩
  obtain ⟨-, -, -, -, -, -, hcounts⟩ :=
    @books_agree _ j .ofProcess source target .default rfl (by simp [j]) (fun _ => hknown) 1
  obtain ⟨k, hk, hcounts⟩ := hcounts rfl
  refine ⟨k, hk, hcounts.trans ?_⟩
  decide +kernel

/-- A journal in the image's own file may count no sector as unread before the copy is through. -/
theorem books_differ_in_shared_file :
    ∃ s, ofParts .ofProcess (onesSource 3) (sharedTarget #[0, 2, 0])
        (some (sharedJournal #[0, 2, 0] true)) .default = .ok s ∧
      (∀ b ∈ (sharedJournal #[0, 2, 0] true).bytes, b ≤ 3) ∧
      (s.after 1).copy.summary.unresolved = 1 ∧
      ∃ k, (s.after 1).journal = some k ∧ (k.counts 0 3).unread = 0 := by
  obtain ⟨s, hopen, hzones, k, hk, hbytes⟩ := sharedJournal_perform
  refine ⟨s, hopen, by simp [sharedJournal], ?_, k, hk, ?_⟩
  · exact ZoneTable.unread_congr (u := ⟨[⟨2, 3, true, false⟩], none⟩) hzones
  · have hsize : 3 ≤ k.sectors := (Array.getElem?_eq_some_iff.mp (hbytes 2 (by decide))).1
    rw [Journal.counts_eq hsize]
    show k.number JournalCounts.isOpen 0 3 = 0
    unfold Journal.number
    apply Finset.sum_eq_zero
    intro x hx
    rw [hbytes x (Finset.mem_Ico.mp hx).2]
    rfl

end CopySession

end DriveRescue
