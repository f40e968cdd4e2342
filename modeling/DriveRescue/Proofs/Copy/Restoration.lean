import DriveRescue.Proofs.Copy.Effects
import DriveRescue.Proofs.Journal.Counting

/-! What a restored copy begins with. Its zones and its tally come from two readings of one journal,
which takes a file of the right length whatever is in it. A byte that stands for no status is unread
to the tally and to the zones it is not, so that its sector is missing from the books. -/
namespace DriveRescue.CopySession

open JournalCounts

variable {s : CopySession} {memory : Memory} {source : Source} {target : Target}
  {options : CopyOptions} {j : Journal}

/-- The sectors that the books of a restored copy lack are those whose byte stands for no status. -/
theorem summary_of_restored (hr : j.restored = true)
    (hopen : ofParts memory source target (some j) options = .ok s) :
    s.copy.summary.readOk + s.copy.summary.failed + s.copy.summary.unresolved +
        j.number isUnknown options.startLba source.capacity =
      source.capacity - options.startLba := by
  obtain ⟨-, hsize, table, tally, hcopy, -, hrestored⟩ := ofParts_copy hopen
  obtain ⟨rfl, rfl⟩ := hrestored j rfl hr
  have hunread := j.counts_unread_rebuild options.startLba source.capacity
  have hsum := j.counts_sum options.startLba (Nat.le_of_eq (hsize j rfl).symm)
  rw [hcopy]
  simp only [Copy.summary, Copy.ofTable]
  omega

/-- A journal counts as unread the sectors of its zones and those whose byte stands for no status.
So the two readings of a range agree if and only if all its bytes stand for one; by the sectors of
the other bytes the books of a restored copy fall short of its range. -/
theorem readings_differ_by_unknown (j : Journal) (start stop : ℕ) :
    (j.counts start stop).unread =
      (j.rebuild start stop).unread + j.number isUnknown start stop ∧
    ((j.counts start stop).unread = (j.rebuild start stop).unread ↔
      ∀ x, start ≤ x → x < stop → ∀ b, j.bytes[x]? = some b → b ≤ 3) ∧
    ∀ memory source target options s, j.restored = true →
      ofParts memory source target (some j) options = .ok s →
      s.copy.summary.readOk + s.copy.summary.failed + s.copy.summary.unresolved +
          j.number isUnknown options.startLba source.capacity =
        source.capacity - options.startLba := by
  have hunread := j.counts_unread_rebuild start stop
  refine ⟨hunread, ?_, fun _ _ _ _ _ hr hopen => summary_of_restored hr hopen⟩
  have hnone : (j.counts start stop).unread = (j.rebuild start stop).unread ↔
      j.number isUnknown start stop = 0 := by omega
  simp only [hnone, Journal.number_eq_zero_iff, isUnknown_eq_false_iff]

/-- One sector was read and one failed, one is unread, and of one nothing can be told. -/
theorem readings_differ_by_unknown_restored :
    let source : Source := ⟨.posix, 4, fun _ _ _ => ⟨.uncorrectable, 0, #[]⟩, none, none,
      ⟨0, 0, 0, 0⟩⟩
    let target : Target := ⟨#[], none, fun _ _ count => some count, 0⟩
    let j : Journal := ⟨#[1, 7, 0, 2], none, true⟩
    ∃ s, j.restored = true ∧ ofParts .ofProcess source target (some j) .default = .ok s ∧
      s.copy.summary.readOk + s.copy.summary.failed + s.copy.summary.unresolved +
        j.number isUnknown 0 4 = 4 := by
  intro source target j
  obtain ⟨-, -, hbooks⟩ := readings_differ_by_unknown j 0 4
  exact ⟨_, rfl, rfl, hbooks .ofProcess source target .default _ rfl rfl⟩

/-- A journal is taken from a file with a byte that stands for no status. The sector counts as
unread but lies in no zone, and the copy begins with books of two sectors out of three. -/
theorem unknown_sector_missing_from_books :
    let files : FileTree := ⟨[], [(["j"], .file #[1, 4, 0])]⟩
    let j : Journal := ⟨#[1, 4, 0], some ⟨"j", ["j"]⟩, true⟩
    let source : Source := ⟨.posix, 3, fun _ _ _ => ⟨.uncorrectable, 0, #[]⟩, none, none,
      ⟨0, 0, 0, 0⟩⟩
    let target : Target := ⟨#[], none, fun _ _ count => some count, 0⟩
    Journal.openOrCreate files "j" 3 = (.ok j, files) ∧
      (j.counts 0 3).unread = 2 ∧ (j.rebuild 0 3).unread = 1 ∧
      ∃ s, ofParts .ofProcess source target (some j) .default = .ok s ∧
        s.copy.summary.readOk + s.copy.summary.failed + s.copy.summary.unresolved = 2 := by
  intro files j source target
  refine ⟨rfl, by decide +kernel, by decide +kernel, _, rfl, by decide +kernel⟩

end DriveRescue.CopySession
