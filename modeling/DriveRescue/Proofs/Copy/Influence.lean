import DriveRescue.Proofs.Copy.Turning
import DriveRescue.Proofs.Journal.Counting

/-! What a copy takes in of its surroundings. Of a read it is whether it failed, and of a write it
is nothing: neither the kind of a failure nor the image it writes to ever changes what it reads next
or what it notes. -/
namespace DriveRescue

/-- A step without what it tells of the access to its block. -/
def Step.outline : Step → Step
  | .proceed report => .proceed ⟨report.lba, report.sectors, .ok, 0, false⟩
  | .abort report => .abort ⟨report.lba, report.sectors, .ok, 0, false⟩
  | step => step

namespace Copy

structure Parallel (c c' : Copy) : Prop where
  strategy : c.strategy = c'.strategy
  table : c.table = c'.table
  progress : c.progress = c'.progress
  readOk : c.tally.readOk = c'.tally.readOk
  failed : c.tally.failed = c'.tally.failed
  closed : c.closed = c'.closed

variable {c c' : Copy}

theorem Parallel.next (h : c.Parallel c') : c.next.1 = c'.next.1 := by
  unfold Copy.next
  rw [h.strategy, h.table]
  rcases c'.strategy.next c'.table with ⟨found, strategy, table⟩
  cases found <;> rfl

/-- Outcomes that both failed, or both did not, are settled alike. -/
theorem Parallel.settle (h : c.Parallel c') (task : Task) (outcome outcome' : Outcome)
    (writeFailed writeFailed' : Bool)
    (hfailed : outcome.status.isFailure = outcome'.status.isFailure) :
    (c.settle task outcome writeFailed).1.outline =
        (c'.settle task outcome' writeFailed').1.outline ∧
      (c.settle task outcome writeFailed).2.Parallel
        (c'.settle task outcome' writeFailed').2 := by
  unfold Copy.settle Tally.add
  dsimp only
  rw [h.strategy, h.table, h.progress, h.readOk, h.failed, hfailed]
  rcases c'.strategy.settle c'.table task outcome'.status.isFailure with ⟨verdict, table⟩
  constructor
  · cases verdict <;> rfl
  · exact ⟨rfl, rfl, rfl, rfl, rfl, h.closed⟩

end Copy

namespace CopySession

def nextFails? (s : CopySession) : Option Bool :=
  s.nextRead?.map fun task => (s.fetch task).1.status.isFailure

/-- If both sessions read next, both of the reads fail or neither does. -/
def ReadsAlike (s s' : CopySession) : Prop :=
  ∀ failed ∈ s.nextFails?, ∀ failed' ∈ s'.nextFails?, failed = failed'

/-- The bytes of a journal that an earlier run left. -/
def restoredBytes? (journal : Option Journal) : Option Bytes :=
  (journal.filter (·.restored)).map (·.bytes)

structure BeginAlike (source source' : Source) (journal journal' : Option Journal)
    (options options' : CopyOptions) : Prop where
  capacity : source.capacity = source'.capacity
  strategy : options.strategy = options'.strategy
  skipBlocks : options.skipBlocks = options'.skipBlocks
  startLba : options.startLba = options'.startLba
  restored : restoredBytes? journal = restoredBytes? journal'

variable {s s' : CopySession} {j j' : Journal} {task : Task}

theorem nextFails?_of_failsAt {bad : Nat → Nat → Bool} (h : s.source.FailsAt bad) {failed : Bool}
    (hf : failed ∈ s.nextFails?) :
    ∃ task, s.nextRead? = some task ∧ failed = bad task.lba task.sectors := by
  obtain ⟨task, hn, rfl⟩ := Option.map_eq_some_iff.mp hf
  exact ⟨task, hn, h ..⟩

theorem nextRead?_of_parallel (h : s.copy.Parallel s'.copy) : s.nextRead? = s'.nextRead? := by
  unfold nextRead?
  rw [h.closed, h.next]

theorem ReadsAlike.isFailure_eq (h : ReadsAlike s s') (hn : s.nextRead? = some task)
    (hn' : s'.nextRead? = some task) :
    (s.fetch task).1.status.isFailure = (s'.fetch task).1.status.isFailure := by
  apply h
  · unfold nextFails?
    rw [hn]
    rfl
  · unfold nextFails?
    rw [hn']
    rfl

theorem perform_parallel (h : s.copy.Parallel s'.copy) (hreads : ReadsAlike s s') :
    s.perform.1.outline = s'.perform.1.outline ∧ s.perform.2.copy.Parallel s'.perform.2.copy := by
  have hsame := nextRead?_of_parallel h
  rcases hn : s.nextRead? with _ | task
  · rw [perform_of_none hn, perform_of_none (hsame.symm.trans hn)]
    exact ⟨rfl, h⟩
  · have hn' : s'.nextRead? = some task := hsame.symm.trans hn
    obtain ⟨strategy, table, writeFailed, hturn, hsettle⟩ := perform_settle hn
    obtain ⟨strategy', table', writeFailed', hturn', hsettle'⟩ := perform_settle hn'
    rw [h.strategy, h.table, hturn', Prod.mk.injEq, Prod.mk.injEq] at hturn
    obtain ⟨-, rfl, rfl⟩ := hturn
    have hbegun : Copy.Parallel { s.copy with strategy := strategy', table := table' }
        { s'.copy with strategy := strategy', table := table' } :=
      ⟨rfl, rfl, h.progress, h.readOk, h.failed, h.closed⟩
    have hsettled := hbegun.settle task ⟨(s.fetch task).1.status, (s.fetch task).1.nanos⟩
      ⟨(s'.fetch task).1.status, (s'.fetch task).1.nanos⟩ writeFailed writeFailed'
      (hreads.isFailure_eq hn hn')
    rwa [← hsettle, ← hsettle'] at hsettled

theorem after_parallel (h : s.copy.Parallel s'.copy) {n : Nat}
    (hreads : ∀ k < n, ReadsAlike (s.after k) (s'.after k)) :
    (s.after n).copy.Parallel (s'.after n).copy := by
  induction n with
  | zero => exact h
  | succ n ih =>
    rw [after_succ', after_succ']
    apply (perform_parallel (ih fun k hk => hreads k (Nat.lt_succ_of_lt hk)) _).2
    exact hreads n (Nat.lt_succ_self n)

/-- Journals with the same bytes get the same record. -/
theorem Agrees.perform_bytes (hj : s.Agrees j) (hj' : s'.Agrees j') (hbytes : j.bytes = j'.bytes)
    (h : s.copy.Parallel s'.copy) (hreads : ReadsAlike s s') :
    ∃ k k', s.perform.2.Agrees k ∧ s'.perform.2.Agrees k' ∧ k.bytes = k'.bytes := by
  have hsame := nextRead?_of_parallel h
  rcases hn : s.nextRead? with _ | task
  · rw [perform_of_none hn, perform_of_none (hsame.symm.trans hn)]
    exact ⟨j, j', hj, hj', hbytes⟩
  · have hn' : s'.nextRead? = some task := hsame.symm.trans hn
    refine ⟨_, _, hj.perform_noted hn, hj'.perform_noted hn', ?_⟩
    unfold noted Journal.record
    rw [hreads.isFailure_eq hn hn', hbytes]

theorem Agrees.after_bytes (hj : s.Agrees j) (hj' : s'.Agrees j') (hbytes : j.bytes = j'.bytes)
    (h : s.copy.Parallel s'.copy) {n : Nat}
    (hreads : ∀ k < n, ReadsAlike (s.after k) (s'.after k)) :
    ∃ k k', (s.after n).Agrees k ∧ (s'.after n).Agrees k' ∧ k.bytes = k'.bytes := by
  induction n with
  | zero => exact ⟨j, j', hj, hj', hbytes⟩
  | succ n ih =>
    have hbefore : ∀ k < n, ReadsAlike (s.after k) (s'.after k) :=
      fun k hk => hreads k (Nat.lt_succ_of_lt hk)
    obtain ⟨k, k', hk, hk', hbytes⟩ := ih hbefore
    rw [after_succ', after_succ']
    exact hk.perform_bytes hk' hbytes (after_parallel h hbefore) (hreads n (Nat.lt_succ_self n))

theorem restoredBytes?_eq_none_iff {journal : Option Journal} :
    restoredBytes? journal = none ↔ ∀ j, journal = some j → j.restored = false := by
  unfold restoredBytes?
  cases journal with
  | none => simp
  | some j => cases hr : j.restored <;> simp [Option.filter, hr]

theorem restoredBytes?_eq_some_iff {journal : Option Journal} {bytes : Bytes} :
    restoredBytes? journal = some bytes ↔
      ∃ j, journal = some j ∧ j.restored = true ∧ j.bytes = bytes := by
  unfold restoredBytes?
  cases journal with
  | none => simp
  | some j => cases hr : j.restored <;> simp [Option.filter, hr]

section Opened

variable {memory memory' : Memory} {source source' : Source} {target target' : Target}
  {journal journal' : Option Journal} {options options' : CopyOptions}

theorem BeginAlike.parallel (h : BeginAlike source source' journal journal' options options')
    (hopen : ofParts memory source target journal options = .ok s)
    (hopen' : ofParts memory' source' target' journal' options' = .ok s') :
    s.copy.Parallel s'.copy := by
  obtain ⟨-, -, table, tally, hcopy, hfresh, hkept⟩ := ofParts_copy hopen
  obtain ⟨-, -, table', tally', hcopy', hfresh', hkept'⟩ := ofParts_copy hopen'
  have hsame : table = table' ∧ tally = tally' := by
    cases hbytes : restoredBytes? journal' with
    | none =>
      obtain ⟨rfl, rfl⟩ := hfresh (restoredBytes?_eq_none_iff.mp (h.restored.trans hbytes))
      obtain ⟨rfl, rfl⟩ := hfresh' (restoredBytes?_eq_none_iff.mp hbytes)
      rw [h.capacity, h.startLba]
      exact ⟨rfl, rfl⟩
    | some bytes =>
      obtain ⟨j, hj, hr, rfl⟩ := restoredBytes?_eq_some_iff.mp (h.restored.trans hbytes)
      obtain ⟨j', hj', hr', hsame⟩ := restoredBytes?_eq_some_iff.mp hbytes
      obtain ⟨rfl, rfl⟩ := hkept j hj hr
      obtain ⟨rfl, rfl⟩ := hkept' j' hj' hr'
      rw [h.capacity, h.startLba, j.rebuild_congr hsame.symm, Journal.counts_congr hsame.symm]
      exact ⟨rfl, rfl⟩
  obtain ⟨rfl, rfl⟩ := hsame
  rw [hcopy, hcopy', h.capacity, h.startLba]
  unfold Copy.ofTable
  rw [h.strategy, h.skipBlocks]
  exact ⟨rfl, rfl, rfl, rfl, rfl, rfl⟩

theorem BeginAlike.bytes_eq
    (h : BeginAlike source source' (some j) (some j') options options')
    (hfresh : j.restored = false → j.bytes = Bytes.zeros j.sectors)
    (hfresh' : j'.restored = false → j'.bytes = Bytes.zeros j'.sectors)
    (hsize : j.sectors = j'.sectors) : j.bytes = j'.bytes := by
  cases hr : restoredBytes? (some j') with
  | none =>
    rw [hfresh (restoredBytes?_eq_none_iff.mp (h.restored.trans hr) j rfl),
      hfresh' (restoredBytes?_eq_none_iff.mp hr j' rfl), hsize]
  | some bytes =>
    obtain ⟨k, hk, -, hbytes⟩ := restoredBytes?_eq_some_iff.mp (h.restored.trans hr)
    obtain ⟨k', hk', -, hbytes'⟩ := restoredBytes?_eq_some_iff.mp hr
    obtain rfl := Option.some.inj hk
    obtain rfl := Option.some.inj hk'
    exact hbytes.trans hbytes'.symm

/-- Of two copies that begin alike and whose reads fail alike each perform has the same task, comes
to the same step but for the report of the access, and leaves the same zones, the same progress and
the same totals, whatever the writes come to and whether or not there is a journal, as long as each
journal is in another file than the image. Two journals have the same bytes. -/
theorem reads_direct_copies
    (halike : BeginAlike source source' journal journal' options options')
    (hopen : ofParts memory source target journal options = .ok s)
    (hopen' : ofParts memory' source' target' journal' options' = .ok s')
    (hfresh : ∀ j, journal = some j → j.restored = false → j.bytes = Bytes.zeros j.sectors)
    (hfresh' : ∀ j, journal' = some j → j.restored = false → j.bytes = Bytes.zeros j.sectors)
    (hsep : ∀ j, journal = some j → sharesFile target j = false)
    (hsep' : ∀ j, journal' = some j → sharesFile target' j = false)
    {n : Nat} (hreads : ∀ k < n, ReadsAlike (s.after k) (s'.after k)) :
    (∀ m < n, (s.after m).perform.1.outline = (s'.after m).perform.1.outline) ∧
    (∀ m ≤ n, (s.after m).nextRead? = (s'.after m).nextRead? ∧
      (s.after m).copy.strategy = (s'.after m).copy.strategy ∧
      (s.after m).copy.table = (s'.after m).copy.table ∧
      (s.after m).copy.progress = (s'.after m).copy.progress ∧
      (s.after m).copy.tally.readOk = (s'.after m).copy.tally.readOk ∧
      (s.after m).copy.tally.failed = (s'.after m).copy.tally.failed) ∧
    ∀ j j', journal = some j → journal' = some j' →
      ∃ k k', (s.after n).journal = some k ∧ (s'.after n).journal = some k' ∧
        k.bytes = k'.bytes := by
  have hbegun := halike.parallel hopen hopen'
  have hparallel {m : Nat} (hm : m ≤ n) : (s.after m).copy.Parallel (s'.after m).copy :=
    after_parallel hbegun fun k hk => hreads k (Nat.lt_of_lt_of_le hk hm)
  refine ⟨fun m hm => ?_, fun m hm => ?_, ?_⟩
  · exact (perform_parallel (hparallel (Nat.le_of_lt hm)) (hreads m hm)).1
  · have h := hparallel hm
    exact ⟨nextRead?_of_parallel h, h.strategy, h.table, h.progress, h.readOk, h.failed⟩
  · rintro j j' rfl rfl
    have hj := agrees_ofParts hopen (hfresh j rfl) (hsep j rfl)
    have hj' := agrees_ofParts hopen' (hfresh' j' rfl) (hsep' j' rfl)
    have hbytes : j.bytes = j'.bytes := by
      apply halike.bytes_eq (hfresh j rfl) (hfresh' j' rfl)
      rw [(ofParts_copy hopen).2.1 j rfl, (ofParts_copy hopen').2.1 j' rfl, halike.capacity]
    obtain ⟨k, k', hk, hk', hbytes⟩ := hj.after_bytes hj' hbytes hbegun hreads
    exact ⟨k, k', hk.journal, hk'.journal, hbytes⟩

end Opened

/-- The last sector cannot be read, which one source finds out by itself and the other after a
while. One image takes all data and the other none. -/
theorem reads_direct_copies_unwritten :
    let source (status : BlockStatus) (nanos : Nat) : Source := ⟨.posix, 3, fun _ lba count =>
      if lba = 2 then ⟨status, nanos, #[]⟩ else ⟨.ok, nanos, Array.replicate count 1⟩, none, none,
      ⟨0, 0, 0, 0⟩⟩
    let target (taken : Option Nat) : Target := ⟨#[], none, fun _ _ _ => taken, 0⟩
    let j : Journal := ⟨#[0, 2, 0], none, true⟩
    ∃ s s', ofParts .ofProcess (source .uncorrectable 5) (target (some 512)) (some j) .default =
        .ok s ∧
      ofParts .ofProcess (source .timeout 7) (target none) (some j) .default = .ok s' ∧
      sharesFile (target (some 512)) j = false ∧ sharesFile (target none) j = false ∧
      (∀ k < 2, ReadsAlike (s.after k) (s'.after k)) ∧
      (s.after 2).copy.tally.writeFailures = 0 ∧ (s'.after 2).copy.tally.writeFailures = 1 ∧
      (s.after 2).copy.table = (s'.after 2).copy.table ∧
      ∃ k k', (s.after 2).journal = some k ∧ (s'.after 2).journal = some k' ∧
        k.bytes = k'.bytes := by
  intro source target j
  let s : CopySession := ⟨.ofTable .default 0 3 (j.rebuild 0 3) ⟨0, 1, 0⟩,
    (source .uncorrectable 5).prepare, target (some 512), some j⟩
  let s' : CopySession := ⟨.ofTable .default 0 3 (j.rebuild 0 3) ⟨0, 1, 0⟩,
    (source .timeout 7).prepare, target none, some j⟩
  have hopen : ofParts .ofProcess (source .uncorrectable 5) (target (some 512)) (some j) .default =
      .ok s := rfl
  have hopen' : ofParts .ofProcess (source .timeout 7) (target none) (some j) .default = .ok s' :=
    rfl
  have hfirst : s.nextFails? = some false ∧ s'.nextFails? = some false := by decide +kernel
  have hsecond : (s.after 1).nextFails? = some true ∧ (s'.after 1).nextFails? = some true := by
    decide +kernel
  have hreads : ∀ k < 2, ReadsAlike (s.after k) (s'.after k) := by
    intro k hk a ha b hb
    obtain rfl | rfl : k = 0 ∨ k = 1 := by omega
    · exact Option.some.inj ((ha.symm.trans hfirst.1).trans (hfirst.2.symm.trans hb))
    · exact Option.some.inj ((ha.symm.trans hsecond.1).trans (hsecond.2.symm.trans hb))
  have hfresh : ∀ k, some j = some k → k.restored = false → k.bytes = Bytes.zeros k.sectors := by
    rintro k hk hr
    obtain rfl := Option.some.inj hk
    exact absurd hr (by decide)
  have hsep (taken : Option Nat) : ∀ k, some j = some k → sharesFile (target taken) k = false :=
    fun _ _ => rfl
  have halike : BeginAlike (source .uncorrectable 5) (source .timeout 7) (some j) (some j) .default
      .default := ⟨rfl, rfl, rfl, rfl, rfl⟩
  obtain ⟨-, hstates, hjournals⟩ := reads_direct_copies halike hopen hopen' hfresh hfresh
    (hsep _) (hsep _) hreads
  exact ⟨s, s', hopen, hopen', rfl, rfl, hreads, by decide +kernel, by decide +kernel,
    (hstates 2 (Nat.le_refl 2)).2.2.1, hjournals j j rfl rfl⟩

/-- Of two journals the one in the image's own file takes in the data. -/
theorem journals_differ_in_shared_file :
    let target : Target := ⟨#[], none, fun _ _ _ => none, 0⟩
    let j : Journal := ⟨#[0, 2, 0], none, true⟩
    ∃ s s', ofParts .ofProcess (onesSource 3) (sharedTarget #[0, 2, 0])
        (some (sharedJournal #[0, 2, 0] true)) .default = .ok s ∧
      ofParts .ofProcess (onesSource 3) target (some j) .default = .ok s' ∧
      (∀ k, ReadsAlike (s.after k) (s'.after k)) ∧
      ∃ k k', (s.after 1).journal = some k ∧ (s'.after 1).journal = some k' ∧
        k.bytes ≠ k'.bytes := by
  intro target j
  obtain ⟨s, hopen, -, k, hk, hbytes⟩ := sharedJournal_perform
  let s' : CopySession := ⟨.ofTable .default 0 3 (j.rebuild 0 3) ⟨0, 1, 0⟩,
    (onesSource 3).prepare, target, some j⟩
  have hopen' : ofParts .ofProcess (onesSource 3) target (some j) .default = .ok s' := rfl
  have hfails : s.source.FailsAt fun _ _ => false := by
    rw [(ofParts_parts hopen).2.2]
    exact fun _ _ _ => rfl
  have hfails' : s'.source.FailsAt fun _ _ => false := fun _ _ _ => rfl
  have hreads (k : Nat) : ReadsAlike (s.after k) (s'.after k) := by
    intro failed hf failed' hf'
    obtain ⟨-, -, rfl⟩ := nextFails?_of_failsAt (after_failsAt hfails k) hf
    obtain ⟨-, -, rfl⟩ := nextFails?_of_failsAt (after_failsAt hfails' k) hf'
    rfl
  have hrecorded : (s'.after 1).journal.map (·.bytes) = some #[1, 2, 0] := by decide +kernel
  obtain ⟨k', hk', hbytes'⟩ := Option.map_eq_some_iff.mp hrecorded
  refine ⟨s, s', hopen, hopen', hreads, k, k', hk, hk', fun hsame => ?_⟩
  have hlast := hbytes 2 (by decide)
  rw [hsame, hbytes'] at hlast
  exact absurd hlast (by decide)

end CopySession

end DriveRescue
