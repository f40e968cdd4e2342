import DriveRescue.Copy.Session
import DriveRescue.Proofs.Access.Writing
import DriveRescue.Proofs.Strategy.Choice

/-! The effects a session has on what stands outside it, one after the other: the read of a task,
the write of its data, and the entry in the journal with what the copy learns from it. -/
namespace DriveRescue

/-- The bytes that a task reads and writes are those of its sectors. -/
theorem Task.spans_iff_bytes {task : Task} {x i : Nat} (hi : i < sectorBytes) :
    (task.lba * sectorBytes ≤ x * sectorBytes + i ∧
      x * sectorBytes + i < task.lba * sectorBytes + task.sectors * sectorBytes) ↔
      task.Spans x := by
  simp only [Spans, sectorBytes] at hi ⊢
  omega

namespace Copy

variable {c c' : Copy} {task : Task}

/-- A copy that has nothing to read stays as it is. -/
theorem next_none (h : c.next = (none, c')) : c' = c := by
  rcases hn : c.strategy.next c.table with ⟨found, strategy, table⟩
  rcases c.strategy.next_cases c.table with ⟨hsame, -⟩ | ⟨l, z, r, d, htask, -, -⟩
  · obtain ⟨rfl, rfl⟩ : strategy = c.strategy ∧ table = c.table := by simpa [hn] using hsame
    cases found with
    | read => simp [next, hn] at h
    | done =>
      simp only [next, hn, Prod.mk.injEq, true_and] at h
      exact h.symm
    | unresolved =>
      simp only [next, hn, Prod.mk.injEq, true_and] at h
      exact h.symm
  · obtain rfl : found = .read (z.task d) := by simpa [hn] using htask
    simp [next, hn] at h

theorem next_some (h : c.next = (some task, c')) :
    ∃ strategy table, c.strategy.next c.table = (.read task, strategy, table) ∧
      c' = { c with strategy, table } := by
  rcases hn : c.strategy.next c.table with ⟨found, strategy, table⟩
  cases found with
  | read found =>
    simp only [next, hn, Prod.mk.injEq, Option.some.injEq] at h
    obtain ⟨rfl, rfl⟩ := h
    exact ⟨strategy, table, rfl, rfl⟩
  | done => simp [next, hn] at h
  | unresolved => simp [next, hn] at h

end Copy

namespace CopySession

/-- What the next perform reads, and all that it reads (`perform_source`). -/
def nextRead? (s : CopySession) : Option Task := if s.copy.closed then none else s.copy.next.1

def fetch (s : CopySession) (task : Task) : Reply × CopySession :=
  let (reply, source) := s.source.read task.lba (task.sectors * sectorBytes)
  (reply, { s with source })

/-- Writes what was read if it is good. -/
def store (s : CopySession) (task : Task) (reply : Reply) : Bool × CopySession :=
  if reply.status.isFailure then (true, s)
  else
    let (written, target) := s.target.writeAll (task.lba * sectorBytes) reply.data
    (written, { s with target })

/-- Notes a task in the journal and settles it. -/
def enter (s : CopySession) (task : Task) (reply : Reply) (written : Bool) : Step × CopySession :=
  let failed := reply.status.isFailure
  let data := if failed || !written then #[] else reply.data
  let (step, copy) := s.copy.settle task ⟨reply.status, reply.nanos⟩ (!written)
  (step, { s with copy, journal := s.journal.map (note s.target task failed data) })

variable {s : CopySession} {task : Task} {copy : Copy} {reply : Reply} {written : Bool}

theorem perform_of_none (h : s.nextRead? = none) : s.perform = (.complete, s) := by
  unfold nextRead? at h
  unfold perform
  split at h
  · next hclosed => simp [hclosed]
  · next hopen =>
    rcases hn : s.copy.next with ⟨found, copy⟩
    obtain rfl : found = none := by simpa [hn] using h
    simp [hopen, hn, Copy.next_none hn]

/-- A perform is its effects in their order. -/
theorem perform_of_some (hopen : s.copy.closed = false) (h : s.copy.next = (some task, copy)) :
    let fetched := { s with copy }.fetch task
    let stored := fetched.2.store task fetched.1
    s.perform = stored.2.enter task fetched.1 stored.1 := by
  simp only [perform, hopen, h, Bool.false_eq_true, ↓reduceIte, fetch, store, enter]
  split
  · next hf => simp only [hf, ↓reduceIte]
  · next hf => simp only [hf, Bool.false_eq_true, ↓reduceIte]

theorem exists_next_of_nextRead? (h : s.nextRead? = some task) :
    s.copy.closed = false ∧ ∃ copy, s.copy.next = (some task, copy) := by
  unfold nextRead? at h
  split at h
  · simp at h
  · next hopen => exact ⟨by simpa using hopen, s.copy.next.2, Prod.ext h rfl⟩

@[simp] theorem fetch_journal : (s.fetch task).2.journal = s.journal := rfl

@[simp] theorem store_copy : (s.store task reply).2.copy = s.copy := by
  unfold store
  split <;> rfl

@[simp] theorem store_journal : (s.store task reply).2.journal = s.journal := by
  unfold store
  split <;> rfl

@[simp] theorem store_source : (s.store task reply).2.source = s.source := by
  unfold store
  split <;> rfl

theorem store_file : (s.store task reply).2.target.file = s.target.file := by
  unfold store
  split
  · rfl
  · exact Target.writeAll_file ..

/-- A failed read leaves the image alone. -/
theorem store_of_isFailure (h : reply.status.isFailure = true) :
    s.store task reply = (true, s) := by simp [store, h]

theorem store_of_not_isFailure (h : reply.status.isFailure = false) :
    (s.store task reply).1 = (s.target.writeAll (task.lba * sectorBytes) reply.data).1 ∧
      (s.store task reply).2.target =
        (s.target.writeAll (task.lba * sectorBytes) reply.data).2 := by
  simp [store, h]

theorem store_of_writeAll
    (h : (s.target.writeAll (task.lba * sectorBytes) reply.data).1 = true) :
    (s.store task reply).1 = true := by
  cases hf : reply.status.isFailure with
  | true => rw [store_of_isFailure hf]
  | false => exact (store_of_not_isFailure hf).1.trans h

/-- Nothing is written beside the sectors of the task. -/
theorem getD_store {x i : Nat} (hi : i < sectorBytes) (hx : ¬ task.Spans x)
    (hdata : reply.status.isFailure = false → reply.data.size = task.sectors * sectorBytes) :
    (s.store task reply).2.target.contents.getD (x * sectorBytes + i) 0 =
      s.target.contents.getD (x * sectorBytes + i) 0 := by
  cases hf : reply.status.isFailure with
  | true => rw [store_of_isFailure hf]
  | false =>
    rw [(store_of_not_isFailure hf).2, Target.getD_writeAll]
    rwa [hdata hf, Task.spans_iff_bytes hi]

@[simp] theorem enter_target : (s.enter task reply written).2.target = s.target := rfl

@[simp] theorem enter_source : (s.enter task reply written).2.source = s.source := rfl

theorem enter_copy : (s.enter task reply written).2.copy =
    (s.copy.settle task ⟨reply.status, reply.nanos⟩ (!written)).2 := rfl

theorem enter_settle : ((s.enter task reply written).1, (s.enter task reply written).2.copy) =
    s.copy.settle task ⟨reply.status, reply.nanos⟩ (!written) := rfl

theorem perform_range (s : CopySession) :
    s.perform.2.copy.start = s.copy.start ∧ s.perform.2.copy.stop = s.copy.stop := by
  rcases hn : s.nextRead? with _ | task
  · rw [perform_of_none hn]
    exact ⟨rfl, rfl⟩
  · obtain ⟨hopen, copy, hnext⟩ := exists_next_of_nextRead? hn
    obtain ⟨strategy, table, -, rfl⟩ := Copy.next_some hnext
    rw [perform_of_some hopen hnext, enter_copy, store_copy]
    exact ⟨rfl, rfl⟩

/-- A perform calls its source for the task and for nothing else. -/
theorem perform_source (s : CopySession) :
    s.perform.2.source = s.nextRead?.elim s.source fun task =>
      (s.source.read task.lba (task.sectors * sectorBytes)).2 := by
  rcases hn : s.nextRead? with _ | task
  · rw [perform_of_none hn]
    rfl
  · obtain ⟨hopen, copy, hnext⟩ := exists_next_of_nextRead? hn
    rw [perform_of_some hopen hnext, enter_source, store_source]
    rfl

theorem perform_target_of_good (hopen : s.copy.closed = false)
    (hnext : s.copy.next = (some task, copy)) (hgood : (s.fetch task).1.status.isFailure = false) :
    s.perform.2.target =
      (s.target.writeAll (task.lba * sectorBytes) (s.fetch task).1.data).2 := by
  rw [perform_of_some hopen hnext, enter_target]
  exact (store_of_not_isFailure hgood).2

/-- A journal in a file of its own takes in nothing but the record. -/
theorem enter_journal {j : Journal} (hj : s.journal = some j)
    (hsep : sharesFile s.target j = false) :
    (s.enter task reply written).2.journal =
      some (j.record task.lba task.sectors reply.status.isFailure) := by
  simp [enter, hj, note, hsep]

theorem sharesFile_congr {t u : Target} {j k : Journal} (ht : t.file = u.file)
    (hj : j.file = k.file) : sharesFile t j = sharesFile u k := by
  simp only [sharesFile, ht, hj]

/-- Data that are written to the journal's own file go over the journal before the record does. -/
theorem enter_journal_of_shared {j : Journal} (hj : s.journal = some j)
    (hshared : sharesFile s.target j = true) (hgood : reply.status.isFailure = false) :
    (s.enter task reply true).2.journal =
      some ((j.overwrite (task.lba * sectorBytes) reply.data).record task.lba task.sectors
        false) := by
  simp [enter, hj, note, hshared, hgood]

theorem perform_journal_of_shared {j : Journal} (hopen : s.copy.closed = false)
    (hnext : s.copy.next = (some task, copy)) (hj : s.journal = some j)
    (hshared : sharesFile s.target j = true)
    (hgood : (s.fetch task).1.status.isFailure = false)
    (hwritten : (s.target.writeAll (task.lba * sectorBytes) (s.fetch task).1.data).1 = true) :
    s.perform.2.journal = some ((j.overwrite (task.lba * sectorBytes) (s.fetch task).1.data).record
      task.lba task.sectors false) := by
  have hfetch : ({ s with copy }.fetch task).1 = (s.fetch task).1 := rfl
  have hstored : (({ s with copy }.fetch task).2.store task (s.fetch task).1).1 = true :=
    (store_of_not_isFailure hgood).1.trans hwritten
  have hfile : sharesFile (({ s with copy }.fetch task).2.store task (s.fetch task).1).2.target j =
      true := (sharesFile_congr store_file rfl).trans hshared
  rw [perform_of_some hopen hnext, hfetch, hstored]
  exact enter_journal_of_shared (by simpa using hj) hfile hgood

section Opened

variable {memory : Memory} {source : Source} {target : Target} {journal : Option Journal}
  {options : CopyOptions}

/-- A session is made of its parts once the copy can begin and there is memory for its buffer. -/
theorem ofParts_eq (memory : Memory) (source : Source) (target : Target)
    (journal : Option Journal) (options : CopyOptions) :
    ofParts memory source target journal options =
      (Copy.begin? options source.capacity journal).bind fun copy =>
        if memory.givesBlock then .ok ⟨copy, source.prepare, target, journal⟩
        else .error (.buffer (.refused blockBytes)) := by
  unfold ofParts
  rw [TransferBuffer.allocateFrom_block]
  cases Copy.begin? options source.capacity journal with
  | error e => rfl
  | ok copy => cases memory.givesBlock <;> rfl

theorem ofParts_eq_ok_iff : ofParts memory source target journal options = .ok s ↔
    memory.givesBlock = true ∧ ∃ copy, Copy.begin? options source.capacity journal = .ok copy ∧
      s = ⟨copy, source.prepare, target, journal⟩ := by
  rw [ofParts_eq]
  cases Copy.begin? options source.capacity journal with
  | error e => simp [Except.bind]
  | ok copy => cases memory.givesBlock <;> simp [Except.bind, eq_comm]

theorem ofParts_parts (h : ofParts memory source target journal options = .ok s) :
    s.journal = journal ∧ s.target = target ∧ s.source = source.prepare := by
  obtain ⟨-, copy, -, rfl⟩ := ofParts_eq_ok_iff.mp h
  exact ⟨rfl, rfl, rfl⟩

/-- A session begins with its whole range, or with what a restored journal leaves of it. -/
theorem ofParts_copy (h : ofParts memory source target journal options = .ok s) :
    options.startLba < source.capacity ∧ (∀ j, journal = some j → j.sectors = source.capacity) ∧
      ∃ table tally, s.copy = .ofTable options options.startLba source.capacity table tally ∧
        ((∀ j, journal = some j → j.restored = false) →
          table = .ofRange options.startLba source.capacity ∧ tally = ⟨0, 0, 0⟩) ∧
        ∀ j, journal = some j → j.restored = true →
          table = j.rebuild options.startLba source.capacity ∧
            tally = ⟨(j.counts options.startLba source.capacity).readOk,
              (j.counts options.startLba source.capacity).failed, 0⟩ := by
  obtain ⟨-, copy, hbegin, rfl⟩ := ofParts_eq_ok_iff.mp h
  unfold Copy.begin? at hbegin
  dsimp only at hbegin
  split at hbegin
  · cases hbegin
  next hstart =>
  refine ⟨by omega, ?_⟩
  cases journal with
  | none =>
    obtain rfl := Except.ok.inj hbegin
    exact ⟨by simp, _, _, rfl, fun _ => ⟨rfl, rfl⟩, by simp⟩
  | some j =>
    dsimp only at hbegin
    split at hbegin
    · cases hbegin
    next hsize =>
    split at hbegin
    · next hr =>
      obtain rfl := Except.ok.inj hbegin
      exact ⟨by simpa using hsize, _, _, rfl, by simp [hr], by simp⟩
    · next hr =>
      obtain rfl := Except.ok.inj hbegin
      exact ⟨by simpa using hsize, _, _, rfl, fun _ => ⟨rfl, rfl⟩, by simp [hr]⟩

theorem ofParts_eq_ok {j : Journal}
    (h : ofParts memory source target (some j) options = .ok s) :
    options.startLba < source.capacity ∧ j.sectors = source.capacity ∧
      s.copy.start = options.startLba ∧ s.copy.stop = source.capacity ∧
      s.copy.table = if j.restored then j.rebuild options.startLba source.capacity
        else .ofRange options.startLba source.capacity := by
  obtain ⟨hstart, hsize, table, tally, hcopy, hfresh, hrestored⟩ := ofParts_copy h
  refine ⟨hstart, hsize j rfl, by rw [hcopy]; rfl, by rw [hcopy]; rfl, ?_⟩
  rw [hcopy]
  split
  · next hr => exact (hrestored j rfl hr).1
  · next hr => exact (hfresh (by simpa using hr)).1

end Opened

end CopySession

end DriveRescue
