import DriveRescue.Proofs.Copy.Bookkeeping
import DriveRescue.Proofs.Copy.Lifetime
import DriveRescue.Proofs.Journal.InWords
import DriveRescue.Proofs.Strategy.InWords
import DriveRescue.TransferBuffer

/-! Copies computed in words. A source whose bytes can be addressed is copied without a number that
is no word, a difference below zero, a byte beyond the transfer buffer or a sector beyond the
source, whatever the journal was and whatever comes of the reads and the writes. -/
namespace DriveRescue

namespace InWords

/-- Gives up unless `p` holds. -/
def require (p : Prop) [Decidable p] (panic : Panic) : Except Panic Unit :=
  if p then .ok () else .error panic

theorem require_eq {p : Prop} [Decidable p] (h : p) (panic : Panic) :
    require p panic = .ok () := if_pos h

def bufferBytes : Except Panic Nat := do
  let _sum ← sub (← add blockBytes pageBytes) 1
  let _mask ← sub pageBytes 1
  return TransferBuffer.roundedSize blockBytes pageBytes

def ofTable (options : CopyOptions) (start stop : Nat) (table : ZoneTable) (tally : Tally) :
    Except Panic Copy := do
  let total ← sub stop start
  let done ← sub total (← unread table)
  return { Copy.ofTable options start stop table tally with progress := ⟨done, total⟩ }

def begin? (options : CopyOptions) (stop : Nat) (journal : Option Journal) :
    Except Panic (Except Error Copy) :=
  let start := options.startLba
  if stop ≤ start then return .error (.invalidOption "start_lba" (.startBeyond start stop))
  else match journal with
    | none => do return .ok (← ofTable options start stop (.ofRange start stop) ⟨0, 0, 0⟩)
    | some journal =>
      if journal.sectors ≠ stop then return .error (.journalSize stop journal.sectors)
      else if journal.restored then do
        let counts ← counts journal start stop
        let table ← rebuild journal start stop
        return .ok (← ofTable options start stop table ⟨counts.readOk, counts.failed, 0⟩)
      else do return .ok (← ofTable options start stop (.ofRange start stop) ⟨0, 0, 0⟩)

def ofParts (memory : Memory) (source : Source) (target : Target) (journal : Option Journal)
    (options : CopyOptions) : Except Panic (Except Error CopySession) := do
  match ← begin? options source.capacity journal with
  | .error e => return .error e
  | .ok copy => do
    let _bytes ← bufferBytes
    match (TransferBuffer.allocateFrom memory blockBytes pageBytes).1 with
    | .error e => return .error e
    | .ok _buffer => return .ok ⟨copy, source.prepare, target, journal⟩

/-- Zones that are left unread are logged with their sectors. -/
def nextOf (c : Copy) : Except Panic (Option Task × Copy) := do
  match ← next c.strategy c.table with
  | (.read task, strategy, table) => return (some task, { c with strategy, table })
  | (.done, strategy, table) => return (none, { c with strategy, table })
  | (.unresolved, strategy, table) => do
    let _left ← unread table
    return (none, { c with strategy, table })

def advance (p : Progress) (sectors : Nat) : Except Panic Progress := do
  return { p with done := min (← add p.done sectors) p.total }

def addTo (t : Tally) (sectors : Nat) (failed writeFailed : Bool) : Except Panic Tally := do
  let t ←
    if failed then do pure { t with failed := ← add t.failed sectors }
    else do pure { t with readOk := ← add t.readOk sectors }
  if writeFailed then do return { t with writeFailures := ← add t.writeFailures 1 } else return t

def settleOf (c : Copy) (task : Task) (outcome : Outcome) (writeFailed : Bool) :
    Except Panic (Step × Copy) := do
  let failed := outcome.status.isFailure
  let (verdict, table) ← settle c.strategy c.table task failed
  let progress ← advance c.progress task.sectors
  let tally ← addTo c.tally task.sectors failed writeFailed
  let status := if writeFailed then .error else outcome.status
  let report := ⟨task.lba, task.sectors, status, outcome.nanos, writeFailed⟩
  return (match verdict with
    | .proceed => .proceed report
    | .abort => .abort report,
    { c with table, progress, tally })

/-- Before a block is read its bytes are looked for in the buffer and its sectors in the source. -/
def perform : CopySession → Except Panic (Step × CopySession)
  | ⟨copy, source, target, journal⟩ =>
    if copy.closed then return (.complete, ⟨copy, source, target, journal⟩)
    else do
      match ← nextOf copy with
      | (none, copy) => return (.complete, ⟨copy, source, target, journal⟩)
      | (some task, copy) => do
        let count ← mul task.sectors sectorBytes
        let bytes ← bufferBytes
        require (count ≤ bytes) .beyondBuffer
        let beyond ← add task.lba task.sectors
        require (beyond ≤ source.capacity) .beyondSource
        let offset ← mul task.lba sectorBytes
        let (reply, source) := source.read task.lba count
        let failed := reply.status.isFailure
        let (written, target) :=
          if failed then (true, target) else target.writeAll offset reply.data
        let data := if failed || !written then #[] else reply.data
        let journal := journal.map (CopySession.note target task failed data)
        let (step, copy) ← settleOf copy task ⟨reply.status, reply.nanos⟩ (!written)
        return (step, ⟨copy, source, target, journal⟩)

end InWords

structure Copy.Bounded (c : Copy) (stop : Nat) : Prop where
  table : c.table.Below stop
  settled : c.tally.readOk + c.tally.failed + c.table.unread ≤ stop
  writeFailures : c.tally.writeFailures ≤ c.tally.readOk + c.tally.failed
  done : c.progress.done ≤ c.progress.total
  total : c.progress.total ≤ stop
  leaps : c.strategy.LeapsInWords

namespace InWords

variable {c : Copy} {stop : Nat} {task : Task}

theorem bufferBytes_eq : bufferBytes = .ok blockBytes := by
  have hsum : blockBytes + pageBytes < Text.wordBound := by decide
  have hpositive : 1 ≤ blockBytes + pageBytes := by decide
  have hmask : 1 ≤ pageBytes := by decide
  have hrounded : TransferBuffer.roundedSize blockBytes pageBytes = blockBytes := by decide
  rw [bufferBytes, add_eq hsum, ok_bind, sub_eq hpositive, ok_bind, sub_eq hmask, ok_bind, hrounded]
  rfl

theorem ofTable_eq (options : CopyOptions) {start : Nat} {table : ZoneTable} (tally : Tally)
    (hstop : Addressable stop) (hstart : start ≤ stop) (h : table.Below stop)
    (hle : table.unread ≤ stop - start) :
    ofTable options start stop table tally = .ok (.ofTable options start stop table tally) := by
  rw [ofTable, sub_eq hstart, ok_bind, unread_eq hstop h, ok_bind, sub_eq hle, ok_bind]
  rfl

theorem nextOf_eq (hstop : Addressable stop) (h : c.Bounded stop) : nextOf c = .ok c.next := by
  have hafter := h.table.next c.strategy
  rw [nextOf, next_eq hstop h.table h.leaps, ok_bind, Copy.next]
  rcases hn : c.strategy.next c.table with ⟨found, strategy, table⟩
  rw [hn] at hafter
  cases found with
  | read task => rfl
  | done => rfl
  | unresolved =>
    dsimp only
    rw [unread_eq hstop hafter, ok_bind]
    rfl

theorem advance_eq {p : Progress} {sectors : Nat} (hsum : p.done + sectors < Text.wordBound) :
    advance p sectors = .ok (p.advance sectors) := by
  rw [advance, add_eq hsum, ok_bind]
  rfl

theorem addTo_eq {t : Tally} {sectors : Nat} (hsum : t.readOk + t.failed + sectors < Text.wordBound)
    (hwrites : t.writeFailures + 1 < Text.wordBound) (failed writeFailed : Bool) :
    addTo t sectors failed writeFailed = .ok (t.add sectors failed writeFailed) := by
  have hreadOk : t.readOk + sectors < Text.wordBound := by omega
  have hfailed : t.failed + sectors < Text.wordBound := by omega
  unfold addTo
  cases failed <;> cases writeFailed <;>
    simp [add_eq hreadOk, add_eq hfailed, add_eq hwrites, Tally.add]

theorem settleOf_eq (hstop : Addressable stop) (h : c.table.Below stop)
    (hprogress : c.progress.done + task.sectors < Text.wordBound)
    (htally : c.tally.readOk + c.tally.failed + task.sectors < Text.wordBound)
    (hwrites : c.tally.writeFailures + 1 < Text.wordBound) (outcome : Outcome)
    (writeFailed : Bool) :
    settleOf c task outcome writeFailed = .ok (c.settle task outcome writeFailed) := by
  rw [settleOf, settle_eq hstop h, ok_bind, Copy.settle]
  rcases c.strategy.settle c.table task outcome.status.isFailure with ⟨verdict, table⟩
  dsimp only
  rw [advance_eq hprogress, ok_bind, addTo_eq htally hwrites, ok_bind]
  rfl

end InWords

theorem Strategy.leapsInWords_restart (s : Strategy) :
    s.restart.LeapsInWords ↔ s.LeapsInWords := by
  cases s <;> exact Iff.rfl

namespace Copy

variable {c : Copy} {stop : Nat} {task : Task} {strategy : Strategy} {table : ZoneTable}

/-- The sectors of a task go from the unread ones to the others, so that there is room for them in
every count. -/
theorem Bounded.settled_add (h : c.Bounded stop)
    (hn : c.strategy.next c.table = (.read task, strategy, table)) (failed : Bool) :
    c.tally.readOk + c.tally.failed + task.sectors +
      (strategy.settle table task failed).2.unread ≤ stop := by
  have hunread := Strategy.unread_turn hn h.table.consistent failed
  have hsettled := h.settled
  omega

/-- The step lemma of the bounds. -/
theorem Bounded.settle (h : c.Bounded stop)
    (hn : c.strategy.next c.table = (.read task, strategy, table)) (outcome : Outcome)
    (writeFailed : Bool) :
    ({ c with strategy, table }.settle task outcome writeFailed).2.Bounded stop := by
  obtain ⟨hpos, -, -⟩ := h.table.task_le hn
  have hrestart := c.strategy.restart_next c.table
  rw [hn] at hrestart
  have hsum := h.settled_add hn outcome.status.isFailure
  have hadd := c.tally.settled_add task.sectors outcome.status.isFailure writeFailed
  unfold Copy.settle
  constructor
  · exact h.table.turn hn _
  · dsimp only
    omega
  · have hwrites := h.writeFailures
    dsimp only
    rw [hadd]
    unfold Tally.add
    dsimp only
    split <;> omega
  · exact Nat.min_le_right ..
  · exact h.total
  · rw [← Strategy.leapsInWords_restart] at *
    dsimp only at hrestart ⊢
    rw [hrestart, Strategy.leapsInWords_restart]
    exact h.leaps

end Copy

namespace CopySession

structure Bounded (s : CopySession) (stop : Nat) : Prop where
  capacity : s.source.capacity = stop
  copy : s.copy.Bounded stop

variable {s s₀ : CopySession} {stop : Nat} {task : Task}

theorem inWords_perform (hstop : Addressable stop) (h : s.Bounded stop) :
    InWords.perform s = .ok s.perform := by
  obtain ⟨copy, source, target, journal⟩ := s
  obtain ⟨hcapacity, hcopy⟩ := h
  dsimp only at hcapacity hcopy
  rw [InWords.perform, perform]
  split
  · rfl
  · rw [InWords.nextOf_eq hstop hcopy, InWords.ok_bind]
    rcases hnext : copy.next with ⟨_ | task, after⟩
    · rfl
    · obtain ⟨strategy, table, hn, rfl⟩ := Copy.next_some hnext
      obtain ⟨hpos, hblock, hwithin⟩ := hcopy.table.task_le hn
      have htable := hcopy.table.next copy.strategy
      rw [hn] at htable
      have hsum := hcopy.settled_add hn false
      have hdone := Nat.le_trans hcopy.done hcopy.total
      have hwrites := hcopy.writeFailures
      have hcount : task.sectors * sectorBytes < Text.wordBound := hstop.mul_lt (by omega)
      have hoffset : task.lba * sectorBytes < Text.wordBound := hstop.mul_lt (by omega)
      have hbeyond : task.lba + task.sectors < Text.wordBound := hstop.lt_word (by omega)
      have hprogress : copy.progress.done + task.sectors < Text.wordBound :=
        hstop.lt_word (by omega)
      have htally : copy.tally.readOk + copy.tally.failed + task.sectors < Text.wordBound :=
        hstop.lt_word (by omega)
      have hfailures : copy.tally.writeFailures + 1 < Text.wordBound := hstop.lt_word (by omega)
      have hslice : task.sectors * sectorBytes ≤ blockBytes :=
        Nat.mul_le_mul_right sectorBytes hblock
      have hsource : task.lba + task.sectors ≤ source.capacity := hcapacity ▸ hwithin
      dsimp only
      rw [InWords.mul_eq hcount, InWords.ok_bind, InWords.bufferBytes_eq, InWords.ok_bind,
        InWords.require_eq hslice, InWords.ok_bind, InWords.add_eq hbeyond, InWords.ok_bind,
        InWords.require_eq hsource, InWords.ok_bind, InWords.mul_eq hoffset, InWords.ok_bind,
        InWords.settleOf_eq (c := { copy with strategy, table }) hstop htable hprogress htally
          hfailures, InWords.ok_bind]
      rfl

/-- Bounds are kept by a perform, with whatever outcome. -/
theorem Bounded.perform (h : s.Bounded stop) : s.perform.2.Bounded stop := by
  refine ⟨(perform_capacity s).trans h.capacity, ?_⟩
  rcases hn : s.nextRead? with _ | task
  · rw [perform_of_none hn]
    exact h.copy
  · obtain ⟨strategy, table, writeFailed, hturn, hsettle⟩ := perform_settle hn
    have hcopy : s.perform.2.copy = _ := congrArg Prod.snd hsettle
    rw [hcopy]
    exact h.copy.settle hturn _ writeFailed

theorem Bounded.close (h : s.Bounded stop) : s.close.2.Bounded stop := by
  unfold CopySession.close
  split
  · exact h
  · exact ⟨h.capacity, h.copy.table, h.copy.settled, h.copy.writeFailures, h.copy.done,
      h.copy.total, h.copy.leaps⟩

/-- What calls for blocks and to close, in any order, make of a session. -/
inductive Leads (s₀ : CopySession) : CopySession → Prop
  | start : Leads s₀ s₀
  | perform {s : CopySession} : Leads s₀ s → Leads s₀ s.perform.2
  | close {s : CopySession} : Leads s₀ s → Leads s₀ s.close.2

theorem Leads.bounded (h : Leads s₀ s) (h₀ : s₀.Bounded stop) : s.Bounded stop := by
  induction h with
  | start => exact h₀
  | perform _ ih => exact ih.perform
  | close _ ih => exact ih.close

/-- The range of a copy bounds the zones that it begins with, and what is known of the others. -/
theorem bounded_ofTable {options : CopyOptions} {start : Nat} {table : ZoneTable} {tally : Tally}
    (htable : table.Below stop) (htally : tally.readOk + tally.failed + table.unread ≤ stop - start)
    (hwrites : tally.writeFailures = 0)
    (hleaps : (Strategy.ofKind options.strategy options.skipBlocks).LeapsInWords) :
    (Copy.ofTable options start stop table tally).Bounded stop := by
  unfold Copy.ofTable
  constructor
  · exact htable
  · dsimp only
    omega
  · dsimp only
    omega
  · exact Nat.sub_le ..
  · exact Nat.sub_le ..
  · exact hleaps

theorem below_ofRange (start stop : Nat) : (ZoneTable.ofRange start stop).Below stop where
  consistent := ZoneTable.consistent_ofRange start stop
  stop_le z hz := by
    obtain ⟨rfl, -⟩ := ZoneTable.mem_ofRange_zones.mp hz
    exact Nat.le_refl _
  unread_le := by
    rw [ZoneTable.unread_ofRange]
    exact Nat.sub_le ..

/-- The zones and the counts of a restored journal, whatever its bytes are, make up no more than the
range. -/
theorem counts_add_rebuild_le (j : Journal) (start : Nat) :
    (j.counts start j.sectors).readOk + (j.counts start j.sectors).failed +
      (j.rebuild start j.sectors).unread ≤ j.sectors - start := by
  have hunread := j.counts_unread_rebuild start j.sectors
  have hsum := j.counts_sum start (Nat.le_refl _)
  omega

theorem below_rebuild (j : Journal) (start : Nat) :
    (j.rebuild start j.sectors).Below j.sectors where
  consistent := j.consistent_rebuild start j.sectors
  stop_le z hz := by
    have hpos := (j.consistent_rebuild start j.sectors).spaced.1 z hz
    have hlast : Zone.Covered (j.rebuild start j.sectors).zones (z.stop - 1) :=
      ⟨z, hz, by omega, by omega⟩
    have := ((j.covered_rebuild start j.sectors _).mp hlast).2.1
    omega
  unread_le := by
    have := counts_add_rebuild_le j start
    omega

section
variable {memory : Memory} {source : Source} {target : Target} {journal : Option Journal}
  {options : CopyOptions}

theorem leapsInWords_ofKind {kind : StrategyKind} {skipBlocks : Nat}
    (h : kind = .skipFail ∨ kind = .skipFailForward → skipBlocks * blockSectors < Text.wordBound) :
    (Strategy.ofKind kind skipBlocks).LeapsInWords := by
  have hleap (hkind : kind = .skipFail ∨ kind = .skipFailForward) :
      max skipBlocks 1 * blockSectors < Text.wordBound := by
    have hone : 1 * blockSectors < Text.wordBound := by decide
    rcases Nat.le_total skipBlocks 1 with hle | hle
    · rwa [Nat.max_eq_right hle]
    · rw [Nat.max_eq_left hle]
      exact h hkind
  cases kind with
  | plain => trivial
  | smart => trivial
  | smartForward => trivial
  | skipFail => exact hleap (.inl rfl)
  | skipFailForward => exact hleap (.inr rfl)

theorem bounded_ofParts (h : ofParts memory source target journal options = .ok s)
    (hleaps : (Strategy.ofKind options.strategy options.skipBlocks).LeapsInWords) :
    s.Bounded source.capacity := by
  obtain ⟨-, -, hsource⟩ := ofParts_parts h
  obtain ⟨-, hsize, table, tally, hcopy, hfresh, hrestored⟩ := ofParts_copy h
  refine ⟨by rw [hsource]; rfl, ?_⟩
  rw [hcopy]
  by_cases hr : ∃ j, journal = some j ∧ j.restored = true
  · obtain ⟨j, rfl, hr⟩ := hr
    obtain ⟨rfl, rfl⟩ := hrestored j rfl hr
    rw [← hsize j rfl]
    exact bounded_ofTable (below_rebuild j _) (counts_add_rebuild_le j _) rfl hleaps
  · obtain ⟨rfl, rfl⟩ := hfresh fun j hj => by
      cases hrj : j.restored with
      | false => rfl
      | true => exact absurd ⟨j, hj, hrj⟩ hr
    apply bounded_ofTable (below_ofRange _ _) _ rfl hleaps
    rw [ZoneTable.unread_ofRange]
    exact Nat.le_of_eq (Nat.zero_add _)

theorem inWords_begin? {stop : Nat} (hstop : Addressable stop) (journal : Option Journal)
    (options : CopyOptions) :
    InWords.begin? options stop journal = .ok (Copy.begin? options stop journal) := by
  have hrange (hstart : options.startLba ≤ stop) :=
    InWords.ofTable_eq options ⟨0, 0, 0⟩ hstop hstart (below_ofRange options.startLba stop)
      (Nat.le_of_eq (ZoneTable.unread_ofRange _ _))
  unfold InWords.begin? Copy.begin?
  dsimp only
  by_cases hbeyond : stop ≤ options.startLba
  · rw [if_pos hbeyond, if_pos hbeyond]
    rfl
  · have hstart : options.startLba ≤ stop := by omega
    rw [if_neg hbeyond, if_neg hbeyond]
    cases journal with
    | none =>
      dsimp only
      rw [hrange hstart]
      rfl
    | some j =>
      dsimp only
      by_cases hsize : j.sectors = stop
      · subst hsize
        have hsectors : j.sectors < Text.wordBound := hstop.lt_word (Nat.le_add_right ..)
        rw [if_neg (not_not_intro rfl), if_neg (not_not_intro rfl)]
        split
        · have hle := counts_add_rebuild_le j options.startLba
          rw [InWords.counts_eq hsectors, InWords.ok_bind, InWords.rebuild_eq hsectors,
            InWords.ok_bind, InWords.ofTable_eq _ _ hstop hstart (below_rebuild j _) (by omega)]
          rfl
        · rw [hrange hstart]
          rfl
      · rw [if_pos hsize, if_pos hsize]
        rfl

theorem inWords_ofParts (hstop : Addressable source.capacity) (memory : Memory) (target : Target)
    (journal : Option Journal) (options : CopyOptions) :
    InWords.ofParts memory source target journal options =
      .ok (ofParts memory source target journal options) := by
  rw [InWords.ofParts, inWords_begin? hstop, InWords.ok_bind, ofParts_eq]
  cases Copy.begin? options source.capacity journal with
  | error e => rfl
  | ok copy =>
    dsimp only
    rw [InWords.bufferBytes_eq, InWords.ok_bind, TransferBuffer.allocateFrom_block, Except.bind]
    cases memory.givesBlock <;> rfl

end

/-- A copy of a source of up to 2^55 - 1 sectors computes in words, if the leaps of its strategy are
words. Opening it over no journal, a new one or one of any bytes, with any memory, gives what it
gives without a bound on the numbers; so does every call for a block after calls in any order, with
any replies and any writes. The numbers that it keeps stay within the source, and what it reads fits
into the transfer buffer and lies inside the source. -/
theorem copy_stays_in_words (memory : Memory) (source : Source) (target : Target)
    (journal : Option Journal) (options : CopyOptions) (hcapacity : source.capacity ≤ 2 ^ 55 - 1)
    (hskip : options.strategy = .skipFail ∨ options.strategy = .skipFailForward →
      options.skipBlocks * 256 < 2 ^ 64) :
    InWords.ofParts memory source target journal options =
        .ok (ofParts memory source target journal options) ∧
      (memory.givesBlock = true → ∃ buffer,
        (TransferBuffer.allocateFrom memory blockBytes pageBytes).1 = .ok buffer ∧
          buffer.bytes.size = 131072) ∧
      ∀ s₀, ofParts memory source target journal options = .ok s₀ → ∀ s, Leads s₀ s →
        InWords.perform s = .ok s.perform ∧ s.Bounded source.capacity ∧
        ∀ task, s.nextRead? = some task →
          task.sectors * sectorBytes ≤ 131072 ∧ task.lba + task.sectors ≤ source.capacity := by
  have hstop : Addressable source.capacity := by
    have hword : Text.wordBound = 18446744073709551616 := rfl
    rw [Addressable, sectorBytes, hword]
    omega
  have hleaps := leapsInWords_ofKind hskip
  refine ⟨inWords_ofParts hstop memory target journal options, fun hmemory => ?_, ?_⟩
  · rw [TransferBuffer.allocateFrom_block, if_pos hmemory]
    exact ⟨_, rfl, Array.size_replicate⟩
  · intro s₀ hopen s hs
    have hbounded := hs.bounded (bounded_ofParts hopen hleaps)
    refine ⟨inWords_perform hstop hbounded, hbounded, fun task hn => ?_⟩
    obtain ⟨-, copy, hnext⟩ := exists_next_of_nextRead? hn
    obtain ⟨strategy, table, hturn, -⟩ := Copy.next_some hnext
    obtain ⟨-, hblock, hwithin⟩ := hbounded.copy.table.task_le hturn
    exact ⟨Nat.mul_le_mul_right sectorBytes hblock, hwithin⟩

/-- A journal with a byte that stands for no status, and a read that fails. -/
theorem copy_stays_in_words_restored :
    let source : Source := ⟨.posix, 4, fun _ _ _ => ⟨.uncorrectable, 0, #[]⟩, none, none,
      ⟨0, 0, 0, 0⟩⟩
    let target : Target := ⟨#[], none, fun _ _ count => some count, 0⟩
    let j : Journal := ⟨#[0, 2, 9, 0], none, true⟩
    let options := { CopyOptions.default with strategy := .skipFail, skipBlocks := 1 }
    source.capacity ≤ 2 ^ 55 - 1 ∧
      (options.strategy = .skipFail ∨ options.strategy = .skipFailForward →
        options.skipBlocks * 256 < 2 ^ 64) ∧
      ∃ s, ofParts .ofProcess source target (some j) options = .ok s ∧
        (s.after 1).nextRead? = some ⟨3, 1, .forward⟩ ∧
        InWords.perform (s.after 1) = .ok (s.after 1).perform := by
  intro source target j options
  have hcapacity : source.capacity ≤ 2 ^ 55 - 1 := by decide
  have hskip : options.strategy = .skipFail ∨ options.strategy = .skipFailForward →
      options.skipBlocks * 256 < 2 ^ 64 := fun _ => by decide
  obtain ⟨-, -, hperforms⟩ := copy_stays_in_words .ofProcess source target (some j) options
    hcapacity hskip
  refine ⟨hcapacity, hskip, _, rfl, by decide +kernel, ?_⟩
  exact (hperforms _ rfl _ (.perform .start)).1

end CopySession

end DriveRescue
