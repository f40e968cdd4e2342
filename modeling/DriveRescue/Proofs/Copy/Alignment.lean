import DriveRescue.Proofs.Copy.Turning
import DriveRescue.Proofs.Strategy.Exhaustion

/-! Smart copies of a range that begins and ends at a block border. All zones of such a copy do so
too, so that every read is of one whole block, and what the journal says of a block in the end
depends on that block alone: not on when the block was read, from which side or by which session. -/
namespace DriveRescue

theorem alignDown_eq_iff {lba x : Nat} (h : lba % blockSectors = 0) :
    alignDown x = lba ↔ lba ≤ x ∧ x < lba + blockSectors := by
  simp only [alignDown, blockSectors] at h ⊢
  omega

namespace Zone

structure Aligned (z : Zone) : Prop where
  start : z.start % blockSectors = 0
  stop : z.stop % blockSectors = 0

theorem Aligned.task {z : Zone} (h : z.Aligned) (hz : z.start < z.stop) (d : Direction) :
    (z.task d).sectors = blockSectors ∧ (z.task d).lba % blockSectors = 0 := by
  obtain ⟨hstart, hstop⟩ := h
  cases d <;> simp only [Zone.task, len, blockSectors] at hstart hstop ⊢ <;> omega

theorem Aligned.halves {z : Zone} (h : z.Aligned) (hlong : indivisibleSectors < z.len) :
    (z.leading z.middle).Aligned ∧ (z.trailing z.middle).Aligned := by
  obtain ⟨hmiddle, -, -⟩ := middle_between hlong
  exact ⟨⟨h.start, hmiddle⟩, ⟨hmiddle, h.stop⟩⟩

end Zone

structure Task.IsBlock (start capacity : Nat) (k : Task) : Prop where
  sectors : k.sectors = blockSectors
  aligned : k.lba % blockSectors = 0
  within : start ≤ k.lba ∧ k.lba + blockSectors ≤ capacity

def SectorStatus.ofBlock (bad : Nat → Nat → Bool) (x : Nat) : SectorStatus :=
  if bad (alignDown x) blockSectors then blockReadError else readOk

theorem SectorStatus.ofBlock_eq (bad : Nat → Nat → Bool) {lba x : Nat}
    (h : alignDown x = lba) : ofBlock bad x = ofRead (bad lba blockSectors) blockSectors := by
  subst h
  unfold ofBlock ofRead
  cases bad (alignDown x) blockSectors <;> rfl

namespace Journal

structure BlockWise (bad : Nat → Nat → Bool) (start : Nat) (j : Journal) : Prop where
  bytes : ∀ x < j.sectors, j.bytes[x]? = some 0 ∨
    (start ≤ x ∧ j.bytes[x]? = some (SectorStatus.ofBlock bad x).byte)
  blocks : ∀ x, start ≤ x → x < j.sectors →
    (j.bytes[x]? = some 0 ↔ j.bytes[alignDown x]? = some 0)

variable {bad : Nat → Nat → Bool} {start : Nat} {j : Journal} {t : ZoneTable} {z : Zone}

theorem blockWise_of_zeros {n : Nat} (h : j.bytes = Bytes.zeros n) (start : Nat) :
    j.BlockWise bad start := by
  have hsize : j.sectors = n := by simp [sectors, h, Bytes.zeros]
  have hzero (x : Nat) (hx : x < j.sectors) : j.bytes[x]? = some 0 := by
    rw [h, Bytes.zeros, Array.getElem?_replicate, if_pos (hsize ▸ hx)]
  refine ⟨fun x hx => .inl (hzero x hx), fun x _ hx => ?_⟩
  have hle := alignDown_le x
  simp [hzero x hx, hzero (alignDown x) (by omega)]

theorem BlockWise.record (h : j.BlockWise bad start) {lba : Nat} (hlba : lba % blockSectors = 0)
    (hstart : start ≤ lba) :
    (j.record lba blockSectors (bad lba blockSectors)).BlockWise bad start := by
  constructor
  · intro x hx
    rw [sectors_record] at hx
    rw [getElem?_record]
    split
    · next hin =>
      rw [← SectorStatus.ofBlock_eq bad ((alignDown_eq_iff hlba).mpr ⟨hin.1, hin.2.1⟩)]
      exact .inr ⟨by omega, rfl⟩
    · exact h.bytes x hx
  · intro x hlo hx
    rw [sectors_record] at hx
    have hmod := alignDown_mod x
    have hsame : (lba ≤ alignDown x ∧ alignDown x < lba + blockSectors) ↔
        (lba ≤ x ∧ x < lba + blockSectors) := by
      simp only [alignDown, blockSectors] at hlba ⊢
      omega
    rw [getElem?_record_eq_zero_iff, getElem?_record_eq_zero_iff, h.blocks x hlo hx, hsame]

/-- The longest runs of unread sectors are made of whole blocks. -/
theorem BlockWise.aligned (h : j.BlockWise bad start) (hm : j.Mirrors start t)
    (hstart : start % blockSectors = 0) (hstop : j.sectors % blockSectors = 0)
    (hz : z ∈ t.zones) : z.Aligned := by
  obtain ⟨hpos, ⟨hlo, hhi⟩, hunread, hleft, hright⟩ := hm.isUnreadRun hz
  have hsame (x : Nat) (hx : start ≤ x) (hx' : x + 1 < j.sectors)
      (hinside : (x + 1) % blockSectors ≠ 0) :
      (j.bytes[x]? = some 0 ↔ j.bytes[x + 1]? = some 0) := by
    have hblock : alignDown (x + 1) = alignDown x := by
      simp only [alignDown, blockSectors] at hinside ⊢
      omega
    rw [h.blocks x hx (by omega), h.blocks (x + 1) (by omega) hx', hblock]
  -- A run that ends inside a block would have parts of the block gone different ways.
  constructor
  · rcases hleft with heq | hread
    · rwa [heq]
    · by_contra hinside
      have hne : z.start ≠ start := by
        rintro heq
        exact hinside (heq ▸ hstart)
      have hprev := hsame (z.start - 1) (by omega) (by omega) (by
        rwa [Nat.sub_add_cancel (by omega)])
      rw [Nat.sub_add_cancel (by omega)] at hprev
      exact hread (hprev.mpr (hunread z.start (Nat.le_refl _) hpos))
  · rcases hright with heq | hread
    · rwa [heq]
    · by_contra hinside
      have hne : z.stop ≠ j.sectors := by
        rintro heq
        exact hinside (heq ▸ hstop)
      have hnext := hsame (z.stop - 1) (by omega) (by omega) (by
        rwa [Nat.sub_add_cancel (by omega)])
      rw [Nat.sub_add_cancel (by omega)] at hnext
      exact hread (hnext.mp (hunread (z.stop - 1) (by omega) (by omega)))

end Journal

namespace Strategy

theorem aligned_next_smart {reverse fallback : Bool} {t : ZoneTable}
    (h : ∀ z ∈ t.zones, z.Aligned) :
    ∀ z ∈ ((smart reverse fallback).next t).2.2.zones, z.Aligned := by
  rcases next_smart_zones reverse fallback t with hsame | ⟨l, z, r, hz, hlong, hcut⟩
  · rwa [hsame]
  · rw [hz, List.forall_mem_append, List.forall_mem_cons] at h
    obtain ⟨hl, hmiddle, hr⟩ := h
    obtain ⟨hleading, htrailing⟩ := hmiddle.halves hlong
    rw [hcut, List.forall_mem_append, List.forall_mem_cons, List.forall_mem_cons]
    exact ⟨hl, hleading, htrailing, hr⟩

end Strategy

namespace CopySession

/-- The session is opened over a journal of the given bytes, for a smart copy of the source's range
from `start` on. The journal lies in no file with the image. -/
inductive OpensSmart (bad : Nat → Nat → Bool) (start capacity : Nat) (bytes : Bytes)
    (restored : Bool) (s : CopySession) : Prop
  | intro {memory : Memory} {source : Source} {target : Target} {file : Option JournalFile}
      {options : CopyOptions} : source.capacity = capacity → source.FailsAt bad →
      options.startLba = start →
      (options.strategy = .smart ∨ options.strategy = .smartForward) →
      sharesFile target ⟨bytes, file, restored⟩ = false →
      ofParts memory source target (some ⟨bytes, file, restored⟩) options = .ok s →
      OpensSmart bad start capacity bytes restored s

/-- Sessions of smart copies on a journal that was all unread at first, one after the other, with
the reads that were made. -/
inductive SmartHistory (bad : Nat → Nat → Bool) (start capacity : Nat) :
    List Task → CopySession → Prop
  | opened {restored s} : OpensSmart bad start capacity (Bytes.zeros capacity) restored s →
      SmartHistory bad start capacity [] s
  | performed {reads s} : SmartHistory bad start capacity reads s →
      SmartHistory bad start capacity (reads ++ s.nextRead?.toList) s.perform.2
  | reopened {reads s j s'} : SmartHistory bad start capacity reads s → s.journal = some j →
      OpensSmart bad start capacity j.bytes true s' → SmartHistory bad start capacity reads s'

variable {bad : Nat → Nat → Bool} {start capacity : Nat} {reads : List Task} {s : CopySession}
  {j : Journal}

structure InBlocks (bad : Nat → Nat → Bool) (start capacity : Nat) (reads : List Task)
    (s : CopySession) (j : Journal) : Prop where
  opened : s.copy.closed = false
  failsAt : s.source.FailsAt bad
  agrees : s.Agrees j
  begins : s.copy.start = start
  sectors : j.sectors = capacity
  smart : ∃ reverse fallback, s.copy.strategy = .smart reverse fallback
  blockWise : j.BlockWise bad start
  reads : ∀ task ∈ reads, task.IsBlock start capacity

theorem OpensSmart.inBlocks {bytes : Bytes} {restored : Bool}
    (h : OpensSmart bad start capacity bytes restored s)
    (hfresh : restored = false → bytes = Bytes.zeros bytes.size)
    (hbytes : (⟨bytes, none, restored⟩ : Journal).BlockWise bad start)
    (hreads : ∀ task ∈ reads, task.IsBlock start capacity) :
    ∃ j, InBlocks bad start capacity reads s j := by
  obtain @⟨memory, source, target, file, options, rfl, hfails, rfl, hkind, hsep, hopen⟩ := h
  obtain ⟨hstrategy, hopened⟩ := ofParts_strategy hopen
  obtain ⟨-, -, hsource⟩ := ofParts_parts hopen
  obtain ⟨-, hsize, hstart, -, -⟩ := ofParts_eq_ok hopen
  refine ⟨⟨bytes, file, restored⟩, hopened, ?_, agrees_ofParts hopen hfresh hsep, hstart, hsize, ?_,
    ⟨hbytes.bytes, hbytes.blocks⟩, hreads⟩
  · rw [hsource]
    exact hfails
  · rw [hstrategy]
    rcases hkind with hkind | hkind
    · exact ⟨true, false, by rw [hkind]; rfl⟩
    · exact ⟨false, false, by rw [hkind]; rfl⟩

/-- What is read next is a block, since the zones are made of blocks and are halved between
blocks. -/
theorem InBlocks.isBlock (h : InBlocks bad start capacity reads s j)
    (hstart : start % blockSectors = 0) (hcapacity : capacity % blockSectors = 0) {task : Task}
    (hn : s.nextRead? = some task) : task.IsBlock start capacity := by
  obtain ⟨strategy, table, hturn, -, -⟩ := exists_turn h.failsAt hn
  have hmirrors := h.agrees.mirrors
  rw [h.begins] at hmirrors
  have haligned : ∀ z ∈ table.zones, z.Aligned := by
    obtain ⟨reverse, fallback, hsmart⟩ := h.smart
    have hlive : ∀ z ∈ s.copy.table.zones, z.Aligned := by
      intro z hz
      exact h.blockWise.aligned hmirrors hstart (h.sectors.symm ▸ hcapacity) hz
    have hnext := @Strategy.aligned_next_smart reverse fallback _ hlive
    rwa [← hsmart, hturn] at hnext
  have hunread {x : Nat} (hx : task.Spans x) := hmirrors.unread_of_spans hturn hx
  obtain ⟨l, z, r, d, rfl, hr, hp⟩ := Strategy.next_poised hturn hmirrors.apart
  obtain ⟨hsectors, hlba⟩ := (haligned z (by simp [hr.zones])).task hp.nonempty d
  have hpos := Zone.task_sectors_pos hp.nonempty d
  obtain ⟨hlo, -⟩ := hunread (x := (z.task d).lba) ⟨Nat.le_refl _, by omega⟩
  obtain ⟨-, hlast⟩ := hunread (x := (z.task d).lba + (z.task d).sectors - 1) ⟨by omega, by omega⟩
  have hin : (z.task d).lba + (z.task d).sectors - 1 < j.sectors :=
    (Array.getElem?_eq_some_iff.mp hlast).1
  rw [h.sectors] at hin
  exact ⟨hsectors, hlba, hlo, by omega⟩

theorem InBlocks.perform (h : InBlocks bad start capacity reads s j)
    (hstart : start % blockSectors = 0) (hcapacity : capacity % blockSectors = 0) :
    ∃ k, InBlocks bad start capacity (reads ++ s.nextRead?.toList) s.perform.2 k := by
  rcases hn : s.nextRead? with _ | task
  · rw [perform_of_none hn]
    exact ⟨j, by simpa using h⟩
  · have hblock := h.isBlock hstart hcapacity hn
    have hrecord := h.agrees.perform_record h.failsAt hn
    rw [hblock.sectors] at hrecord
    obtain ⟨reverse, fallback, hsmart⟩ := h.smart
    have hsmart' : ∃ reverse fallback, s.perform.2.copy.strategy = .smart reverse fallback := by
      have hrestart := perform_restart s
      rw [hsmart] at hrestart
      exact ⟨reverse, Strategy.exists_eq_smart hrestart⟩
    refine ⟨_, s.perform_closed.trans h.opened, perform_failsAt h.failsAt, hrecord,
      (perform_range s).1.trans h.begins, by rw [Journal.sectors_record, h.sectors], hsmart',
      h.blockWise.record hblock.aligned hblock.within.1, fun k hk => ?_⟩
    rcases List.mem_append.mp hk with hk | hk
    · exact h.reads k hk
    · obtain rfl : k = task := by simpa using hk
      exact hblock

theorem SmartHistory.inBlocks (h : SmartHistory bad start capacity reads s)
    (hstart : start % blockSectors = 0) (hcapacity : capacity % blockSectors = 0) :
    ∃ j, InBlocks bad start capacity reads s j := by
  induction h with
  | opened hopen =>
    refine hopen.inBlocks (by simp [Bytes.zeros]) ?_ (by simp)
    exact Journal.blockWise_of_zeros rfl start
  | performed _ ih =>
    obtain ⟨j, hj⟩ := ih
    exact hj.perform hstart hcapacity
  | reopened _ hj hopen ih =>
    obtain ⟨k, hk⟩ := ih
    obtain rfl := Option.some.inj (hj.symm.trans hk.agrees.journal)
    exact hopen.inBlocks (by simp) ⟨hk.blockWise.bytes, hk.blockWise.blocks⟩ hk.reads

/-- When nothing is left to read, every block of the range has been read. -/
theorem InBlocks.bytes_of_none (h : InBlocks bad start capacity reads s j)
    (hn : s.nextRead? = none) {x : Nat} (hx : x < capacity) :
    j.bytes[x]? = some (if x < start then 0 else (SectorStatus.ofBlock bad x).byte) := by
  have hmirrors := h.agrees.mirrors
  rw [h.begins] at hmirrors
  have hempty : s.copy.table.zones = [] := by
    obtain ⟨reverse, fallback, hsmart⟩ := h.smart
    rcases Strategy.next_smart_cases reverse fallback s.copy.table with ⟨hnil, -⟩ |
      ⟨task, fallback', table, -, hnext⟩
    · exact hnil
    · have hread : s.nextRead? = some task := by
        rw [nextRead?_eq_some_iff h.opened, hsmart, hnext]
      simp [hread] at hn
  rcases h.blockWise.bytes x (h.sectors.symm ▸ hx) with hzero | ⟨hlo, hbyte⟩
  · rw [hzero]
    split
    · rfl
    · next hge =>
      have hcovered := (hmirrors.covered x).mpr ⟨Nat.le_of_not_lt hge, hzero⟩
      simp [hempty] at hcovered
  · rw [hbyte, if_neg (Nat.not_lt.mpr hlo)]

/-- Whatever the order of its reads, from which side they were made and however often it was left
and taken up again, a smart copy of a range of blocks reads block by block, and when it is complete
the journal says of each block how the read of that block goes. Two such copies leave the same
journal. -/
theorem smart_history_classifies (h : SmartHistory bad start capacity reads s)
    (hstart : start % 256 = 0) (hcapacity : capacity % 256 = 0) :
    (∀ task ∈ reads, task.IsBlock start capacity) ∧
      (s.perform.1 = .complete → ∃ j, s.journal = some j ∧ j.sectors = capacity ∧
        (∀ x < capacity, j.status x = some (if x < start then .unread
          else if bad (alignDown x) 256 then .blockReadError else .readOk)) ∧
        ∀ reads' s', SmartHistory bad start capacity reads' s' → s'.perform.1 = .complete →
          s'.journal.map (·.bytes) = some j.bytes) := by
  obtain ⟨j, hj⟩ := h.inBlocks hstart hcapacity
  refine ⟨hj.reads, fun hdone => ?_⟩
  have hbytes {x : Nat} (hx : x < capacity) :=
    hj.bytes_of_none (nextRead?_of_complete hj.opened hdone) hx
  refine ⟨j, hj.agrees.journal, hj.sectors, fun x hx => ?_, fun reads' s' h' hdone' => ?_⟩
  · rw [Journal.status, hbytes hx]
    split
    · rfl
    · exact SectorStatus.ofByte?_byte _
  · obtain ⟨k, hk⟩ := h'.inBlocks hstart hcapacity
    have hbytes' {x : Nat} (hx : x < capacity) :=
      hk.bytes_of_none (nextRead?_of_complete hk.opened hdone') hx
    rw [hk.agrees.journal, Option.map_some, Option.some.injEq]
    apply Array.ext_getElem?
    intro x
    by_cases hx : x < capacity
    · rw [hbytes hx, hbytes' hx]
    · have hsize : j.bytes.size ≤ x := Nat.le_trans (Nat.le_of_eq hj.sectors) (Nat.le_of_not_lt hx)
      have hsize' : k.bytes.size ≤ x :=
        Nat.le_trans (Nat.le_of_eq hk.sectors) (Nat.le_of_not_lt hx)
      rw [Array.getElem?_eq_none hsize, Array.getElem?_eq_none hsize']

theorem SmartHistory.turn {task : Task} (h : SmartHistory bad start capacity reads s)
    (hn : s.nextRead? = some task) :
    SmartHistory bad start capacity (reads ++ [task]) s.perform.2 := by
  have hperformed := h.performed
  rwa [hn] at hperformed

/-- The first of two blocks fails, and with the second the copy is complete. -/
theorem smartHistory_of_two_blocks {options : CopyOptions} {d : Direction} (s : CopySession)
    (hs : s = fresh (onesSourceBut (· < 256) 512) emptyImage none options)
    (hstart : options.startLba = 0)
    (hkind : options.strategy = .smart ∨ options.strategy = .smartForward)
    (hfirst : s.nextRead? = some ⟨0, 256, .forward⟩)
    (hsecond : s.perform.2.nextRead? = some ⟨256, 256, d⟩) :
    SmartHistory (fun lba _ => decide (lba < 256)) 0 512 [⟨0, 256, .forward⟩, ⟨256, 256, d⟩]
        s.perform.2.perform.2 ∧ s.perform.2.perform.2.perform.1 = .complete := by
  have hfails := onesSourceBut_failsAt (· < 256) 512
  have hopen := @ofParts_fresh .ofProcess (onesSourceBut (· < 256) 512) emptyImage none options
    Memory.givesBlock_ofProcess (by rw [hstart]; decide)
  rw [← hs] at hopen
  have hopened : SmartHistory (fun lba _ => decide (lba < 256)) 0 512 [] s :=
    .opened (.intro rfl hfails hstart hkind rfl hopen)
  have h := (hopened.turn hfirst).turn hsecond
  obtain ⟨j, hj⟩ := hopened.inBlocks (by decide) (by decide)
  obtain ⟨k, hk⟩ := (hopened.turn hfirst).inBlocks (by decide) (by decide)
  obtain ⟨m, hm⟩ := h.inBlocks (by decide) (by decide)
  have htable : s.copy.table.unread = 512 := by
    rw [hs]
    simp only [fresh, Copy.ofTable, hstart]
    decide
  obtain ⟨-, hsum⟩ := hj.agrees.unread_perform hj.failsAt hfirst
  obtain ⟨-, hsum'⟩ := hk.agrees.unread_perform hk.failsAt hsecond
  simp only at hsum hsum'
  have hnone := hm.agrees.nextRead?_of_unread (by omega)
  exact ⟨h, by rw [perform_of_none hnone]⟩

/-- The block behind the one that fails is read downwards in the one copy and upwards in the other.
-/
theorem smart_history_classifies_either_way :
    let bad : Nat → Nat → Bool := fun lba _ => decide (lba < 256)
    ∃ s s' j, SmartHistory bad 0 512 [⟨0, 256, .forward⟩, ⟨256, 256, .backward⟩] s ∧
      SmartHistory bad 0 512 [⟨0, 256, .forward⟩, ⟨256, 256, .forward⟩] s' ∧
      s.perform.1 = .complete ∧ s'.perform.1 = .complete ∧ s.journal = some j ∧
      s'.journal.map (·.bytes) = some j.bytes ∧ j.status 255 = some .blockReadError ∧
      j.status 256 = some .readOk := by
  intro bad
  let upwards : CopyOptions := { CopyOptions.default with strategy := .smartForward }
  obtain ⟨h, hdone⟩ := @smartHistory_of_two_blocks .default .backward _ rfl rfl (.inl rfl)
    (by decide +kernel) (by decide +kernel)
  obtain ⟨h', hdone'⟩ := @smartHistory_of_two_blocks upwards .forward _ rfl rfl (.inr rfl)
    (by decide +kernel) (by decide +kernel)
  obtain ⟨-, hclassified⟩ := smart_history_classifies h (by decide) (by decide)
  obtain ⟨j, hj, -, hstatus, hsame⟩ := hclassified hdone
  exact ⟨_, _, j, h, h', hdone, hdone', hj, hsame _ _ h' hdone', hstatus 255 (by decide),
    hstatus 256 (by decide)⟩

/-- A copy in the journal's own file is complete with its first block, and the journal has the
second one for good, which cannot be read. -/
theorem smart_history_misclassifies_in_shared_file :
    ∃ s k s', ofParts .ofProcess (onesSourceBut (256 ≤ ·) 131072)
        (sharedTarget (Bytes.zeros 131072)) (some (sharedJournal (Bytes.zeros 131072) false))
        .default = .ok s ∧
      (onesSourceBut (256 ≤ ·) 131072).FailsAt (fun lba _ => decide (256 ≤ lba)) ∧
      CopyOptions.default.strategy = .smart ∧ CopyOptions.default.startLba % 256 = 0 ∧
      (onesSourceBut (256 ≤ ·) 131072).capacity % 256 = 0 ∧
      (s.after 1).journal = some k ∧
      ofParts .ofProcess (onesSourceBut (256 ≤ ·) 131072) (sharedTarget k.bytes)
        (some (sharedJournal k.bytes true)) .default = .ok s' ∧
      s'.perform.1 = .complete ∧ s'.journal.map (·.status 256) = some (some .readOk) := by
  obtain ⟨s, k, s', hopen, -, hk, hs', hnone, hstatus⟩ := sharedJournal_reopened
  refine ⟨s, k, s', hopen, onesSourceBut_failsAt _ _, rfl, by decide, by decide, hk, hs', ?_,
    hstatus⟩
  rw [perform_of_none hnone]

end CopySession

end DriveRescue
