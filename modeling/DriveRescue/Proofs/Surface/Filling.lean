import DriveRescue.ZeroFill
import DriveRescue.Proofs.Access.Writing
import DriveRescue.Proofs.Procedure.InOrder

/-! What a zero fill leaves of a file. Each block is written to once, whatever became of the blocks
before it, and as far as the write takes it the block is zero afterwards. Nothing behind the last
whole sector is touched, and the file keeps its length. -/
namespace DriveRescue

namespace Bytes

theorem getElem?_writeAt_zeros (b : Bytes) {offset count : Nat} (h : offset + count ≤ b.size)
    (i : Nat) :
    (b.writeAt offset (zeros count))[i]? =
      if offset ≤ i ∧ i < offset + count then some 0 else b[i]? := by
  have hsize : (zeros count).size = count := Array.size_replicate
  by_cases hcount : count = 0
  · subst hcount
    rw [if_neg (by omega)]
    rfl
  · rw [getElem?_writeAt (by omega), hsize, zeros]
    split
    · next hi =>
      rw [Array.getElem?_replicate, if_pos (by omega)]
    · rw [Array.getD_eq_getD_getElem?]
      split
      · next hi =>
        rw [Array.getElem?_eq_getElem (by omega), Option.getD_some]
      · rw [Array.getElem?_eq_none (by omega)]

theorem size_writeAt_zeros (b : Bytes) {offset count : Nat} (h : offset + count ≤ b.size) :
    (b.writeAt offset (zeros count)).size = b.size := by
  have hsize : (zeros count).size = count := Array.size_replicate
  by_cases hcount : count = 0
  · subst hcount
    rfl
  · rw [size_writeAt (by omega)]
    omega

end Bytes

namespace Target

variable {t : Target} {offset count : Nat}

/-- How many of `count` bytes the next write takes. One that fails takes none. -/
def taken (t : Target) (offset count : Nat) : Nat :=
  min ((t.accepts t.writes offset count).getD 0) count

theorem write_frame (t : Target) (offset : Nat) (data : Bytes) :
    let u := (t.write offset data).2
    u.accepts = t.accepts ∧ u.writes = t.writes + 1 := by
  unfold write
  split <;> exact ⟨rfl, rfl⟩

/-- A write of zeros makes as many bytes zero as it takes. -/
theorem write_zeros (t : Target) (offset count : Nat) :
    (t.write offset (Bytes.zeros count)).2.contents =
      t.contents.writeAt offset (Bytes.zeros (t.taken offset count)) := by
  have hsize : (Bytes.zeros count).size = count := Array.size_replicate
  unfold write taken
  rw [hsize]
  cases t.accepts t.writes offset count with
  | none =>
    show t.contents = t.contents.writeAt offset (Bytes.zeros (min 0 count))
    rw [Nat.zero_min]
    rfl
  | some accepted =>
    show t.contents.writeAt offset (if min accepted count = count then Bytes.zeros count
      else (Bytes.zeros count).take (min accepted count)) = _
    congr 1
    split
    · next hall => rw [Option.getD_some, hall]
    · rw [Option.getD_some, Bytes.zeros, Bytes.zeros, Array.take_eq_extract,
        Array.extract_replicate, Nat.sub_zero, Nat.min_eq_left (Nat.min_le_right ..)]

/-- A write reports all bytes as taken if it takes them all. -/
theorem write_eq_some_iff (hcount : 0 < count) :
    (t.write offset (Bytes.zeros count)).1 = some count ↔ t.taken offset count = count := by
  have hsize : (Bytes.zeros count).size = count := Array.size_replicate
  unfold write taken
  rw [hsize]
  cases t.accepts t.writes offset count with
  | none =>
    show none = some count ↔ min 0 count = count
    simp
    omega
  | some accepted =>
    show some (min accepted count) = some count ↔ _
    rw [Option.some.injEq, Option.getD_some]

end Target

namespace ZeroFill

variable {z : ZeroFill} {memory : Memory} {contents : Bytes} {k n : Nat}

theorem perform_of_lt (hlt : z.position < z.stop) :
    let sectors := min blockSectors (z.stop - z.position)
    let written :=
      z.target.write (z.position * sectorBytes) (Bytes.zeros (sectors * sectorBytes))
    z.perform =
      (.proceed ⟨z.position, sectors,
          if written.1 = some (sectors * sectorBytes) then .ok else .error, 0, false⟩,
        ⟨written.2, z.position + sectors, z.stop, z.progress.advance sectors, z.syncing,
          z.syncs⟩) := by
  rw [perform, if_neg (Nat.not_le_of_lt hlt)]

theorem perform_of_le (hle : z.stop ≤ z.position) : z.perform = (.complete, z) := by
  rw [perform, if_pos hle]

theorem inOrder (stop : Nat) : procedure.InOrder position stop fun z => z.stop = stop := by
  constructor
  · rintro z rfl
    show z.perform.2.stop = z.stop
    rcases Nat.lt_or_ge z.position z.stop with hlt | hle
    · rw [perform_of_lt hlt]
    · rw [perform_of_le hle]
  · rintro z rfl hlt
    exact ⟨_, congrArg Prod.fst (perform_of_lt hlt), rfl, rfl⟩
  · rintro z rfl hlt
    show z.perform.2.position = _ ∧ z.perform.2.progress = _
    rw [perform_of_lt hlt]
    exact ⟨rfl, rfl⟩
  · rintro z rfl hle
    exact perform_of_le hle
  · rintro z rfl
    rfl

/-- The bytes of block number `k` among so many whole sectors. Behind the last block there are
none. -/
def blockLength (sectors k : Nat) : Nat := (min (256 * (k + 1)) sectors - 256 * k) * 512

/-- How many bytes of block number `k` its write takes, if `answers` tells how the writes are
answered. -/
def filled (answers : (k offset count : Nat) → Option Nat) (sectors k : Nat) : Nat :=
  min ((answers k (256 * k * 512) (blockLength sectors k)).getD 0) (blockLength sectors k)

structure HasFilled (answers : (k offset count : Nat) → Option Nat) (contents : Bytes)
    (z : ZeroFill) (n : Nat) : Prop where
  stop : z.stop = contents.size / 512
  position : z.position = min (256 * n) (contents.size / 512)
  accepts : z.target.accepts = answers
  writes : z.target.writes = n
  size : z.target.contents.size = contents.size
  bytes : ∀ i, z.target.contents[i]? =
    if i / 131072 < n ∧ i % 131072 < filled answers (contents.size / 512) (i / 131072) then some 0
    else contents[i]?

variable {answers : (k offset count : Nat) → Option Nat}

theorem filled_le (answers : (k offset count : Nat) → Option Nat) (sectors k : Nat) :
    filled answers sectors k ≤ blockLength sectors k := Nat.min_le_right ..

/-- A block lies within the whole sectors. -/
theorem blockLength_le (sectors k : Nat) :
    blockLength sectors k ≤ 131072 ∧ 256 * k * 512 + blockLength sectors k ≤
      max (256 * k * 512) (sectors * 512) := by
  simp only [blockLength]
  omega

/-- A perform that is not the last one writes to the next block and reports it. -/
theorem HasFilled.perform_eq (h : z.HasFilled answers contents n)
    (hlt : 256 * n < contents.size / 512) :
    let length := blockLength (contents.size / 512) n
    let written := z.target.write (256 * n * 512) (Bytes.zeros length)
    z.perform.2.target = written.2 ∧
      z.perform.2.position = min (256 * (n + 1)) (contents.size / 512) ∧
      z.perform.2.stop = z.stop ∧ z.perform.1 = .proceed ⟨256 * n,
        min (256 * (n + 1)) (contents.size / 512) - 256 * n,
        if filled answers (contents.size / 512) n = length then .ok else .error, 0, false⟩ := by
  intro length written
  have hposition : z.position = 256 * n := h.position.trans (by omega)
  have hsectors : min blockSectors (z.stop - z.position) =
      min (256 * (n + 1)) (contents.size / 512) - 256 * n := by
    rw [h.stop, hposition]
    simp only [blockSectors]
    omega
  have hperform := perform_of_lt (z := z) (by rw [hposition, h.stop]; exact hlt)
  dsimp only at hperform
  rw [hsectors, hposition] at hperform
  have hpos : 0 < length := by
    simp only [length, blockLength]
    omega
  have htaken : z.target.taken (256 * n * 512) length =
      filled answers (contents.size / 512) n := by
    rw [Target.taken, h.accepts, h.writes]
    rfl
  have hstatus : (if written.1 = some length then BlockStatus.ok else .error) =
      if filled answers (contents.size / 512) n = length then .ok else .error := by
    rw [← htaken]
    exact if_congr (Target.write_eq_some_iff hpos) rfl rfl
  refine ⟨congrArg (fun r => r.2.target) hperform, ?_, congrArg (fun r => r.2.stop) hperform, ?_⟩
  · have hmoved := congrArg (fun r => r.2.position) hperform
    dsimp only at hmoved
    omega
  · rw [← hstatus]
    exact congrArg Prod.fst hperform

/-- The block that is written to is zero as far as the write takes it, and all else is as it was. -/
theorem HasFilled.getElem?_perform (h : z.HasFilled answers contents n)
    (hlt : 256 * n < contents.size / 512) :
    z.perform.2.target.contents.size = contents.size ∧
      ∀ i, z.perform.2.target.contents[i]? =
        if 256 * n * 512 ≤ i ∧ i < 256 * n * 512 + filled answers (contents.size / 512) n then some 0
        else z.target.contents[i]? := by
  obtain ⟨htarget, -⟩ := h.perform_eq hlt
  have hcontents := z.target.write_zeros (256 * n * 512) (blockLength (contents.size / 512) n)
  have htaken : z.target.taken (256 * n * 512) (blockLength (contents.size / 512) n) =
      filled answers (contents.size / 512) n := by
    rw [Target.taken, h.accepts, h.writes, filled]
  have hroom : 256 * n * 512 + filled answers (contents.size / 512) n ≤
      z.target.contents.size := by
    obtain ⟨-, hwithin⟩ := blockLength_le (contents.size / 512) n
    have hfilled := filled_le answers (contents.size / 512) n
    rw [h.size]
    omega
  rw [htarget, hcontents, htaken]
  constructor
  · rw [Bytes.size_writeAt_zeros _ hroom, h.size]
  · exact Bytes.getElem?_writeAt_zeros _ hroom

/-- The step lemma. -/
theorem HasFilled.perform (h : z.HasFilled answers contents n)
    (hlt : 256 * n < contents.size / 512) : z.perform.2.HasFilled answers contents (n + 1) := by
  obtain ⟨htarget, hposition, hstop, -⟩ := h.perform_eq hlt
  obtain ⟨hsize, hbytes⟩ := h.getElem?_perform hlt
  obtain ⟨haccepts, hwrites⟩ := z.target.write_frame (256 * n * 512)
    (Bytes.zeros (blockLength (contents.size / 512) n))
  constructor
  · exact hstop.trans h.stop
  · exact hposition
  · rw [htarget, haccepts, h.accepts]
  · rw [htarget, hwrites, h.writes]
  · exact hsize
  · intro i
    obtain ⟨hlength, -⟩ := blockLength_le (contents.size / 512) n
    have hfilled := filled_le answers (contents.size / 512) n
    rw [hbytes, h.bytes]
    by_cases hi : i / 131072 = n
    · -- The byte lies in the block that is written to now.
      rw [hi, if_neg (fun hn : n < n ∧ _ => Nat.lt_irrefl n hn.1)]
      congr 1
      rw [eq_iff_iff]
      omega
    · rw [if_neg (by omega)]
      congr 1
      rw [eq_iff_iff]
      omega

section Run

variable (h : z.HasFilled answers contents 0)

include h

/-- The run lemma: so many performs write to so many blocks, as far as there are any. -/
theorem hasFilled_stateAfter (k : Nat) : (procedure.stateAfter z k).HasFilled answers contents
    (min k (contents.size / 512 ⌈/⌉ 256)) := by
  induction k with
  | zero =>
    rw [Nat.zero_min]
    exact h
  | succ k ih =>
    rw [Procedure.stateAfter_succ]
    have hblock : k < contents.size / 512 ⌈/⌉ 256 ↔ 256 * k < contents.size / 512 :=
      Procedure.lt_ceilDiv_iff
    rcases Nat.lt_or_ge k (contents.size / 512 ⌈/⌉ 256) with hlt | hle
    · rw [Nat.min_eq_left (Nat.le_of_lt hlt)] at ih
      rw [Nat.min_eq_left hlt]
      exact ih.perform (hblock.mp hlt)
    · have hdone : (procedure.stateAfter z k).perform.2 = procedure.stateAfter z k := by
        rw [perform_of_le]
        rw [ih.stop, ih.position, Nat.min_eq_right hle]
        have hlast : ¬ 256 * (contents.size / 512 ⌈/⌉ 256) < contents.size / 512 :=
          mt Procedure.lt_ceilDiv_iff.mpr (Nat.lt_irrefl _)
        omega
      rw [Nat.min_eq_right hle] at ih
      rw [Nat.min_eq_right (Nat.le_succ_of_le hle)]
      show (procedure.stateAfter z k).perform.2.HasFilled _ _ _
      rwa [hdone]

theorem hasFilled_of_lt (hk : k < contents.size / 512 ⌈/⌉ 256) :
    (procedure.stateAfter z k).HasFilled answers contents k ∧ 256 * k < contents.size / 512 := by
  have hfilled := hasFilled_stateAfter h k
  rw [Nat.min_eq_left (Nat.le_of_lt hk)] at hfilled
  exact ⟨hfilled, Procedure.lt_ceilDiv_iff.mp hk⟩

theorem stepAt_of_le (hk : contents.size / 512 ⌈/⌉ 256 ≤ k) :
    procedure.stepAt z k = .complete ∧
      procedure.stateAfter z k = procedure.stateAfter z (contents.size / 512 ⌈/⌉ 256) := by
  have hcourse := inOrder (contents.size / 512)
  have hblocks : (contents.size / 512 - z.position) ⌈/⌉ blockSectors =
      contents.size / 512 ⌈/⌉ 256 := by
    rw [h.position, Nat.mul_zero, Nat.zero_min]
    rfl
  constructor
  · exact (hcourse.stepAt_eq_complete_iff h.stop).mpr (hblocks ▸ hk)
  · exact hcourse.stateAfter_of_le h.stop (Nat.le_of_eq hblocks) hk

/-- Where the writes take their blocks in full, the whole sectors are zero up to the last of
them. -/
theorem getElem?_stateAfter_of_whole
    (hall : ∀ k < n, filled answers (contents.size / 512) k =
      blockLength (contents.size / 512) k) (i : Nat) :
    (procedure.stateAfter z n).target.contents[i]? =
      if i < min (256 * n * 512) (512 * (contents.size / 512)) then some 0 else contents[i]? := by
  rw [(hasFilled_stateAfter h n).bytes]
  congr 1
  have hblock : i / 131072 < contents.size / 512 ⌈/⌉ 256 ↔
      256 * (i / 131072) < contents.size / 512 := Procedure.lt_ceilDiv_iff
  rw [eq_iff_iff, Nat.lt_min, hblock]
  rcases Nat.lt_or_ge (i / 131072) n with hlt | hle
  · rw [hall _ hlt]
    simp only [blockLength]
    omega
  · omega

end Run

theorem stateAfter_file (z : ZeroFill) (k : Nat) :
    (procedure.stateAfter z k).target.file = z.target.file := by
  induction k with
  | zero => rfl
  | succ k ih =>
    rw [Procedure.stateAfter_succ]
    show (procedure.stateAfter z k).perform.2.target.file = _
    rcases Nat.lt_or_ge (procedure.stateAfter z k).position (procedure.stateAfter z k).stop with
      hlt | hle
    · rw [perform_of_lt hlt]
      exact (Target.write_file ..).trans ih
    · rw [perform_of_le hle]
      exact ih

/-- With no block written to yet the file is as it was. -/
theorem hasFilled_zero (answers : (k offset count : Nat) → Option Nat) (key : List String)
    (contents : Bytes) :
    HasFilled answers contents ⟨{ Target.ofNode key (.file contents) true with accepts := answers },
      0, contents.size / 512, ⟨0, contents.size / 512⟩, fun _ => none, 0⟩ 0 := by
  refine ⟨rfl, ?_, rfl, rfl, rfl, fun i => ?_⟩
  · rw [Nat.mul_zero, Nat.zero_min]
  · rw [if_neg (fun hi => Nat.not_lt_zero _ hi.1)]
    rfl

/-- A regular file takes every write within it in full. -/
theorem filled_of_file {key : List String} (hbound : contents.size < Text.signedBound) (k : Nat) :
    filled (Target.ofNode key (.file contents) true).accepts (contents.size / 512) k =
      blockLength (contents.size / 512) k := by
  obtain ⟨-, hwithin⟩ := blockLength_le (contents.size / 512) k
  have haccepts : (Target.ofNode key (.file contents) true).accepts k (256 * k * 512)
      (blockLength (contents.size / 512) k) =
        if Text.signedBound ≤ 256 * k * 512 + blockLength (contents.size / 512) k then none
        else some (blockLength (contents.size / 512) k) := rfl
  rw [filled, haccepts]
  split
  · next hbeyond =>
    -- Behind the last block nothing is left to be taken.
    have hnone : blockLength (contents.size / 512) k = 0 := by
      simp only [blockLength] at hbeyond hwithin ⊢
      omega
    rw [hnone]
    rfl
  · exact Nat.min_self _

section Opened

variable {files : FileTree} {path : String} {key : List String}
  (hfile : files.stat path = .ok (key, .file contents))

include hfile

/-- A file with a whole sector is filled from its beginning on, if there is memory for a buffer. -/
theorem openPath_of_file (memory : Memory) (hsize : 512 ≤ contents.size) :
    openPath memory files path =
      if memory.givesBlock then .ok ⟨.ofNode key (.file contents) true, 0, contents.size / 512,
        ⟨0, contents.size / 512⟩, fun _ => none, 0⟩
      else .error (.buffer (.refused blockBytes)) := by
  have hopen : files.openExisting path true = .ok (key, .file contents) :=
    FileTree.openExisting_eq_file_iff.mpr hfile
  have hsectors : contents.size / sectorBytes ≠ 0 := by
    simp only [sectorBytes]
    omega
  unfold openPath Device.openPath
  rw [hopen]
  show ofDevice memory _ = _
  rw [ofDevice, TransferBuffer.allocateFrom_block]
  refine (if_neg hsectors).trans ?_
  split <;> rfl

/-- A zero fill of a file with a whole sector opens wherever there is memory for its buffer.
Whatever comes of the writes, it writes once to each block of whole sectors, in order and nowhere
else. Of each block as many bytes are zero afterwards as the write took, and all others are what
they were; the block is reported as good if the write took all of it. Where the first writes all do,
the whole sectors are zero up to there. The file keeps its length, and no other file is changed. -/
theorem fill_zeroes_whole_sectors (memory : Memory) (hsize : 512 ≤ contents.size) :
    (memory.givesBlock = true → ∃ z, openPath memory files path = .ok z) ∧
    ∀ z, openPath memory files path = .ok z →
      (contents.size < Text.signedBound → ∀ k, filled z.target.accepts (contents.size / 512) k =
        blockLength (contents.size / 512) k) ∧
      ∀ answers : (k offset count : Nat) → Option Nat,
        let begun : ZeroFill := { z with target := { z.target with accepts := answers } }
        let sectors := contents.size / 512
        let blocks := sectors ⌈/⌉ 256
        let image := fun k => (procedure.stateAfter begun k).target.contents
        (∀ k < blocks, ∃ report, procedure.stepAt begun k = .proceed report ∧
          report.lba = 256 * k ∧ report.lba + report.sectors = min (256 * (k + 1)) sectors ∧
          report.sectors * 512 = blockLength sectors k ∧
          (report.status = .ok ↔ filled answers sectors k = blockLength sectors k) ∧
          ∀ i, (image (k + 1))[i]? =
            if 256 * k * 512 ≤ i ∧ i < 256 * k * 512 + filled answers sectors k then some 0
            else (image k)[i]?) ∧
        (∀ k, blocks ≤ k → procedure.stepAt begun k = .complete ∧ image k = image blocks) ∧
        (∀ k, (procedure.stateAfter begun k).target.writes = min k blocks ∧
          (image k).size = contents.size ∧
          (procedure.stateAfter begun k).target.save files = files.put key (.file (image k))) ∧
        ∀ n, (∀ k < n, filled answers sectors k = blockLength sectors k) →
          ∀ i, (image n)[i]? = if i < min (256 * n * 512) (512 * sectors) then some 0
            else contents[i]? := by
  have hopens := openPath_of_file hfile memory hsize
  refine ⟨fun hmemory => ⟨_, hopens.trans (if_pos hmemory)⟩, fun z hz => ?_⟩
  obtain ⟨-, rfl⟩ : memory.givesBlock = true ∧ _ = z := by simpa [hopens, ite_eq_iff] using hz
  refine ⟨fun hbound k => filled_of_file hbound k, ?_⟩
  intro answers begun sectors blocks image
  have hbegun : begun.HasFilled answers contents 0 := hasFilled_zero answers key contents
  refine ⟨fun k hk => ?_, fun k hk => ?_, fun k => ?_,
    fun n hall => getElem?_stateAfter_of_whole hbegun hall⟩
  · obtain ⟨hfilled, hlt⟩ := hasFilled_of_lt hbegun hk
    obtain ⟨-, -, -, hstep⟩ := hfilled.perform_eq hlt
    obtain ⟨-, hbytes⟩ := hfilled.getElem?_perform hlt
    refine ⟨_, hstep, rfl, ?_, rfl, ?_, fun i => ?_⟩
    · dsimp only
      omega
    · constructor
      · intro hgood
        by_contra hpart
        exact absurd ((if_neg hpart).symm.trans hgood) (by decide)
      · exact fun hall => if_pos hall
    · show (procedure.stateAfter begun (k + 1)).target.contents[i]? = _
      rw [Procedure.stateAfter_succ]
      exact hbytes i
  · obtain ⟨hstep, hstate⟩ := stepAt_of_le hbegun hk
    exact ⟨hstep, congrArg (fun z => z.target.contents) hstate⟩
  · have hfilled := hasFilled_stateAfter hbegun k
    refine ⟨hfilled.writes, hfilled.size, ?_⟩
    rw [Target.save, stateAfter_file]
    rfl

end Opened

/-- A file of one sector and a part of another. A write that is cut short after 100 bytes is
reported as failed; the file's own write takes the sector and leaves the part behind it. -/
theorem fill_zeroes_whole_sectors_short :
    let contents : Bytes := Array.replicate 700 7
    let files : FileTree := ⟨[], [(["d"], .file contents)]⟩
    files.stat "d" = .ok (["d"], .file contents) ∧ 512 ≤ contents.size ∧
      ∃ z, openPath .ofProcess files "d" = .ok z ∧
        let short : ZeroFill :=
          { z with target := { z.target with accepts := fun _ _ _ => some 100 } }
        let cut := (procedure.stateAfter short 1).target.contents
        let whole := (procedure.stateAfter z 1).target.contents
        (∃ report, procedure.stepAt short 0 = .proceed report ∧ report.sectors = 1 ∧
          report.status ≠ .ok) ∧
        procedure.stepAt short 1 = .complete ∧
        cut[99]? = some 0 ∧ cut[100]? = some 7 ∧ whole[511]? = some 0 ∧ whole[512]? = some 7 := by
  have hstat (contents : Bytes) : (⟨[], [(["d"], .file contents)]⟩ : FileTree).stat "d" =
      .ok (["d"], .file contents) := rfl
  intro contents files
  have hsize : contents.size = 700 := Array.size_replicate
  have hbyte (i : Nat) (hi : i < 700) : contents[i]? = some 7 := by
    rw [Array.getElem?_replicate, if_pos hi]
  obtain ⟨hopens, hruns⟩ := fill_zeroes_whole_sectors (hstat contents) .ofProcess (by omega)
  obtain ⟨z, hopen⟩ := hopens Memory.givesBlock_ofProcess
  obtain ⟨hown, hrun⟩ := hruns z hopen
  obtain ⟨hblocks, hdone, -, -⟩ := hrun fun _ _ _ => some 100
  obtain ⟨-, -, -, hall⟩ := hrun z.target.accepts
  have hsectors : contents.size / 512 = 1 := by rw [hsize]
  rw [hsectors] at hblocks hdone hall
  obtain ⟨report, hstep, hlba, hend, -, hstatus, hcut⟩ := hblocks 0 (by decide)
  have hbegun := hall 0 fun k hk => absurd hk (Nat.not_lt_zero k)
  have hwhole := hall 1 fun k _ => hsectors ▸ hown (by rw [hsize]; decide) k
  refine ⟨hstat contents, by omega, z, hopen, ⟨report, hstep, by omega, ?_⟩,
    (hdone 1 (by decide)).1, (hcut 99).trans (if_pos (by decide)),
    ((hcut 100).trans (if_neg (by decide))).trans ((hbegun 100).trans (hbyte 100 (by decide))),
    (hwhole 511).trans (if_pos (by decide)),
    ((hwhole 512).trans (if_neg (by decide))).trans (hbyte 512 (by decide))⟩
  rw [Ne, hstatus]
  decide

end ZeroFill

end DriveRescue
