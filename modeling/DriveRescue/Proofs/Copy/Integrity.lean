import DriveRescue.Proofs.Copy.Agreement

/-! What an image holds over any number of sessions, each of which may be killed between the read of
a block, the write of its data and the entry in the journal. No sector of the image is ever another
than the disk's, and one that the journal calls good is there in full. -/
namespace DriveRescue

structure Source.Shows (s : Source) (disk : Bytes) : Prop where
  capacity : s.capacity = disk.size / sectorBytes
  reading : ∀ k lba count, lba * sectorBytes + count ≤ disk.size →
    (s.reading k lba count).status.isFailure = false →
      (s.reading k lba count).data = disk.range (lba * sectorBytes) count

namespace Bytes

structure HasSector (image disk : Bytes) (lba : Nat) : Prop where
  exists_disk : lba < disk.size / sectorBytes
  same : ∀ i < sectorBytes, image[lba * sectorBytes + i]? = disk[lba * sectorBytes + i]?

/-- As far as the sector exists it is zero. -/
def LacksSector (image : Bytes) (lba : Nat) : Prop :=
  ∀ i < sectorBytes, image.getD (lba * sectorBytes + i) 0 = 0

variable {image disk : Bytes} {lba : Nat} {task : Task}

theorem HasSector.isSome (h : HasSector image disk lba) {i : Nat} (hi : i < sectorBytes) :
    ∃ b, image[lba * sectorBytes + i]? = some b := by
  rw [h.same i hi]
  have hlba := h.exists_disk
  refine ⟨_, Array.getElem?_eq_getElem ?_⟩
  simp only [sectorBytes] at hi hlba ⊢
  omega

theorem size_range_of_le {b : Bytes} {start count : Nat} (h : start + count ≤ b.size) :
    (b.range start count).size = count := by
  simp [range]
  omega

/-- Data of a task put in their place are the disk's sectors there. -/
theorem hasSector_writeAt_of_spans
    (hdisk : task.lba * sectorBytes + task.sectors * sectorBytes ≤ disk.size)
    (hx : task.Spans lba) :
    HasSector (image.writeAt (task.lba * sectorBytes)
      (disk.range (task.lba * sectorBytes) (task.sectors * sectorBytes))) disk lba := by
  have hsize := size_range_of_le hdisk
  refine ⟨?_, fun i hi => ?_⟩
  · simp only [Task.Spans, sectorBytes] at hx hdisk ⊢
    omega
  · obtain ⟨hlo, hhi⟩ := (Task.spans_iff_bytes hi).mpr hx
    rw [getElem?_writeAt (by omega), hsize, if_pos ⟨hlo, hhi⟩, range, Array.getElem?_extract,
      if_pos (by omega), Nat.add_sub_cancel' hlo]

/-- Data of a task leave the other sectors in place. -/
theorem HasSector.writeAt (h : HasSector image disk lba) (hx : ¬ task.Spans lba) {data : Bytes}
    (hdata : data.size = task.sectors * sectorBytes) :
    HasSector (image.writeAt (task.lba * sectorBytes) data) disk lba := by
  refine ⟨h.exists_disk, fun i hi => ?_⟩
  obtain ⟨b, hb⟩ := h.isSome hi
  have hlt := (Array.getElem?_eq_some_iff.mp hb).1
  by_cases hempty : data.size = 0
  · rw [Bytes.writeAt, if_pos (by simpa using hempty), h.same i hi]
  · rw [← h.same i hi, getElem?_writeAt hempty, hdata, if_neg, if_pos (by omega),
      Array.getD_eq_getD_getElem?, hb, Option.getD_some]
    rwa [Task.spans_iff_bytes hi]

theorem LacksSector.writeAt (h : LacksSector image lba) (hx : ¬ task.Spans lba) {data : Bytes}
    (hdata : data.size = task.sectors * sectorBytes) :
    LacksSector (image.writeAt (task.lba * sectorBytes) data) lba := by
  intro i hi
  rw [getD_writeAt_of_not_mem, h i hi]
  rwa [hdata, Task.spans_iff_bytes hi]

end Bytes

namespace CopySession

/-- How far a session has come with a perform. -/
inductive Stage where
  | resting
  | fetched (task : Task) (reply : Reply)
  | stored (task : Task) (reply : Reply)

/-- Histories of one journal file and one image, which is another file, over a disk. The first
session finds the journal zero and the image empty; a later one takes both as the session before it
left them, at whatever stage that was killed. No write fails. -/
inductive History (disk : Bytes) : Stage → CopySession → Prop
  | fresh {memory source target file options s} : source.Shows disk → target.contents = #[] →
      sharesFile target ⟨Bytes.zeros source.capacity, file, false⟩ = false →
      ofParts memory source target (some ⟨Bytes.zeros source.capacity, file, false⟩) options =
        .ok s →
      History disk .resting s
  | resumed {stage left j memory source target file options s} : History disk stage left →
      left.journal = some j → source.Shows disk → target.contents = left.target.contents →
      sharesFile target ⟨j.bytes, file, true⟩ = false →
      ofParts memory source target (some ⟨j.bytes, file, true⟩) options = .ok s →
      History disk .resting s
  | fetch {s task copy} : History disk .resting s → s.copy.closed = false →
      s.copy.next = (some task, copy) →
      History disk (.fetched task ({ s with copy }.fetch task).1) ({ s with copy }.fetch task).2
  | store {s task reply} : History disk (.fetched task reply) s → (s.store task reply).1 = true →
      History disk (.stored task reply) (s.store task reply).2
  | enter {s task reply} : History disk (.stored task reply) s →
      History disk .resting (s.enter task reply true).2

variable {disk : Bytes} {s : CopySession} {j : Journal} {task : Task} {reply : Reply}
  {stage : Stage}

/-- A whole perform leads from rest to rest. -/
theorem History.perform (h : History disk .resting s)
    (hwrites : ∀ offset data, (s.target.writeAll offset data).1 = true) :
    History disk .resting s.perform.2 := by
  rcases hn : s.nextRead? with _ | task
  · rw [perform_of_none hn]
    exact h
  · obtain ⟨hopen, copy, hnext⟩ := exists_next_of_nextRead? hn
    have hwritten : (({ s with copy }.fetch task).2.store task ({ s with copy }.fetch task).1).1 =
        true := store_of_writeAll (hwrites _ _)
    have hentered := ((h.fetch hopen hnext).store hwritten).enter
    rwa [perform_of_some hopen hnext, hwritten]

/-- What a session at a stage knows of its journal, and what it holds of the task at hand. -/
def Stage.Fits (disk : Bytes) (s : CopySession) (j : Journal) : Stage → Prop
  | resting => s.Agrees j
  | fetched task reply => s.Awaits j task ∧ (reply.status.isFailure = false →
      reply.data = disk.range (task.lba * sectorBytes) (task.sectors * sectorBytes))
  | stored task reply => s.Awaits j task ∧ (reply.status.isFailure = false →
      ∀ lba, task.Spans lba → s.target.contents.HasSector disk lba)

/-- The invariant of a history: every sector of the image is missing or the disk's, and those that
the journal calls good are not missing. -/
structure Intact (disk : Bytes) (stage : Stage) (s : CopySession) (j : Journal) : Prop where
  fits : stage.Fits disk s j
  shows : s.source.Shows disk
  stop : s.copy.stop = disk.size / sectorBytes
  good : ∀ lba, j.status lba = some .readOk → s.target.contents.HasSector disk lba
  image : ∀ lba, s.target.contents.LacksSector lba ∨ s.target.contents.HasSector disk lba

theorem Intact.sectors (h : Intact disk stage s j) : j.sectors = disk.size / sectorBytes := by
  have hfits := h.fits
  rw [← h.stop]
  cases stage with
  | resting => exact Agrees.sectors hfits
  | fetched => exact hfits.1.sectors
  | stored => exact hfits.1.sectors

theorem Intact.journal (h : Intact disk stage s j) : s.journal = some j := by
  have hfits := h.fits
  cases stage with
  | resting => exact Agrees.journal hfits
  | fetched => exact hfits.1.journal
  | stored => exact hfits.1.journal

/-- The bytes of a task lie on the disk. -/
theorem Awaits.bytes_le (h : s.Awaits j task) (hstop : s.copy.stop = disk.size / sectorBytes) :
    task.lba * sectorBytes + task.sectors * sectorBytes ≤ disk.size := by
  have hpos := h.sectors_pos
  have hlast : task.lba + task.sectors - 1 < s.copy.stop :=
    h.lt_stop ⟨by omega, by omega⟩
  rw [hstop] at hlast
  simp only [sectorBytes] at hlast ⊢
  omega

theorem intact_ofParts {memory : Memory} {source : Source} {target : Target}
    {options : CopyOptions} (hopen : ofParts memory source target (some j) options = .ok s)
    (hshows : source.Shows disk)
    (hfresh : j.restored = false → j.bytes = Bytes.zeros j.sectors)
    (hsep : sharesFile target j = false)
    (hgood : ∀ lba, j.status lba = some .readOk → target.contents.HasSector disk lba)
    (himage : ∀ lba, target.contents.LacksSector lba ∨ target.contents.HasSector disk lba) :
    Intact disk .resting s j := by
  obtain ⟨-, htarget, hsource⟩ := ofParts_parts hopen
  obtain ⟨-, -, -, hstop, -⟩ := ofParts_eq_ok hopen
  refine ⟨agrees_ofParts hopen hfresh hsep, ?_, by rw [hstop, hshows.capacity], ?_, ?_⟩
  · rw [hsource]
    exact ⟨hshows.capacity, hshows.reading⟩
  · rwa [htarget]
  · rwa [htarget]

theorem Intact.fetch (h : Intact disk .resting s j) {copy : Copy}
    (hn : s.copy.next = (some task, copy)) :
    Intact disk (.fetched task ({ s with copy }.fetch task).1) ({ s with copy }.fetch task).2
      j := by
  have hawaits := Agrees.awaits h.fits hn
  obtain ⟨strategy, table, -, rfl⟩ := Copy.next_some hn
  refine ⟨⟨hawaits.fetch, fun hf => ?_⟩, ⟨h.shows.capacity, h.shows.reading⟩, h.stop, h.good,
    h.image⟩
  exact h.shows.reading _ _ _ (hawaits.bytes_le h.stop) hf

/-- The data of a good read come to lie where the disk has them. -/
theorem Intact.store (h : Intact disk (.fetched task reply) s j)
    (hwritten : (s.store task reply).1 = true) :
    Intact disk (.stored task reply) (s.store task reply).2 j := by
  obtain ⟨hawaits, hdata⟩ := h.fits
  cases hf : reply.status.isFailure with
  | true =>
    rw [store_of_isFailure hf]
    exact ⟨⟨hawaits, fun hgood => by simp [hf] at hgood⟩, h.shows, h.stop, h.good, h.image⟩
  | false =>
    obtain ⟨hfst, htarget⟩ := @store_of_not_isFailure s task reply hf
    have hle := hawaits.bytes_le h.stop
    have hcontents : (s.store task reply).2.target.contents =
        s.target.contents.writeAt (task.lba * sectorBytes) reply.data := by
      rw [htarget, Target.writeAll_contents (hfst.symm.trans hwritten)]
    rw [hdata hf] at hcontents
    have hsize := Bytes.size_range_of_le hle
    have hin {lba : Nat} (hx : task.Spans lba) :
        (s.store task reply).2.target.contents.HasSector disk lba := by
      rw [hcontents]
      exact Bytes.hasSector_writeAt_of_spans hle hx
    have hout {lba : Nat} (hx : ¬ task.Spans lba) (hold : s.target.contents.HasSector disk lba) :
        (s.store task reply).2.target.contents.HasSector disk lba := by
      rw [hcontents]
      exact hold.writeAt hx hsize
    refine ⟨⟨hawaits.store reply, fun _ lba hx => hin hx⟩, by simpa using h.shows,
      by simpa using h.stop, fun lba hlba => ?_, fun lba => ?_⟩
    · by_cases hx : task.Spans lba
      · exact hin hx
      · exact hout hx (h.good lba hlba)
    · by_cases hx : task.Spans lba
      · exact .inr (hin hx)
      · -- The image may grow over a sector that it lacked, which is zero then.
        refine (h.image lba).imp (fun hold => ?_) (hout hx)
        rw [hcontents]
        exact hold.writeAt hx hsize

/-- A sector is called good only when its data have been written. -/
theorem Intact.enter (h : Intact disk (.stored task reply) s j) :
    Intact disk .resting (s.enter task reply true).2
      (j.record task.lba task.sectors reply.status.isFailure) := by
  obtain ⟨hawaits, hstored⟩ := h.fits
  refine ⟨hawaits.enter reply true, h.shows, h.stop, fun lba hlba => ?_, h.image⟩
  by_cases hx : task.Spans lba
  · have hlt : lba < j.sectors := hawaits.sectors ▸ hawaits.lt_stop hx
    rw [Journal.status_record_of_mem hx hlt, Option.some.injEq] at hlba
    refine hstored ?_ lba hx
    rw [← SectorStatus.ofRead_isFailure reply.status.isFailure task.sectors, hlba]
    rfl
  · exact h.good lba (by rwa [Journal.status_record_of_not_mem hx] at hlba)

theorem History.intact (h : History disk stage s) : ∃ j, Intact disk stage s j := by
  induction h with
  | fresh hshows hempty hsep hopen =>
    refine ⟨_, intact_ofParts hopen hshows (by simp [Journal.sectors, Bytes.zeros]) hsep ?_ ?_⟩
    · intro lba hlba
      simp only [Journal.status, Bytes.zeros, Array.getElem?_replicate] at hlba
      split at hlba <;> simp [SectorStatus.ofByte?] at hlba
    · exact fun lba => .inl fun i _ => by simp [hempty]
  | resumed _ hj hshows hkept hsep hopen ih =>
    obtain ⟨k, hk⟩ := ih
    obtain rfl := Option.some.inj (hj.symm.trans hk.journal)
    exact ⟨_, intact_ofParts hopen hshows (by simp) hsep (hkept ▸ hk.good) (hkept ▸ hk.image)⟩
  | fetch _ _ hn ih =>
    obtain ⟨j, hj⟩ := ih
    exact ⟨j, hj.fetch hn⟩
  | store _ hwritten ih =>
    obtain ⟨j, hj⟩ := ih
    exact ⟨j, hj.store hwritten⟩
  | enter _ ih =>
    obtain ⟨j, hj⟩ := ih
    exact ⟨_, hj.enter⟩

/-- At every point of a history, in the midst of a perform too, a sector that the journal calls good
is in the image as it is on the disk, and any sector of the image is missing or the disk's. -/
theorem History.image_faithful (h : History disk stage s) :
    ∃ j, s.journal = some j ∧ j.sectors = disk.size / sectorBytes ∧
      (∀ lba, j.status lba = some .readOk → s.target.contents.HasSector disk lba) ∧
      ∀ lba, s.target.contents.LacksSector lba ∨ s.target.contents.HasSector disk lba := by
  obtain ⟨j, hj⟩ := h.intact
  exact ⟨j, hj.journal, hj.sectors, hj.good, hj.image⟩

/-- A session is killed when the only sector has been written but not entered. The next one reads it
again and calls it good. -/
theorem image_faithful_after_kill :
    let disk : Bytes := Array.replicate 512 7
    ∃ s j, History disk .resting s ∧ s.journal = some j ∧ j.status 0 = some .readOk ∧
      s.target.contents.HasSector disk 0 := by
  intro disk
  let source : Source := ⟨.posix, 1, fun _ lba count =>
    ⟨.ok, 0, disk.range (lba * sectorBytes) count⟩, none, none, ⟨0, 0, 0, 0⟩⟩
  let target (contents : Bytes) : Target := ⟨contents, none, fun _ _ count => some count, 0⟩
  have hshows : source.Shows disk := ⟨by simp [source, disk, sectorBytes], fun _ _ _ _ _ => rfl⟩
  have htakes (contents : Bytes) (offset : Nat) (data : Bytes) :
      ((target contents).writeAll offset data).1 = true := by
    by_cases hdata : data.size = 0
    · simp [Target.writeAll, hdata]
    · rw [Target.writeAll_of_accepts hdata rfl]
  have hfresh := @History.fresh disk .ofProcess source (target #[]) none .default _ hshows rfl rfl
    rfl
  have hfetched := @History.fetch disk _ ⟨0, 1, .forward⟩ _ hfresh rfl rfl
  have hkilled := hfetched.store (store_of_writeAll (htakes _ _ _))
  have hresumed := @History.resumed disk _ _ ⟨#[0], none, false⟩ .ofProcess source (target _) none
    .default _ hkilled (by rw [store_journal]; rfl) hshows rfl rfl rfl
  obtain ⟨k, hk⟩ := hresumed.intact
  obtain rfl : k = ⟨#[0], none, true⟩ := Option.some.inj (hk.journal.symm.trans rfl)
  have hjournal := (@Agrees.perform_noted _ _ ⟨0, 1, .forward⟩ hk.fits rfl).journal
  obtain ⟨j, hj, -, hgood, -⟩ := (hresumed.perform (htakes _)).image_faithful
  have hstatus : j.status 0 = some .readOk := by
    rw [Option.some.inj (hj.symm.trans hjournal)]
    rfl
  exact ⟨_, j, hresumed.perform (htakes _), hj, hstatus, hgood 0 hstatus⟩

/-- In one file with the image a new journal calls a sector good that was neither read nor
written. -/
theorem image_unfaithful_in_shared_file :
    let disk : Bytes := Array.replicate (300 * sectorBytes) 1
    ∃ s k, ofParts .ofProcess (onesSource 300) (sharedTarget #[])
        (some (sharedJournal (Bytes.zeros 300) false)) .default = .ok s ∧
      (onesSource 300).Shows disk ∧ s.perform.2.journal = some k ∧
      k.status 299 = some .readOk ∧ ¬ s.perform.2.target.contents.HasSector disk 299 := by
  intro disk
  have hopen : ofParts .ofProcess (onesSource 300) (sharedTarget #[])
      (some (sharedJournal (Bytes.zeros 300) false)) .default =
        .ok ⟨.ofTable .default 0 300 (.ofRange 0 300) ⟨0, 0, 0⟩, (onesSource 300).prepare,
          sharedTarget #[], some (sharedJournal (Bytes.zeros 300) false)⟩ := by
    simp [ofParts_eq, Copy.begin?, sharedJournal, onesSource, Journal.sectors, Bytes.zeros,
      CopyOptions.default, Except.bind]
  have hshows : (onesSource 300).Shows disk := by
    refine ⟨by simp [onesSource, disk, sectorBytes], fun k lba count hle _ => ?_⟩
    simp only [disk, Array.size_replicate] at hle
    simp [onesSource, disk, Bytes.range]
    omega
  have hwrite := @writeAll_sharedTarget #[] 0 (Array.replicate 131072 1) (by simp)
  refine ⟨_, ((sharedJournal (Bytes.zeros 300) false).overwrite 0 (Array.replicate 131072 1)).record
    0 256 false, hopen, hshows, @perform_journal_of_shared _ ⟨0, 256, .forward⟩ _
      (sharedJournal (Bytes.zeros 300) false) rfl rfl rfl rfl rfl hwrite, ?_, fun hhas => ?_⟩
  · have hbyte := @getElem?_record_overwrite_ones (sharedJournal (Bytes.zeros 300) false) 299 131072
      256 (by simp [sharedJournal, Journal.sectors, Bytes.zeros]) (by omega)
    rw [Journal.status, hbyte]
    rfl
  · obtain ⟨b, hb⟩ := hhas.isSome (show 0 < sectorBytes by decide)
    rw [@perform_target_of_good _ ⟨0, 256, .forward⟩ _ rfl rfl rfl] at hb
    have hshort : ((sharedTarget #[]).writeAll 0
        (Array.replicate 131072 1)).2.contents[299 * sectorBytes + 0]? = some b := hb
    rw [Target.writeAll_contents hwrite, Bytes.getElem?_writeAt (by simp), Array.size_replicate,
      if_neg (by decide), if_neg (by decide)] at hshort
    simp at hshort

end CopySession

end DriveRescue
