import DriveRescue.Proofs.Copy.Effects
import DriveRescue.Proofs.Journal.Mirror
import Mathlib.Logic.Function.Iterate

/-! A session's journal determines its zone table. Whatever the reads bring, the table that the
journal yields after a perform is the live one, so that nothing is lost with the process. -/
namespace DriveRescue

namespace Journal

structure IsUnreadRun (j : Journal) (start stop : Nat) (z : Zone) : Prop where
  nonempty : z.start < z.stop
  within : start ≤ z.start ∧ z.stop ≤ stop
  unread : ∀ x, z.start ≤ x → x < z.stop → j.bytes[x]? = some 0
  left : z.start = start ∨ j.bytes[z.start - 1]? ≠ some 0
  right : z.stop = stop ∨ j.bytes[z.stop]? ≠ some 0

theorem Mirrors.isUnreadRun {j : Journal} {start : Nat} {t : ZoneTable} (h : j.Mirrors start t)
    {z : Zone} (hz : z ∈ t.zones) : j.IsUnreadRun start j.sectors z := by
  have hpos := h.apart.1 z hz
  have hin {x : Nat} (hx : z.start ≤ x ∧ x < z.stop) : start ≤ x ∧ j.bytes[x]? = some 0 :=
    (h.covered x).mp ⟨z, hz, hx⟩
  obtain ⟨hright, hleft⟩ := h.apart.not_covered_beside hz
  rw [h.covered] at hright
  have hstart := (hin ⟨Nat.le_refl _, hpos⟩).1
  have hstop : z.stop - 1 < j.sectors :=
    (Array.getElem?_eq_some_iff.mp (hin (x := z.stop - 1) (by omega)).2).1
  refine ⟨hpos, ⟨hstart, by omega⟩, fun x hlo hhi => (hin ⟨hlo, hhi⟩).2, ?_, ?_⟩
  · by_cases heq : z.start = start
    · exact .inl heq
    · refine .inr fun h0 => hleft (by omega) ((h.covered _).mpr ⟨by omega, h0⟩)
  · exact .inr fun h0 => hright ⟨by omega, h0⟩

end Journal

namespace CopySession

/-- The session works on a journal that says the same as its table, and that lies in no file with
the image. -/
structure Agrees (s : CopySession) (j : Journal) : Prop where
  journal : s.journal = some j
  separate : sharesFile s.target j = false
  sectors : j.sectors = s.copy.stop
  mirrors : j.Mirrors s.copy.start s.copy.table

structure Awaits (s : CopySession) (j : Journal) (task : Task) : Prop where
  journal : s.journal = some j
  separate : sharesFile s.target j = false
  sectors : j.sectors = s.copy.stop
  due : ∃ (strategy : Strategy) (table : ZoneTable),
    strategy.next table = (.read task, s.copy.strategy, s.copy.table) ∧
      j.Mirrors s.copy.start table

variable {s : CopySession} {j : Journal} {task : Task} {reply : Reply}

theorem agrees_ofParts {memory : Memory} {source : Source} {target : Target}
    {options : CopyOptions} (h : ofParts memory source target (some j) options = .ok s)
    (hfresh : j.restored = false → j.bytes = Bytes.zeros j.sectors)
    (hsep : sharesFile target j = false) : s.Agrees j := by
  obtain ⟨hjournal, htarget, -⟩ := ofParts_parts h
  obtain ⟨hstart, hsize, hs, he, htable⟩ := ofParts_eq_ok h
  refine ⟨hjournal, by rwa [htarget], by rw [hsize, he], ?_⟩
  rw [hs, htable, ← hsize]
  split
  · exact j.mirrors_rebuild _
  · next hr => exact Journal.mirrors_ofRange (hfresh (by simpa using hr)) (by omega)

theorem Agrees.awaits (h : s.Agrees j) {copy : Copy} (hn : s.copy.next = (some task, copy)) :
    { s with copy }.Awaits j task := by
  obtain ⟨strategy, table, hstrategy, rfl⟩ := Copy.next_some hn
  exact ⟨h.journal, h.separate, h.sectors, _, _, hstrategy, h.mirrors⟩

theorem Awaits.fetch (h : s.Awaits j task) : (s.fetch task).2.Awaits j task :=
  ⟨h.journal, h.separate, h.sectors, h.due⟩

theorem Awaits.store (h : s.Awaits j task) (reply : Reply) :
    (s.store task reply).2.Awaits j task := by
  refine ⟨by simpa using h.journal, ?_, by simpa using h.sectors, by simpa using h.due⟩
  rw [sharesFile_congr store_file rfl]
  exact h.separate

/-- The entry brings the journal and the table back together. -/
theorem Awaits.enter (h : s.Awaits j task) (reply : Reply) (written : Bool) :
    (s.enter task reply written).2.Agrees
      (j.record task.lba task.sectors reply.status.isFailure) := by
  obtain ⟨strategy, table, hn, hmirrors⟩ := h.due
  refine ⟨enter_journal h.journal h.separate, h.separate, ?_, ?_⟩
  · rw [Journal.sectors_record]
    exact h.sectors
  · exact hmirrors.turn hn reply.status.isFailure

/-- A task is for unread sectors of the session's range. -/
theorem Awaits.unread (h : s.Awaits j task) {x : Nat} (hx : task.Spans x) :
    s.copy.start ≤ x ∧ j.bytes[x]? = some 0 := by
  obtain ⟨strategy, table, hn, hmirrors⟩ := h.due
  exact hmirrors.unread_of_spans hn hx

theorem Awaits.lt_stop (h : s.Awaits j task) {x : Nat} (hx : task.Spans x) : x < s.copy.stop := by
  rw [← h.sectors]
  exact (Array.getElem?_eq_some_iff.mp (h.unread hx).2).1

theorem Awaits.sectors_pos (h : s.Awaits j task) : 0 < task.sectors := by
  obtain ⟨strategy, table, hn, hmirrors⟩ := h.due
  obtain ⟨l, z, r, d, rfl, -, hp⟩ := Strategy.next_poised hn hmirrors.apart
  exact Zone.task_sectors_pos hp.nonempty d

def noted (s : CopySession) (task : Task) (j : Journal) : Journal :=
  j.record task.lba task.sectors (s.fetch task).1.status.isFailure

theorem Agrees.perform_noted (h : s.Agrees j) (hn : s.nextRead? = some task) :
    s.perform.2.Agrees (s.noted task j) := by
  obtain ⟨hopen, copy, hnext⟩ := exists_next_of_nextRead? hn
  have hawaits := (h.awaits hnext).fetch
  rw [perform_of_some hopen hnext]
  exact (hawaits.store _).enter _ _

theorem Agrees.perform (h : s.Agrees j) : ∃ k, s.perform.2.Agrees k := by
  rcases hn : s.nextRead? with _ | task
  · rw [perform_of_none hn]
    exact ⟨j, h⟩
  · exact ⟨_, h.perform_noted hn⟩

def after (n : Nat) (s : CopySession) : CopySession := (fun s => s.perform.2)^[n] s

theorem Agrees.after (h : s.Agrees j) (n : Nat) : ∃ k, (s.after n).Agrees k := by
  induction n with
  | zero => exact ⟨j, h⟩
  | succ n ih =>
    obtain ⟨k, hk⟩ := ih
    rw [CopySession.after, Function.iterate_succ_apply']
    exact hk.perform

theorem after_range (n : Nat) (s : CopySession) :
    (s.after n).copy.start = s.copy.start ∧ (s.after n).copy.stop = s.copy.stop := by
  induction n with
  | zero => exact ⟨rfl, rfl⟩
  | succ n ih =>
    rw [CopySession.after, Function.iterate_succ_apply']
    exact ⟨(perform_range _).1.trans ih.1, (perform_range _).2.trans ih.2⟩

/-- After any number of performs of a session over a fresh or a restored journal, the table that the
journal yields has the zones of the live table, in the same order and with at least their marks, and
the zones are the longest runs of unread sectors. -/
theorem rebuild_after_performs {memory : Memory} {source : Source} {target : Target}
    {options : CopyOptions} (hopen : ofParts memory source target (some j) options = .ok s)
    (hfresh : j.restored = false → j.bytes = Bytes.zeros j.sectors)
    (hsep : sharesFile target j = false) (n : Nat) :
    ∃ k, (s.after n).journal = some k ∧ k.sectors = source.capacity ∧
      List.Forall₂ Zone.MarkedAsIn (s.after n).copy.table.zones
        (k.rebuild options.startLba source.capacity).zones ∧
      (∀ z ∈ (s.after n).copy.table.zones, k.IsUnreadRun options.startLba source.capacity z) ∧
      ∀ x, options.startLba ≤ x → x < source.capacity →
        (Zone.Covered (s.after n).copy.table.zones x ↔ k.bytes[x]? = some 0) := by
  obtain ⟨k, hk⟩ := (agrees_ofParts hopen hfresh hsep).after n
  obtain ⟨-, -, hstart, hstop, -⟩ := ofParts_eq_ok hopen
  have hm := hk.mirrors
  have hsize := hk.sectors
  rw [(after_range n s).1, hstart] at hm
  rw [(after_range n s).2, hstop] at hsize
  refine ⟨k, hk.journal, hsize, hsize ▸ hm.forall₂_rebuild, fun z hz => hsize ▸ hm.isUnreadRun hz,
    fun x hlo _ => ?_⟩
  rw [hm.covered]
  exact and_iff_right hlo

/-- Of two zones beside a failed sector the lower one is read, fails, and is gone from both. -/
theorem rebuild_after_performs_restored :
    let source : Source := ⟨.posix, 4, fun _ _ _ => ⟨.uncorrectable, 0, #[]⟩, none, none,
      ⟨0, 0, 0, 0⟩⟩
    let target : Target := ⟨#[], none, fun _ _ count => some count, 0⟩
    let j : Journal := ⟨#[0, 2, 0, 0], none, true⟩
    ∃ s, ofParts .ofProcess source target (some j) .default = .ok s ∧ sharesFile target j = false ∧
      (s.after 1).copy.table.zones = [⟨2, 4, true, false⟩] ∧
      ∃ k, (s.after 1).journal = some k ∧
        List.Forall₂ Zone.MarkedAsIn (s.after 1).copy.table.zones (k.rebuild 0 4).zones := by
  intro source target j
  refine ⟨_, rfl, rfl, by decide +kernel, ?_⟩
  obtain ⟨k, hk, -, hzones, -⟩ :=
    @rebuild_after_performs _ j .ofProcess source target .default rfl (by simp [j]) rfl 1
  exact ⟨k, hk, hzones⟩

/-! A journal that lies in the file of the image itself. -/

def onesSource (sectors : Nat) : Source :=
  ⟨.posix, sectors, fun _ _ count => ⟨.ok, 0, Array.replicate count 1⟩, none, none, ⟨0, 0, 0, 0⟩⟩

def sharedTarget (contents : Bytes) : Target :=
  ⟨contents, some ["image"], fun _ _ count => some count, 0⟩

def sharedJournal (bytes : Bytes) (restored : Bool) : Journal :=
  ⟨bytes, some ⟨"image", ["image"]⟩, restored⟩

theorem writeAll_sharedTarget (contents : Bytes) (offset : Nat) {data : Bytes}
    (hdata : data.size ≠ 0) :
    ((sharedTarget contents).writeAll offset data).1 = true := by
  rw [Target.writeAll_of_accepts hdata rfl]

/-- Ones that go over the journal call every sector good that they reach. -/
theorem getElem?_record_overwrite_ones {x n count : Nat} (hx : x < j.sectors) (hn : x < n) :
    ((j.overwrite 0 (Array.replicate n 1)).record 0 count false).bytes[x]? = some 1 := by
  have hbyte : (j.overwrite 0 (Array.replicate n 1)).bytes[x]? = some 1 := by
    rw [Journal.overwrite, if_pos (by omega), Bytes.getElem?_resize, if_pos hx,
      Array.getD_eq_getD_getElem?, Bytes.getElem?_writeAt (by simp; omega), Array.size_replicate,
      if_pos (by omega), Array.getElem?_replicate, if_pos (by omega)]
    rfl
  rw [Journal.getElem?_record, hbyte]
  split <;> rfl

/-- The data of the first sector go over the journal. -/
theorem sharedJournal_perform :
    ∃ s, ofParts .ofProcess (onesSource 3) (sharedTarget #[0, 2, 0])
        (some (sharedJournal #[0, 2, 0] true)) .default = .ok s ∧
      (s.after 1).copy.table.zones = [⟨2, 3, true, false⟩] ∧
      ∃ k, (s.after 1).journal = some k ∧ ∀ x < 3, k.bytes[x]? = some 1 := by
  refine ⟨_, rfl, by decide +kernel, ?_⟩
  have hwrite := @writeAll_sharedTarget #[0, 2, 0] 0 (Array.replicate 512 1) (by simp)
  refine ⟨((sharedJournal #[0, 2, 0] true).overwrite 0 (Array.replicate 512 1)).record 0 1 false,
    @perform_journal_of_shared _ ⟨0, 1, .forward⟩ _ (sharedJournal #[0, 2, 0] true) rfl rfl rfl
      rfl rfl hwrite, fun x hx => ?_⟩
  exact getElem?_record_overwrite_ones hx (by omega)

/-- The copy still has a sector to read of which the journal says nothing any more. -/
theorem rebuild_differs_in_shared_file :
    ∃ s, ofParts .ofProcess (onesSource 3) (sharedTarget #[0, 2, 0])
        (some (sharedJournal #[0, 2, 0] true)) .default = .ok s ∧
      (s.after 1).copy.table.zones = [⟨2, 3, true, false⟩] ∧
      ∃ k, (s.after 1).journal = some k ∧ (k.rebuild 0 3).zones = [] := by
  obtain ⟨s, hopen, hlive, k, hk, hbytes⟩ := sharedJournal_perform
  refine ⟨s, hopen, hlive, k, hk, ?_⟩
  cases hzones : (k.rebuild 0 3).zones with
  | nil => rfl
  | cons z rest =>
    have hpos := (k.spaced_rebuild 0 3).1 z (by simp [hzones])
    have hcovered : Zone.Covered (k.rebuild 0 3).zones z.start := by simp [hzones, hpos]
    obtain ⟨-, hlt, hzero⟩ := (k.covered_rebuild 0 3 z.start).mp hcovered
    simp [hbytes _ hlt] at hzero

end CopySession

end DriveRescue
