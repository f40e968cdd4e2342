import DriveRescue.Journal.Opening
import DriveRescue.Proofs.Journal.Mirror
import Mathlib.Data.List.Induction

/-! What a journal's file brings to the next run. A sector has the status of the last record whose
range reaches it, and a journal that is opened again finds each sector as it was left. -/
namespace DriveRescue

namespace Journal

structure Entry where
  lba : Nat
  sectors : Nat
  failed : Bool

/-- The range of `sectors` sectors from `lba` on, cut off behind `total` sectors. A range without an
end among the words goes on to the last of them. -/
def clamp (total lba sectors : Nat) : Nat × Nat :=
  (min lba total, min (min (lba + sectors) (Text.wordBound - 1)) total)

namespace Entry

def status (e : Entry) : SectorStatus := .ofRead e.failed e.sectors

/-- The clamped range has the sector in it. -/
def Reaches (e : Entry) (total x : Nat) : Prop :=
  (clamp total e.lba e.sectors).1 ≤ x ∧ x < (clamp total e.lba e.sectors).2

instance (e : Entry) (total x : Nat) : Decidable (e.Reaches total x) :=
  inferInstanceAs (Decidable (_ ∧ _))

/-- Files are so short that no end among their bytes is beyond the words. -/
theorem reaches_iff {e : Entry} {total x : Nat} (h : total < Text.wordBound) :
    e.Reaches total x ↔ (e.lba ≤ x ∧ x < e.lba + e.sectors) ∧ x < total := by
  unfold Reaches clamp
  dsimp only
  omega

end Entry

def recordAll (j : Journal) (entries : List Entry) : Journal :=
  entries.foldl (fun j e => j.record e.lba e.sectors e.failed) j

def lastReaching? (total : Nat) (entries : List Entry) (x : Nat) : Option Entry :=
  (entries.filter fun e => e.Reaches total x).getLast?

/-- What the records say of a sector. -/
def statusBy (total : Nat) (entries : List Entry) (x : Nat) : SectorStatus :=
  ((lastReaching? total entries x).map Entry.status).getD .unread

variable {j : Journal} {total x : Nat}

theorem recordAll_concat (j : Journal) (entries : List Entry) (e : Entry) :
    j.recordAll (entries ++ [e]) = (j.recordAll entries).record e.lba e.sectors e.failed := by
  unfold recordAll
  rw [List.foldl_append]
  rfl

/-- The journal stays in its file, with a byte for each sector. -/
theorem recordAll_keeps (j : Journal) (entries : List Entry) :
    (j.recordAll entries).file = j.file ∧ (j.recordAll entries).sectors = j.sectors := by
  induction entries using List.reverseRecOn with
  | nil => exact ⟨rfl, rfl⟩
  | append_singleton entries e ih =>
    rw [recordAll_concat, sectors_record]
    exact ih

theorem statusBy_concat (total : Nat) (entries : List Entry) (e : Entry) (x : Nat) :
    statusBy total (entries ++ [e]) x =
      if e.Reaches total x then e.status else statusBy total entries x := by
  unfold statusBy lastReaching?
  rw [List.filter_append]
  by_cases h : e.Reaches total x
  · rw [if_pos h, List.filter_cons_of_pos (by simpa using h), List.filter_nil,
      List.getLast?_append]
    rfl
  · rw [if_neg h, List.filter_cons_of_neg (by simpa using h), List.filter_nil, List.append_nil]

theorem status_of_le (h : j.sectors ≤ x) : j.status x = none := by
  unfold status
  rw [Array.getElem?_eq_none h]
  rfl

theorem status_of_zeros (h : j.bytes = Bytes.zeros total) (hx : x < total) :
    j.status x = some .unread := by
  unfold status
  rw [h, Bytes.zeros, Array.getElem?_replicate, if_pos hx]
  rfl

/-- A journal that began with unread sectors says what the records say. -/
theorem status_recordAll (h : j.bytes = Bytes.zeros total) (htotal : total < Text.wordBound)
    (entries : List Entry) (hx : x < total) :
    (j.recordAll entries).status x = some (statusBy total entries x) := by
  have hsize : j.sectors = total := by
    unfold sectors
    rw [h]
    exact Array.size_replicate
  induction entries using List.reverseRecOn with
  | nil => exact status_of_zeros h hx
  | append_singleton entries e ih =>
    rw [recordAll_concat, statusBy_concat]
    by_cases hreach : e.Reaches total x
    · rw [if_pos hreach]
      have hin := (Entry.reaches_iff htotal).mp hreach
      apply status_record_of_mem hin.1
      rw [(recordAll_keeps j entries).2, hsize]
      exact hx
    · rw [if_neg hreach]
      have hout : ¬ (e.lba ≤ x ∧ x < e.lba + e.sectors) := fun hin =>
        hreach ((Entry.reaches_iff htotal).mpr ⟨hin, hx⟩)
      rw [status_record_of_not_mem hout]
      exact ih

/-- A journal that a file holds is found again by a source of as many sectors, and by no other. -/
theorem openOrCreate_of_held {files : FileTree} {path : String} {key : List String} {bytes : Bytes}
    (hfile : files.stat path = .ok (key, .file bytes)) (hpos : bytes.size ≠ 0) :
    openOrCreate files path bytes.size = (.ok ⟨bytes, some ⟨path, key⟩, true⟩, files) ∧
      ∀ other, other ≠ 0 → other ≠ bytes.size →
        openOrCreate files path other = (.error (.journalSize other bytes.size), files) := by
  constructor
  · rw [openOrCreate_of_file hpos hfile, if_pos rfl]
  · intro other hother hne
    rw [openOrCreate_of_file hother hfile, if_neg (Ne.symm hne)]

/-- After any records in a new journal, a sector has the status of the last record whose clamped
range reaches it. The journal that is opened once more says the same of every sector, and a source
of another size is refused with both sizes, the file left as it is. -/
theorem records_survive_reopening {files made : FileTree} {path : String}
    (hopen : openOrCreate files path total = (.ok j, made)) (hnew : j.restored = false)
    (entries : List Entry) :
    let noted := j.recordAll entries
    let left := noted.save made
    (∀ x, noted.status x = if x < total then some (statusBy total entries x) else none) ∧
    (∃ again, openOrCreate left path total = (.ok again, left) ∧ again.restored = true ∧
      ∀ x, again.status x = noted.status x) ∧
    ∀ other, other ≠ 0 → other ≠ total →
      openOrCreate left path other = (.error (.journalSize other total), left) := by
  intro noted left
  have hcreated := (openOrCreate_cases hopen).resolve_right fun ⟨_, _, _, _, hj, _⟩ => by
    simp [hj] at hnew
  obtain ⟨key, hfree, rfl, rfl, hlength⟩ := hcreated
  obtain ⟨hfile, hsectors⟩ := recordAll_keeps ⟨Bytes.zeros total, some ⟨path, key⟩, false⟩ entries
  have hsize : noted.bytes.size = total := hsectors.trans Array.size_replicate
  have hword : total < Text.wordBound := FileTree.lt_wordBound_of_lengthFault? hlength
  have hpos : total ≠ 0 := by
    rintro rfl
    simp [openOrCreate] at hopen
  have hleft : left = files.put key (.file noted.bytes) := by
    have hkey := FileTree.locate_free (FileTree.locate_of_locateNew hfree)
    have hlookup := files.lookup_put hkey (.file (Bytes.zeros total)) key
    rw [if_pos rfl] at hlookup
    show noted.save _ = _
    rw [save_of_file hfile hlookup hsectors.symm, FileTree.put_put]
  have hstat : left.stat path = .ok (key, .file noted.bytes) := by
    rw [hleft]
    exact FileTree.stat_put_of_locateNew_free noted.bytes hfree
  have hheld := openOrCreate_of_held hstat (by rwa [hsize])
  rw [hsize] at hheld
  refine ⟨fun x => ?_, ⟨_, hheld.1, rfl, fun x => rfl⟩, hheld.2⟩
  split
  · next hx => exact status_recordAll rfl hword entries hx
  · next hx =>
    apply status_of_le
    rw [show noted.sectors = total from hsize]
    exact Nat.le_of_not_lt hx

/-- Records that overlap, that go on behind the last sector, even to an end beyond the words, and
that begin behind it. -/
theorem records_survive_reopening_overlapping :
    let entries : List Journal.Entry :=
      [⟨2, 4, true⟩, ⟨0, 3, false⟩, ⟨4, 1, true⟩, ⟨7, 2 ^ 64 - 1, true⟩, ⟨8, 1, false⟩]
    ∃ j made, openOrCreate ⟨[], []⟩ "j" 8 = (.ok j, made) ∧ j.restored = false ∧
      (List.range 9).map (j.recordAll entries).status =
        [some .readOk, some .readOk, some .readOk, some .blockReadError, some .sectorReadError,
          some .blockReadError, some .unread, some .blockReadError, none] ∧
      (∃ again, openOrCreate ((j.recordAll entries).save made) "j" 8 =
          (.ok again, (j.recordAll entries).save made) ∧
        again.restored = true ∧ ∀ x, again.status x = (j.recordAll entries).status x) ∧
      openOrCreate ((j.recordAll entries).save made) "j" 9 =
        (.error (.journalSize 9 8), (j.recordAll entries).save made) := by
  intro entries
  have hnone : FileTree.stat ⟨[], []⟩ "j" = .error .notFound := rfl
  have hmade : FileTree.openOrCreate ⟨[], []⟩ "j" false =
      .ok (["j"], .file #[], FileTree.put ⟨[], []⟩ ["j"] (.file #[])) := rfl
  have hopen := openOrCreate_of_notFound (by decide : 8 ≠ 0) hnone hmade (by decide)
  obtain ⟨hstatus, hagain, hother⟩ := records_survive_reopening hopen rfl entries
  refine ⟨_, _, hopen, rfl, ?_, hagain, hother 9 (by decide) (by decide)⟩
  rw [funext hstatus]
  decide

end Journal

end DriveRescue
