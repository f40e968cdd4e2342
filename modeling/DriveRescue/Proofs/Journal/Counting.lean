import DriveRescue.Proofs.Journal.Mirror
import Mathlib.Algebra.BigOperators.Intervals
import Mathlib.Order.Interval.Finset.Nat

/-! How many sectors of a range a journal has of each kind, and what a record moves from one kind to
another. -/
namespace DriveRescue

namespace JournalCounts

def isGood (b : UInt8) : Bool := SectorStatus.ofByte? b == some .readOk

def isLost (b : UInt8) : Bool := (SectorStatus.ofByte? b).any (·.isFailure)

def isOpen (b : UInt8) : Bool := !isGood b && !isLost b

theorem add_eq (c : JournalCounts) (b : UInt8) :
    c.add b = ⟨c.unread + (isOpen b).toNat, c.readOk + (isGood b).toNat,
      c.failed + (isLost b).toNat⟩ := by
  unfold add isOpen isGood isLost
  cases SectorStatus.ofByte? b with
  | none => rfl
  | some status => cases status <;> rfl

theorem foldl_add (c : JournalCounts) (bytes : List UInt8) :
    bytes.foldl add c = ⟨c.unread + bytes.countP isOpen, c.readOk + bytes.countP isGood,
      c.failed + bytes.countP isLost⟩ := by
  induction bytes generalizing c with
  | nil => rfl
  | cons b rest ih =>
    rw [List.foldl_cons, ih, add_eq]
    simp only [List.countP_cons, mk.injEq]
    cases isOpen b <;> cases isGood b <;> cases isLost b <;> simp <;> omega

theorem isLost_ofRead (failed : Bool) (sectors : ℕ) :
    isLost (SectorStatus.ofRead failed sectors).byte = failed := by
  unfold isLost
  rw [SectorStatus.ofByte?_byte]
  exact SectorStatus.ofRead_isFailure failed sectors

theorem isGood_ofRead (failed : Bool) (sectors : ℕ) :
    isGood (SectorStatus.ofRead failed sectors).byte = !failed := by
  unfold isGood SectorStatus.ofRead
  rw [SectorStatus.ofByte?_byte]
  cases failed with
  | false => rfl
  | true =>
    rw [if_neg (by decide)]
    split <;> rfl

theorem isOpen_ofRead (failed : Bool) (sectors : ℕ) :
    isOpen (SectorStatus.ofRead failed sectors).byte = false := by
  unfold isOpen
  rw [isGood_ofRead, isLost_ofRead]
  cases failed <;> rfl

/-- Of the bytes that stand for a status only zero counts as none. -/
theorem isOpen_iff {b : UInt8} (h : b ≤ 3) : isOpen b = true ↔ b = 0 := by
  have hb : b = 0 ∨ b = 1 ∨ b = 2 ∨ b = 3 := by grind
  rcases hb with rfl | rfl | rfl | rfl <;> decide

def isUnknown (b : UInt8) : Bool := 3 < b

theorem isUnknown_eq_false_iff {b : UInt8} : isUnknown b = false ↔ b ≤ 3 := by
  grind [isUnknown]

theorem isOpen_of_isUnknown {b : UInt8} (h : isUnknown b = true) : isOpen b = true := by
  grind [isUnknown, isOpen, isGood, isLost, SectorStatus.ofByte?]

/-- What counts as none is the byte zero or stands for no status. -/
theorem toNat_isOpen (b : UInt8) :
    (isOpen b).toNat = (b == 0).toNat + (isUnknown b).toNat := by
  by_cases h : b ≤ 3
  · have hopen : isOpen b = (b == 0) := by grind [isOpen_iff h]
    rw [hopen, isUnknown_eq_false_iff.mpr h]
    rfl
  · have hunknown : isUnknown b = true := by grind [isUnknown]
    have hzero : (b == 0) = false := by grind
    rw [isOpen_of_isUnknown hunknown, hunknown, hzero]
    rfl

end JournalCounts

open JournalCounts Finset Zone

/-- Zones without a sector in common have as many as there are sectors in them. -/
theorem Zone.Spaced.unread_eq_card {zones : List Zone} (h : Spaced 0 zones) {within : Finset ℕ}
    (hwithin : ∀ x, x ∈ within ↔ Covered zones x) :
    (ZoneTable.mk zones none).unread = within.card := by
  induction zones generalizing within with
  | nil =>
    have hnone : within = ∅ := eq_empty_of_forall_notMem fun x => by simp [hwithin]
    rw [hnone, card_empty]
    rfl
  | cons z rest ih =>
    obtain ⟨-, hgap, hrest⟩ := spaced_cons.mp h
    have hown : Ico z.start z.stop ⊆ within := by
      intro x hx
      rw [hwithin, covered_cons]
      exact .inl (mem_Ico.mp hx)
    have hothers : ∀ x, x ∈ within \ Ico z.start z.stop ↔ Covered rest x := by
      intro x
      rw [mem_sdiff, hwithin, covered_cons, mem_Ico]
      constructor
      · rintro ⟨hx | hx, hnot⟩
        · exact absurd hx hnot
        · exact hx
      · intro hx
        refine ⟨.inr hx, fun hin => ?_⟩
        obtain ⟨w, hw, hlo, -⟩ := hx
        have := hgap w hw
        omega
    rw [ZoneTable.unread_cons, ih hrest hothers, Zone.len, ← Nat.card_Ico, Nat.add_comm,
      card_sdiff_add_card_eq_card hown]

/-- Bytes that are counted one by one stand at the places of a range. -/
theorem countP_eq_sum (p : UInt8 → Bool) (bytes : List UInt8) (start : ℕ) :
    bytes.countP p =
      ∑ x ∈ Ico start (start + bytes.length), (bytes[x - start]?.any p).toNat := by
  induction bytes generalizing start with
  | nil => simp
  | cons b rest ih =>
    have hlt : start < start + (b :: rest).length := by simp
    have hlen : start + (b :: rest).length = start + 1 + rest.length := by
      rw [List.length_cons]
      omega
    rw [sum_eq_sum_Ico_succ_bot hlt, hlen, List.countP_cons, ih (start + 1), Nat.add_comm]
    congr 1
    · rw [Nat.sub_self, List.getElem?_cons_zero, Option.any_some]
      cases p b <;> rfl
    · apply sum_congr rfl
      intro x hx
      have hx := (mem_Ico.mp hx).1
      rw [List.getElem?_cons, if_neg (by omega), Nat.sub_sub]

namespace Journal

/-- How many sectors of a range have a byte of the kind. -/
def number (j : Journal) (kind : UInt8 → Bool) (start stop : ℕ) : ℕ :=
  ∑ x ∈ Ico start stop, (j.bytes[x]?.any kind).toNat

variable {j : Journal} {start stop lba sectors : ℕ} {t : ZoneTable}

theorem number_eq_card (j : Journal) (kind : UInt8 → Bool) (start stop : ℕ) :
    j.number kind start stop = ((Ico start stop).filter fun x => j.bytes[x]?.any kind).card := by
  unfold number
  rw [card_filter]
  apply sum_congr rfl
  intro x _
  cases j.bytes[x]?.any kind <;> rfl

/-- Beyond its last sector a journal has none of any kind. -/
theorem number_min (j : Journal) (kind : UInt8 → Bool) (start stop : ℕ) :
    j.number kind start (min stop j.sectors) = j.number kind start stop := by
  unfold number
  apply sum_subset
  · exact Ico_subset_Ico_right (Nat.min_le_left ..)
  · intro x hx hbeyond
    rw [mem_Ico] at hx hbeyond
    unfold Journal.sectors at hbeyond
    rw [Array.getElem?_eq_none (by omega)]
    rfl

theorem number_eq_zero_iff {kind : UInt8 → Bool} :
    j.number kind start stop = 0 ↔
      ∀ x, start ≤ x → x < stop → ∀ b, j.bytes[x]? = some b → kind b = false := by
  unfold number
  simp only [sum_eq_zero_iff, mem_Ico, Bool.toNat_eq_zero]
  constructor
  · intro h x hlo hhi b hb
    simpa [hb] using h x ⟨hlo, hhi⟩
  · intro h x ⟨hlo, hhi⟩
    cases hb : j.bytes[x]? with
    | none => rfl
    | some b => exact h x hlo hhi b hb

theorem number_isOpen (j : Journal) (start stop : ℕ) :
    j.number isOpen start stop = j.number (· == 0) start stop + j.number isUnknown start stop := by
  unfold number
  rw [← sum_add_distrib]
  apply sum_congr rfl
  intro x _
  cases j.bytes[x]? with
  | none => rfl
  | some b => exact toNat_isOpen b

theorem counts_eq (h : stop ≤ j.sectors) :
    j.counts start stop =
      ⟨j.number isOpen start stop, j.number isGood start stop, j.number isLost start stop⟩ := by
  unfold counts
  rw [Nat.min_eq_left h]
  dsimp only
  split
  · next hle => simp [number, Ico_eq_empty_of_le hle]
  · next hlt =>
    have hsize : start + (j.bytes.extract start stop).toList.length = stop := by
      unfold Journal.sectors at h
      rw [Array.length_toList, Array.size_extract]
      omega
    have hnumber (kind : UInt8 → Bool) :
        (j.bytes.extract start stop).toList.countP kind = j.number kind start stop := by
      rw [countP_eq_sum kind _ start, hsize]
      apply sum_congr rfl
      intro x hx
      obtain ⟨hlo, hhi⟩ := mem_Ico.mp hx
      unfold Journal.sectors at h
      rw [Array.getElem?_toList, Array.getElem?_extract, if_pos (by omega),
        Nat.add_sub_cancel' hlo]
    rw [← Array.foldl_toList, foldl_add]
    simp only [Nat.zero_add, hnumber]

theorem counts_min (j : Journal) (start stop : ℕ) :
    j.counts start (min stop j.sectors) = j.counts start stop := by
  unfold counts
  rw [Nat.min_assoc, Nat.min_self]

/-- The counts depend on the bytes alone. -/
theorem counts_congr {k : Journal} (h : j.bytes = k.bytes) (start stop : ℕ) :
    j.counts start stop = k.counts start stop := by
  unfold counts Journal.sectors
  rw [h]

/-- Every sector of a range is of one kind. -/
theorem counts_sum (start : ℕ) (h : stop ≤ j.sectors) :
    (j.counts start stop).unread + (j.counts start stop).readOk + (j.counts start stop).failed =
      stop - start := by
  rw [counts_eq h]
  simp only [number, ← sum_add_distrib]
  have hone : ∀ x ∈ Ico start stop, (j.bytes[x]?.any isOpen).toNat +
      (j.bytes[x]?.any isGood).toNat + (j.bytes[x]?.any isLost).toNat = 1 := by
    intro x hx
    have hx := (mem_Ico.mp hx).2
    unfold Journal.sectors at h
    rw [Array.getElem?_eq_getElem (by omega)]
    simp only [Option.any_some, isOpen, isGood, isLost]
    cases SectorStatus.ofByte? j.bytes[x] with
    | none => rfl
    | some status => cases status <;> rfl
  rw [sum_const_nat hone, Nat.card_Ico, Nat.mul_one]

/-- A record of sectors that had the byte zero gives them another kind, and no others. -/
theorem number_record (kind : UInt8 → Bool) (hlo : start ≤ lba) (hhi : lba + sectors ≤ stop)
    (hzero : ∀ x, lba ≤ x ∧ x < lba + sectors → j.bytes[x]? = some 0) (failed : Bool) :
    (j.record lba sectors failed).number kind start stop + sectors * (kind 0).toNat =
      j.number kind start stop +
        sectors * (kind (SectorStatus.ofRead failed sectors).byte).toNat := by
  have hmid : lba ≤ lba + sectors := Nat.le_add_right ..
  have hkept (x : ℕ) (hx : ¬ (lba ≤ x ∧ x < lba + sectors)) :
      (j.record lba sectors failed).bytes[x]? = j.bytes[x]? := by
    rw [getElem?_record, if_neg (by tauto)]
  have hnew (x : ℕ) (hx : lba ≤ x ∧ x < lba + sectors) :
      (j.record lba sectors failed).bytes[x]? =
        some (SectorStatus.ofRead failed sectors).byte := by
    have hsize : x < j.sectors := (Array.getElem?_eq_some_iff.mp (hzero x hx)).1
    rw [getElem?_record, if_pos ⟨hx.1, hx.2, hsize⟩]
  have hsplit (k : Journal) : k.number kind start stop =
      k.number kind start lba + k.number kind lba (lba + sectors) +
        k.number kind (lba + sectors) stop := by
    unfold number
    rw [sum_Ico_consecutive _ hlo hmid, sum_Ico_consecutive _ (hlo.trans hmid) hhi]
  have hbelow : (j.record lba sectors failed).number kind start lba =
      j.number kind start lba := by
    apply sum_congr rfl
    intro x hx
    have hx := (mem_Ico.mp hx).2
    rw [hkept x (by omega)]
  have habove : (j.record lba sectors failed).number kind (lba + sectors) stop =
      j.number kind (lba + sectors) stop := by
    apply sum_congr rfl
    intro x hx
    have hx := (mem_Ico.mp hx).1
    rw [hkept x (by omega)]
  have hconst (k : Journal) (b : UInt8)
      (hk : ∀ x, lba ≤ x ∧ x < lba + sectors → k.bytes[x]? = some b) :
      k.number kind lba (lba + sectors) = sectors * (kind b).toNat := by
    unfold number
    have hall : ∀ x ∈ Ico lba (lba + sectors), (k.bytes[x]?.any kind).toNat = (kind b).toNat := by
      intro x hx
      rw [hk x (mem_Ico.mp hx), Option.any_some]
    rw [sum_const_nat hall, Nat.card_Ico, Nat.add_sub_cancel_left]
  rw [hsplit, hsplit j, hbelow, habove, hconst _ _ hnew, hconst _ _ hzero]
  omega

/-- A record takes sectors that no read had before out of the open ones, and adds them to the good
or to the lost ones. -/
theorem counts_record (hlo : start ≤ lba) (hhi : lba + sectors ≤ stop) (hstop : stop ≤ j.sectors)
    (hzero : ∀ x, lba ≤ x ∧ x < lba + sectors → j.bytes[x]? = some 0) (failed : Bool) :
    ((j.record lba sectors failed).counts start stop).unread + sectors =
        (j.counts start stop).unread ∧
      ((j.record lba sectors failed).counts start stop).readOk =
        (if failed then (j.counts start stop).readOk else (j.counts start stop).readOk + sectors) ∧
      ((j.record lba sectors failed).counts start stop).failed =
        if failed then (j.counts start stop).failed + sectors
        else (j.counts start stop).failed := by
  have hnumber kind := number_record kind hlo hhi hzero failed
  have hopen := hnumber isOpen
  have hgood := hnumber isGood
  have hlost := hnumber isLost
  rw [isOpen_ofRead, show isOpen 0 = true from rfl] at hopen
  rw [isGood_ofRead, show isGood 0 = false from rfl] at hgood
  rw [isLost_ofRead, show isLost 0 = false from rfl] at hlost
  rw [counts_eq hstop, counts_eq (by rwa [sectors_record])]
  cases failed <;> simp only [Bool.toNat_true, Bool.toNat_false, Bool.not_true, Bool.not_false,
    Nat.mul_zero, Nat.mul_one, Nat.add_zero] at hopen hgood hlost <;> simp [hopen, hgood, hlost]

/-- Of the sectors that a journal counts as unread, those with the byte zero make up the zones. The
others stand for no status and lie in no zone. -/
theorem counts_unread_eq (h : Spaced 0 t.zones)
    (hcovered : ∀ x, Covered t.zones x ↔ start ≤ x ∧ x < stop ∧ j.bytes[x]? = some 0) :
    (j.counts start stop).unread = t.unread + j.number isUnknown start stop := by
  have hzero (x : ℕ) : x ∈ (Ico start stop).filter (fun x => j.bytes[x]?.any (· == 0)) ↔
      Covered t.zones x := by
    rw [mem_filter, mem_Ico, hcovered, and_assoc]
    cases j.bytes[x]? <;> simp
  have hzones : t.unread = j.number (· == 0) start stop :=
    calc t.unread
        = (ZoneTable.mk t.zones none).unread := ZoneTable.unread_congr rfl
      _ = j.number (· == 0) start stop := by rw [h.unread_eq_card hzero, number_eq_card]
  calc (j.counts start stop).unread
      = (j.counts start (min stop j.sectors)).unread := by rw [counts_min]
    _ = j.number isOpen start stop := by rw [counts_eq (Nat.min_le_right ..), number_min]
    _ = t.unread + j.number isUnknown start stop := by rw [number_isOpen, hzones]

theorem counts_unread_rebuild (j : Journal) (start stop : ℕ) :
    (j.counts start stop).unread =
      (j.rebuild start stop).unread + j.number isUnknown start stop :=
  counts_unread_eq (j.consistent_rebuild start stop).spaced (j.covered_rebuild start stop)

theorem Mirrors.counts_unread (h : j.Mirrors start t) :
    (j.counts start j.sectors).unread = t.unread + j.number isUnknown start j.sectors := by
  refine counts_unread_eq h.consistent.spaced fun x => ?_
  rw [h.covered]
  constructor
  · rintro ⟨hlo, hx⟩
    exact ⟨hlo, (Array.getElem?_eq_some_iff.mp hx).1, hx⟩
  · rintro ⟨hlo, -, hx⟩
    exact ⟨hlo, hx⟩

/-- A table that says the same as the journal has as many unread sectors as the journal counts. -/
theorem Mirrors.unread_eq (h : j.Mirrors start t) (hknown : ∀ b ∈ j.bytes, b ≤ 3) :
    t.unread = (j.counts start j.sectors).unread := by
  have hnone : j.number isUnknown start j.sectors = 0 := by
    rw [number_eq_zero_iff]
    intro x _ _ b hb
    exact isUnknown_eq_false_iff.mpr (hknown b (Array.mem_of_getElem? hb))
  rw [h.counts_unread, hnone, Nat.add_zero]

end Journal

end DriveRescue
