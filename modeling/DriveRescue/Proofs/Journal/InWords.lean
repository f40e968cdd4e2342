import DriveRescue.Journal.Basic
import DriveRescue.Proofs.Zones.InWords

/-! Journals read in words. Whatever its bytes are, the sectors of a journal are counted and its
unread runs are found by numbers of sectors that it has. -/
namespace DriveRescue

namespace InWords

def addCount (c : JournalCounts) (b : UInt8) : Except Panic JournalCounts :=
  match SectorStatus.ofByte? b with
  | some .readOk => do return { c with readOk := ← add c.readOk 1 }
  | some .blockReadError | some .sectorReadError => do return { c with failed := ← add c.failed 1 }
  | _ => do return { c with unread := ← add c.unread 1 }

def countFrom : JournalCounts → List UInt8 → Except Panic JournalCounts
  | c, [] => return c
  | c, b :: rest => do countFrom (← addCount c b) rest

def counts (j : Journal) (start stop : Nat) : Except Panic JournalCounts :=
  let stop := min stop j.sectors
  if stop ≤ start then return ⟨0, 0, 0⟩
  else do
    let _wanted ← sub stop start
    countFrom ⟨0, 0, 0⟩ (j.bytes.extract start stop).toList

def unreadRuns : (opened : Option Nat) → (lba : Nat) → List UInt8 → Except Panic (List (Nat × Nat))
  | none, _, [] => return []
  | some start, lba, [] => return [(start, lba)]
  | none, lba, b :: rest => do unreadRuns (if b = 0 then some lba else none) (← add lba 1) rest
  | some start, lba, b :: rest => do
    let behind ← add lba 1
    if b = 0 then unreadRuns (some start) behind rest
    else return (start, lba) :: (← unreadRuns none behind rest)

def zoneOfRun (j : Journal) (run : Nat × Nat) : Except Panic Zone :=
  if 0 < run.1 then do
    return ⟨run.1, run.2, j.failedAt (← sub run.1 1), j.failedAt run.2⟩
  else return ⟨run.1, run.2, false, j.failedAt run.2⟩

def zonesOfRuns (j : Journal) : List (Nat × Nat) → Except Panic (List Zone)
  | [] => return []
  | run :: rest => do return (← zoneOfRun j run) :: (← zonesOfRuns j rest)

def rebuild (j : Journal) (start stop : Nat) : Except Panic ZoneTable :=
  let stop := min stop j.sectors
  if stop ≤ start then return .empty
  else do
    let _wanted ← sub stop start
    let runs ← unreadRuns none start (j.bytes.extract start stop).toList
    return .ofZones (← zonesOfRuns j runs)

variable {j : Journal} {start stop : Nat}

theorem addCount_eq {c : JournalCounts} (h : c.unread + c.readOk + c.failed + 1 < Text.wordBound)
    (b : UInt8) : addCount c b = .ok (c.add b) := by
  have hunread : c.unread + 1 < Text.wordBound := by omega
  have hreadOk : c.readOk + 1 < Text.wordBound := by omega
  have hfailed : c.failed + 1 < Text.wordBound := by omega
  unfold addCount JournalCounts.add
  cases SectorStatus.ofByte? b with
  | none => rw [add_eq hunread]; rfl
  | some status =>
    cases status with
    | unread => rw [add_eq hunread]; rfl
    | readOk => rw [add_eq hreadOk]; rfl
    | blockReadError => rw [add_eq hfailed]; rfl
    | sectorReadError => rw [add_eq hfailed]; rfl

theorem sum_add (c : JournalCounts) (b : UInt8) :
    (c.add b).unread + (c.add b).readOk + (c.add b).failed =
      c.unread + c.readOk + c.failed + 1 := by
  unfold JournalCounts.add
  cases SectorStatus.ofByte? b with
  | none => dsimp only; omega
  | some status => cases status <;> dsimp only <;> omega

theorem countFrom_eq {c : JournalCounts} {bytes : List UInt8}
    (h : c.unread + c.readOk + c.failed + bytes.length < Text.wordBound) :
    countFrom c bytes = .ok (bytes.foldl JournalCounts.add c) := by
  induction bytes generalizing c with
  | nil => rfl
  | cons b rest ih =>
    rw [List.length_cons] at h
    have hsum := sum_add c b
    rw [countFrom, addCount_eq (by omega), ok_bind, List.foldl_cons]
    exact ih (by omega)

theorem length_extract_le (j : Journal) (start stop : Nat) :
    start + (j.bytes.extract start (min stop j.sectors)).toList.length ≤ max start j.sectors := by
  unfold Journal.sectors
  rw [Array.length_toList, Array.size_extract]
  omega

theorem counts_eq (h : j.sectors < Text.wordBound) (start stop : Nat) :
    counts j start stop = .ok (j.counts start stop) := by
  have hlength := length_extract_le j start stop
  unfold counts Journal.counts
  dsimp only
  split
  · rfl
  · next hlt =>
    rw [sub_eq (by omega), ok_bind, countFrom_eq (by dsimp only; omega), Array.foldl_toList]

theorem unreadRuns_eq {opened : Option Nat} {lba : Nat} {bytes : List UInt8}
    (h : lba + bytes.length < Text.wordBound) :
    unreadRuns opened lba bytes = .ok (DriveRescue.unreadRuns opened lba bytes) := by
  induction bytes generalizing opened lba with
  | nil => cases opened <;> rfl
  | cons b rest ih =>
    rw [List.length_cons] at h
    have hbehind : lba + 1 < Text.wordBound := by omega
    have hrest (opened : Option Nat) : unreadRuns opened (lba + 1) rest =
        .ok (DriveRescue.unreadRuns opened (lba + 1) rest) := ih (by omega)
    cases opened with
    | none =>
      rw [unreadRuns, add_eq hbehind, ok_bind, hrest, DriveRescue.unreadRuns]
    | some start =>
      rw [unreadRuns, add_eq hbehind, ok_bind, hrest, hrest, DriveRescue.unreadRuns]
      split <;> rfl

theorem zoneOfRun_eq (j : Journal) (run : Nat × Nat) : zoneOfRun j run = .ok (j.zoneOfRun run) := by
  unfold zoneOfRun Journal.zoneOfRun
  by_cases hpos : 0 < run.1
  · rw [if_pos hpos, sub_eq hpos, ok_bind]
    simp [hpos]
  · rw [if_neg hpos]
    simp [hpos]

theorem zonesOfRuns_eq (j : Journal) (runs : List (Nat × Nat)) :
    zonesOfRuns j runs = .ok (runs.map j.zoneOfRun) := by
  induction runs with
  | nil => rfl
  | cons run rest ih =>
    rw [zonesOfRuns, zoneOfRun_eq, ok_bind, ih, ok_bind]
    rfl

theorem rebuild_eq (h : j.sectors < Text.wordBound) (start stop : Nat) :
    rebuild j start stop = .ok (j.rebuild start stop) := by
  have hlength := length_extract_le j start stop
  unfold rebuild Journal.rebuild
  dsimp only
  split
  · rfl
  · next hlt =>
    rw [sub_eq (by omega), ok_bind, unreadRuns_eq (by omega), ok_bind, zonesOfRuns_eq, ok_bind]
    rfl

end InWords

end DriveRescue
