import DriveRescue.Proofs.Strategy.Consumption
import DriveRescue.Proofs.Strategy.Probing
import DriveRescue.Proofs.Zones.InWords

/-! Strategies computed in words. The middle of a zone and the end of a leap lie inside the zone,
so that a strategy whose leaps are words finds its task as it does without them. -/
namespace DriveRescue

/-- The length of a leap is a word. -/
def Strategy.LeapsInWords : Strategy → Prop
  | .skipFail _ skipBlocks => skipBlocks * blockSectors < Text.wordBound
  | _ => True

namespace InWords

def longest? : List Zone → Except Panic (Option (Nat × Nat))
  | [] => return none
  | z :: rest => do
    let n ← len z
    match ← longest? rest with
    | none => return some (0, n)
    | some (i, m) => if m ≤ n then return some (0, n) else return some (← add i 1, m)

def probeMiddle? (t : ZoneTable) : Except Panic (Option ZoneTable) := do
  match ← longest? t.zones with
  | none => return none
  | some (i, n) =>
    if n ≤ indivisibleSectors then return none
    else match t.zones[i]? with
      | none => return none
      | some z => do
        let cut ← alignDown (← add z.start (n / 2))
        match ← split? t i cut with
        | none => return none
        | some (upper, t) => return some (t.select upper .forward)

/-- Carves zone `z` at the end of a leap into it. The end is reckoned for a full table too, which is
not carved. -/
def land? (t : ZoneTable) (full : Bool) (skip i : Nat) (z : Zone) :
    Except Panic (Option (Nat × ZoneTable)) := do
  let n ← len z
  if skip < n then do
    let cut ← alignDown (← add z.start skip)
    if full then return none else carve? t i cut
  else return none

def leap? (t : ZoneTable) (reverse full : Bool) (skip : Nat) :
    Nat → List Zone → Except Panic (Option ZoneTable)
  | _, [] => return none
  | i, z :: rest =>
    if !z.startDefective then return some (t.select i .forward)
    else if reverse && !z.stopDefective && !rest.isEmpty then return some (t.select i .backward)
    else do
      let carved ← land? t full skip i z
      match carved with
      | some (upper, t) =>
        return some (if reverse then t.select i .backward else t.select upper .forward)
      | none => leap? t reverse full skip (← add i 1) rest

def choose : Strategy → ZoneTable → Except Panic (Strategy × ZoneTable)
  | .plain, t => return (.plain, t.select 0 .forward)
  | .smart reverse true, t => return (.smart reverse true, t.select 0 .forward)
  | .smart reverse false, t =>
    match t.cleanBorder? reverse with
    | some c => return (.smart reverse false, t.select c.index c.direction)
    | none => do
      match ← probeMiddle? t with
      | some t => return (.smart reverse false, t)
      | none => do
        let _ ← unread t
        return (.smart reverse true, t.select 0 .forward)
  | .skipFail reverse skipBlocks, t => do
    let _last ← sub t.size 1
    let skip ← mul skipBlocks blockSectors
    match ← leap? t reverse t.isFull skip 0 t.zones with
    | some t => return (.skipFail reverse skipBlocks, t)
    | none => return (.skipFail reverse skipBlocks, if t.isFull then t.select 0 .forward else t)

def next (s : Strategy) (t : ZoneTable) : Except Panic (Next × Strategy × ZoneTable) := do
  match ← currentTask? t with
  | some task => return (.read task, s, t)
  | none =>
    if t.isEmpty then return (.done, s, t)
    else do
      let (s, t) ← choose s t
      return ((← currentTask? t).elim .unresolved .read, s, t)

def settle (s : Strategy) (t : ZoneTable) (task : Task) (failed : Bool) :
    Except Panic (Verdict × ZoneTable) := do
  let t ← consume t task failed
  return (if failed && s == .plain then .abort else .proceed,
    if failed && s.leavesOnFailure then t.release else t)

variable {s : Strategy} {t : ZoneTable} {zones : List Zone} {stop : Nat}

theorem longest?_eq (hnonempty : ∀ z ∈ zones, z.start < z.stop)
    (hlength : zones.length < Text.wordBound) :
    longest? zones = .ok (ZoneTable.longest? zones) := by
  induction zones with
  | nil => rfl
  | cons z rest ih =>
    have hz : z.start ≤ z.stop := Nat.le_of_lt (hnonempty z (by simp))
    rw [List.length_cons] at hlength
    have hrest := ih (fun w hw => hnonempty w (by simp [hw])) (by omega)
    rw [longest?, len_eq hz, ok_bind, hrest, ok_bind, ZoneTable.longest?]
    cases hfound : ZoneTable.longest? rest with
    | none => rfl
    | some found =>
      obtain ⟨i, m⟩ := found
      obtain ⟨⟨w, hw, -⟩, -⟩ := ZoneTable.longest?_eq_some hfound
      have hi : i < rest.length := (List.getElem?_eq_some_iff.mp hw).1
      dsimp only
      split
      · rfl
      · rw [add_eq (by omega), ok_bind]
        rfl

theorem probeMiddle?_eq (hstop : Addressable stop) (h : t.Below stop) :
    probeMiddle? t = .ok t.probeMiddle? := by
  have hsize := h.consistent.size_le_unread
  have hunread := h.unread_le
  have hlength : t.zones.length < Text.wordBound := by
    apply hstop.lt_word
    show t.size ≤ stop + blockSectors
    omega
  rw [probeMiddle?, longest?_eq h.consistent.spaced.1 hlength, ok_bind, ZoneTable.probeMiddle?]
  cases hlongest : ZoneTable.longest? t.zones with
  | none => rfl
  | some found =>
    obtain ⟨i, n⟩ := found
    obtain ⟨⟨z, hz, rfl⟩, -⟩ := ZoneTable.longest?_eq_some hlongest
    have hmem := List.mem_of_getElem? hz
    have hnonempty := h.consistent.spaced.1 z hmem
    have hle := h.stop_le z hmem
    have hi : i < t.size := (List.getElem?_eq_some_iff.mp hz).1
    have hhalf : z.start + z.len / 2 ≤ stop := by
      unfold Zone.len
      omega
    have hcut : DriveRescue.alignDown (z.start + z.len / 2) ≤ stop :=
      Nat.le_trans (alignDown_le _) hhalf
    have hmiddle : z.start + z.len / 2 < Text.wordBound := hstop.lt_word (by omega)
    dsimp only [Option.bind_some]
    split
    · rfl
    · simp only [hz, Option.bind_some, add_eq hmiddle, alignDown_eq, split?_eq hstop h hcut,
        ok_bind, pure_eq_ok]
      cases t.split? i (DriveRescue.alignDown (z.start + z.len / 2)) with
      | none => rfl
      | some halved => rfl

theorem land?_eq (hstop : Addressable stop) (h : t.Below stop) {z : Zone} (hz : z ∈ t.zones)
    (full : Bool) (skip i : Nat) :
    land? t full skip i z = .ok (if skip < z.len && !full then
      t.carve? i (DriveRescue.alignDown (z.start + skip)) else none) := by
  rw [land?, len_eq (Nat.le_of_lt (h.consistent.spaced.1 z hz)), ok_bind]
  by_cases hskip : skip < z.len
  · have hle := h.stop_le z hz
    have hend : z.start + skip < Text.wordBound := by
      apply hstop.lt_word
      unfold Zone.len at hskip
      omega
    rw [if_pos hskip, add_eq hend, ok_bind, alignDown_eq, ok_bind, carve?_eq hstop h]
    cases full <;> simp [hskip]
  · simp [hskip]

theorem leap?_eq (hstop : Addressable stop) (h : t.Below stop) {reverse full : Bool} {skip : Nat}
    {i : Nat} (hi : i + zones.length = t.zones.length) (hzones : ∀ z ∈ zones, z ∈ t.zones) :
    leap? t reverse full skip i zones = .ok (t.leap? reverse full skip i zones) := by
  induction zones generalizing i with
  | nil => rfl
  | cons z rest ih =>
    have hmem := hzones z (by simp)
    have hsize := h.consistent.size_le_unread
    have hunread := h.unread_le
    have hbehind : i + 1 < Text.wordBound := by
      apply hstop.lt_word
      simp only [ZoneTable.size, List.length_cons] at hsize hi
      omega
    have hrest : leap? t reverse full skip (i + 1) rest =
        .ok (t.leap? reverse full skip (i + 1) rest) := by
      apply ih
      · rw [List.length_cons] at hi
        omega
      · exact fun w hw => hzones w (by simp [hw])
    rw [leap?, ZoneTable.leap?]
    split
    · rfl
    · split
      · rfl
      · rw [land?_eq hstop h hmem, ok_bind]
        cases (if skip < z.len && !full then
          t.carve? i (DriveRescue.alignDown (z.start + skip)) else none) with
        | none =>
          dsimp only
          rw [add_eq hbehind, ok_bind]
          exact hrest
        | some carved => rfl

theorem choose_eq (hstop : Addressable stop) (h : t.Below stop) (hleaps : s.LeapsInWords)
    (hsome : t.zones ≠ []) : choose s t = .ok (s.choose t) := by
  cases s with
  | plain => rfl
  | smart reverse fallback =>
    cases fallback with
    | true => rfl
    | false =>
      rw [choose, Strategy.choose]
      cases t.cleanBorder? reverse with
      | some c => rfl
      | none =>
        dsimp only
        rw [probeMiddle?_eq hstop h, ok_bind]
        cases t.probeMiddle? with
        | some t' => rfl
        | none =>
          dsimp only
          rw [unread_eq hstop h, ok_bind]
          rfl
  | skipFail reverse skipBlocks =>
    have hpos : 1 ≤ t.size := List.length_pos_iff.mpr hsome
    rw [choose, Strategy.choose, sub_eq hpos, ok_bind, mul_eq hleaps, ok_bind,
      Strategy.skipSectors_of_lt hleaps,
      leap?_eq hstop h (Nat.zero_add _) (fun _ hz => hz), ok_bind]
    cases t.leap? reverse t.isFull (skipBlocks * blockSectors) 0 t.zones with
    | some t' => rfl
    | none => rfl

/-- The step lemma of asking for a task. -/
theorem next_eq (hstop : Addressable stop) (h : t.Below stop) (hleaps : s.LeapsInWords) :
    next s t = .ok (s.next t) := by
  have hafter := (s.consistent_next h.consistent).spaced.1
  rw [next, currentTask?_eq h.consistent.spaced.1, ok_bind]
  unfold Strategy.next at hafter ⊢
  cases htask : t.currentTask? with
  | some task => rfl
  | none =>
    simp only [htask] at hafter ⊢
    by_cases hempty : t.isEmpty = true
    · rw [if_pos hempty, if_pos hempty]
      rfl
    · rw [if_neg hempty] at hafter ⊢
      rw [if_neg hempty]
      have hsome : t.zones ≠ [] := by simpa [ZoneTable.isEmpty] using hempty
      rw [choose_eq hstop h hleaps hsome, ok_bind, currentTask?_eq hafter, ok_bind]
      rfl

example : next (.skipFail true (2 ^ 56)) ⟨[⟨0, 600, true, true⟩], none⟩ = .error .overflow := by
  rfl

/-- The step lemma of taking in an outcome. -/
theorem settle_eq (hstop : Addressable stop) (h : t.Below stop) (s : Strategy) (task : Task)
    (failed : Bool) : settle s t task failed = .ok (s.settle t task failed) := by
  rw [settle, consume_eq hstop h, ok_bind]
  rfl

end InWords

namespace ZoneTable

variable {s s' : Strategy} {t t' : ZoneTable} {task : Task} {stop : Nat}

theorem Below.next (h : t.Below stop) (s : Strategy) : (s.next t).2.2.Below stop where
  consistent := s.consistent_next h.consistent
  stop_le := s.forall_zones_next h.stop_le fun _ _ hz _ hhi =>
    ⟨Nat.le_trans (Nat.le_of_lt hhi) hz, hz⟩
  unread_le := by
    rw [s.unread_next]
    exact h.unread_le

/-- A task has sectors, a block of them at most, and they lie below where the zones do. -/
theorem Below.task_le (h : t.Below stop) (hn : s.next t = (.read task, s', t')) :
    0 < task.sectors ∧ task.sectors ≤ blockSectors ∧ task.lba + task.sectors ≤ stop := by
  have hafter := h.next s
  rw [hn] at hafter
  obtain ⟨l, z, r, d, rfl, hr, hp⟩ := Strategy.next_poised hn h.consistent.spaced
  have hle := hafter.stop_le z (by simp [hr.zones])
  have hpos := Zone.task_sectors_pos hp.nonempty d
  have hlast := Zone.contains_of_task_spans (d := d) (x := (z.task d).lba + (z.task d).sectors - 1)
    hp.nonempty ⟨by omega, by omega⟩
  refine ⟨hpos, ?_, by omega⟩
  rw [Zone.task_sectors]
  exact Nat.min_le_right ..

/-- What a turn leaves of the zones lies where they did. -/
theorem Below.turn (h : t.Below stop) (hn : s.next t = (.read task, s', t')) (failed : Bool) :
    (s'.settle t' task failed).2.Below stop := by
  have hunread := Strategy.unread_turn hn h.consistent failed
  have hless := h.unread_le
  have hafter := h.next s
  rw [hn] at hafter
  refine ⟨(Strategy.Reaches.turn failed .start hn).consistent h.consistent, ?_, by omega⟩
  obtain ⟨l, z, r, d, rfl, hr, hp⟩ := Strategy.next_poised hn h.consistent.spaced
  have hzones := hafter.stop_le
  simp only [hr.zones, List.forall_mem_append, List.forall_mem_cons] at hzones
  obtain ⟨hl, hz, hright⟩ := hzones
  intro w hw
  rw [Strategy.settle_zones] at hw
  rcases hr.mem_consume hp.nonempty hw with rfl | hw
  · cases d with
    | forward => rwa [Zone.after_forward]
    | backward =>
      rw [Zone.after_backward]
      exact Nat.le_trans (Nat.sub_le ..) hz
  · rcases List.mem_append.mp hw with hw | hw
    · exact hl w hw
    · exact hright w hw

end ZoneTable

end DriveRescue
