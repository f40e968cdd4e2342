import DriveRescue.Proofs.Strategy.GivingUp
import DriveRescue.Proofs.Strategy.Retracing
import Mathlib.Data.List.TakeWhile

/-! The stages of a strategy that leaps. It is to look for a clean border through the whole table
and to leap only where there is none, while its scan decides zone by zone. On the tables of a run
that began with a single zone the two agree, since a zone longer than a leap is always the last. -/
namespace DriveRescue

namespace Zone

def cleanEnd? (z : Zone) (downwards : Bool) : Option Direction :=
  if !z.startDefective then some .forward
  else if downwards && !z.stopDefective then some .backward
  else none

variable {z : Zone} {downwards : Bool} {l r : List Zone}

theorem cleanEnd?_eq_none_iff : z.cleanEnd? downwards = none ↔
    z.startDefective = true ∧ (downwards = true → z.stopDefective = true) := by
  cases hstart : z.startDefective <;> cases hstop : z.stopDefective <;> cases downwards <;>
    simp [cleanEnd?, hstart, hstop]

theorem cleanEnd?_eq_some {d : Direction} (h : z.cleanEnd? downwards = some d) :
    (d = .forward ∧ z.startDefective = false) ∨
      (d = .backward ∧ downwards = true ∧ z.startDefective = true ∧ z.stopDefective = false) := by
  unfold cleanEnd? at h
  split at h
  · next hstart => exact .inl ⟨(Option.some.inj h).symm, by simpa using hstart⟩
  · next hstart =>
    split at h
    · next hborder =>
      simp only [Bool.and_eq_true, Bool.not_eq_eq_eq_not, Bool.not_true] at hborder
      exact .inr ⟨(Option.some.inj h).symm, hborder.1, by simpa using hstart, hborder.2⟩
    · simp at h

/-- None of `zones` has a clean border to be read from. The stop of the last one does not count. -/
def Marked (reverse : Bool) (zones : List Zone) : Prop :=
  ∀ l z r, zones = l ++ z :: r →
    z.startDefective = true ∧ (reverse = true → r ≠ [] → z.stopDefective = true)

variable {reverse full : Bool} {skip : Nat} {zones : List Zone}

theorem Marked.stuck (h : Marked reverse zones) (hz : zones = l ++ z :: r)
    (hshort : full = true ∨ z.len ≤ skip) : z.Stuck (reverse && !r.isEmpty) full skip := by
  obtain ⟨hstart, hstop⟩ := h l z r hz
  refine ⟨hstart, fun hdown => ?_, hshort.imp_right .inl⟩
  obtain ⟨hreverse, hr⟩ := stop_counts_iff.mp hdown
  exact hstop hreverse hr

theorem Marked.passedOver (h : Marked reverse zones)
    (hshort : ∀ z ∈ zones, full = true ∨ z.len ≤ skip) : PassedOver reverse full skip zones := by
  intro l z r hz
  exact h.stuck hz (hshort z (by simp [hz]))

theorem Marked.stuck_below (h : Marked reverse zones) (hz : zones = l ++ z :: r) {w : Zone}
    (hw : w ∈ l) (hshort : full = true ∨ w.len ≤ skip) : w.Stuck reverse full skip := by
  obtain ⟨l₁, l₂, rfl⟩ := List.append_of_mem hw
  have hstuck := h.stuck (l := l₁) (z := w) (r := l₂ ++ z :: r) (by simp [hz]) hshort
  have hrest : (l₂ ++ z :: r).isEmpty = false := by simp
  rwa [hrest, Bool.not_false, Bool.and_true] at hstuck

theorem forall_dropLast_append_cons {p : Zone → Prop} :
    (∀ w ∈ (l ++ z :: r).dropLast, p w) ↔
      (∀ w ∈ l, p w) ∧ (r ≠ [] → p z) ∧ ∀ w ∈ r.dropLast, p w := by
  rw [List.dropLast_append_of_ne_nil (List.cons_ne_nil z r), List.forall_mem_append]
  cases r with
  | nil => simp
  | cons w r => simp

end Zone

namespace ZoneTable

/-- The first of `zones` with a clean border is read from there. They stand in the table from index
`i` on, and the last one is never read downwards. -/
def readCleanEnd? (t : ZoneTable) (reverse : Bool) : Nat → List Zone → Option (Next × ZoneTable)
  | _, [] => none
  | i, z :: rest =>
    match z.cleanEnd? (reverse && !rest.isEmpty) with
    | some d => some (.read (z.task d), t.select i d)
    | none => readCleanEnd? t reverse (i + 1) rest

/-- The first zone longer than a leap is cut where the leap comes down. The part below the cut is
read from there if reading downwards is allowed, else the part above. -/
def leapIntoLong? (t : ZoneTable) (reverse : Bool) (skip : Nat) : Option (Next × ZoneTable) :=
  match t.zones.dropWhile (·.len ≤ skip) with
  | [] => none
  | z :: rest =>
    let short := t.zones.takeWhile (·.len ≤ skip)
    let cut := alignDown (z.start + skip)
    let zones := short ++ z.leading cut :: z.trailing cut :: rest
    some (if reverse then
        (.read ((z.leading cut).task .backward), ⟨zones, some ⟨short.length, .backward⟩⟩)
      else (.read ((z.trailing cut).task .forward), ⟨zones, some ⟨short.length + 1, .forward⟩⟩))

/-- What a strategy that leaps is to do with a table that has no zone selected: to read from a clean
border, else to leap into a long zone, else to give up. A full table is swept in place of the last
two. -/
def nextInStages (t : ZoneTable) (reverse : Bool) (skip : Nat) : Next × ZoneTable :=
  match t.zones with
  | [] => (.done, t)
  | first :: _ =>
    match t.readCleanEnd? reverse 0 t.zones with
    | some answer => answer
    | none =>
      if t.size < maxZones then (t.leapIntoLong? reverse skip).getD (.unresolved, t)
      else (.read (first.task .forward), t.select 0 .forward)

/-- Every zone below the last is within a leap. -/
def ShortBelowLast (t : ZoneTable) (skip : Nat) : Prop := ∀ z ∈ t.zones.dropLast, z.len ≤ skip

variable {t u : ZoneTable} {reverse : Bool} {skip : Nat} {l r : List Zone} {z : Zone}
  {d : Direction}

theorem readCleanEnd?_cases (t : ZoneTable) (reverse : Bool) (i : Nat) (zones : List Zone) :
    (∃ l z r d, zones = l ++ z :: r ∧
        (∀ w ∈ l, w.startDefective = true ∧ (reverse = true → w.stopDefective = true)) ∧
        z.cleanEnd? (reverse && !r.isEmpty) = some d ∧
        t.readCleanEnd? reverse i zones =
          some (.read (z.task d), t.select (i + l.length) d)) ∨
      (Zone.Marked reverse zones ∧ t.readCleanEnd? reverse i zones = none) := by
  induction zones generalizing i with
  | nil => exact .inr ⟨by simp [Zone.Marked], rfl⟩
  | cons w rest ih =>
    cases hw : w.cleanEnd? (reverse && !rest.isEmpty) with
    | some d => exact .inl ⟨[], w, rest, d, rfl, by simp, hw, by simp [readCleanEnd?, hw]⟩
    | none =>
      have hscan : t.readCleanEnd? reverse i (w :: rest) =
          t.readCleanEnd? reverse (i + 1) rest := by simp only [readCleanEnd?, hw]
      obtain ⟨hstart, hstop⟩ := Zone.cleanEnd?_eq_none_iff.mp hw
      rw [Zone.stop_counts_iff, and_imp] at hstop
      rcases ih (i + 1) with ⟨l, z, r, d, rfl, hl, hz, hread⟩ | ⟨hall, hnone⟩
      · refine .inl ⟨w :: l, z, r, d, rfl, ?_, hz, ?_⟩
        · intro v hv
          rcases List.mem_cons.mp hv with rfl | hv
          · exact ⟨hstart, fun hdown => hstop hdown (by simp)⟩
          · exact hl v hv
        · rw [hscan, hread, List.length_cons, Nat.add_assoc, Nat.add_comm 1]
      · refine .inr ⟨fun l z r hz => ?_, hscan.trans hnone⟩
        cases l with
        | nil =>
          obtain ⟨rfl, rfl⟩ := List.cons.inj hz
          exact ⟨hstart, hstop⟩
        | cons v l => exact hall l z r (List.cons.inj hz).2

theorem leapIntoLong?_cases (t : ZoneTable) (reverse : Bool) (skip : Nat) :
    (∃ l z r, t.zones = l ++ z :: r ∧ (∀ w ∈ l, w.len ≤ skip) ∧ skip < z.len ∧
        t.leapIntoLong? reverse skip = some (if reverse then
            (.read ((z.leading (z.landing skip)).task .backward),
              ⟨l ++ z.leading (z.landing skip) :: z.trailing (z.landing skip) :: r,
                some ⟨l.length, .backward⟩⟩)
          else (.read ((z.trailing (z.landing skip)).task .forward),
            ⟨l ++ z.leading (z.landing skip) :: z.trailing (z.landing skip) :: r,
              some ⟨l.length + 1, .forward⟩⟩))) ∨
      ((∀ z ∈ t.zones, z.len ≤ skip) ∧ t.leapIntoLong? reverse skip = none) := by
  cases hdrop : t.zones.dropWhile (·.len ≤ skip) with
  | nil =>
    refine .inr ⟨fun z hz => ?_, by simp only [leapIntoLong?, hdrop]⟩
    exact of_decide_eq_true (List.dropWhile_eq_nil_iff.mp hdrop z hz)
  | cons z r =>
    have hzones := t.zones.takeWhile_append_dropWhile (p := (·.len ≤ skip))
    have hlong := t.zones.head?_dropWhile_not (·.len ≤ skip)
    rw [hdrop] at hzones hlong
    refine .inl ⟨t.zones.takeWhile (·.len ≤ skip), z, r, hzones.symm, fun w hw => ?_, ?_, ?_⟩
    · simpa using List.mem_takeWhile_imp hw
    · simpa using hlong
    · simp only [leapIntoLong?, hdrop, Zone.landing]

/-- A range makes one zone at most, so that none is below the last. -/
theorem shortBelowLast_ofRange (start stop skip : Nat) :
    (ofRange start stop).ShortBelowLast skip := by
  have hlen : (ofRange start stop).zones.length ≤ 1 := List.length_filter_le ..
  have hnone : (ofRange start stop).zones.dropLast = [] := by
    apply List.eq_nil_of_length_eq_zero
    rw [List.length_dropLast]
    omega
  simp [ShortBelowLast, hnone]

theorem ShortBelowLast.cut (h : t.ShortBelowLast skip) (hz : t.zones = l ++ z :: r)
    (hu : u.zones = l ++ z.leading (z.landing skip) :: z.trailing (z.landing skip) :: r)
    (hlo : z.start < z.landing skip) : u.ShortBelowLast skip := by
  rw [ShortBelowLast, hz, Zone.forall_dropLast_append_cons] at h
  obtain ⟨hl, hlen, hr⟩ := h
  have hleading := z.leading_landing_len_le skip
  rw [ShortBelowLast, hu, List.append_cons, Zone.forall_dropLast_append_cons]
  refine ⟨?_, fun hne => ?_, hr⟩
  · rw [List.forall_mem_append]
    exact ⟨hl, by simpa using hleading⟩
  · have := hlen hne
    simp only [Zone.trailing, Zone.len] at this ⊢
    omega

theorem ShortBelowLast.consume (h : t.ShortBelowLast skip) (hr : t.Reading l z r d)
    (hz : z.start < z.stop) (failed : Bool) :
    (t.consume (z.task d) failed).ShortBelowLast skip := by
  rw [ShortBelowLast, hr.zones, Zone.forall_dropLast_append_cons] at h
  obtain ⟨hl, hlen, habove⟩ := h
  rw [ShortBelowLast, hr.consume hz]
  split
  · cases r with
    | nil =>
      intro w hw
      rw [List.append_nil] at hw
      exact hl w (List.dropLast_subset l hw)
    | cons v r =>
      rw [List.dropLast_append_of_ne_nil (List.cons_ne_nil v r), List.forall_mem_append]
      exact ⟨hl, habove⟩
  · rw [Zone.forall_dropLast_append_cons]
    have hafter := Zone.after_len hz d failed
    refine ⟨hl, fun hne => ?_, habove⟩
    have := hlen hne
    omega

end ZoneTable

namespace Strategy

variable {s s' : Strategy} {t t' t₀ : ZoneTable} {task : Task} {made : List Attempt}
  {reverse : Bool} {skipBlocks start stop : Nat} {l r : List Zone} {z : Zone} {d : Direction}

theorem shortBelowLast_choose (reverse : Bool)
    (h : t.ShortBelowLast (skipSectors skipBlocks)) :
    ((skipFail reverse skipBlocks).choose t).2.ShortBelowLast (skipSectors skipBlocks) := by
  rcases choose_skipFail_cases reverse skipBlocks t with ⟨u, hleapt, hc⟩ | ⟨-, hc⟩ | ⟨-, -, hc⟩
  · rw [hc]
    cases hleapt with
    | upwards _ _ _ _ _ _ hu => exact hu ▸ h
    | downwards _ _ _ _ _ _ _ _ _ hu => exact hu ▸ h
    | leap _ _ _ hz _ _ hlo _ hu => exact h.cut hz (congrArg ZoneTable.zones hu) hlo
  · rw [hc]
    exact h
  · rw [hc]
    exact h

theorem shortBelowLast_turn (hn : (skipFail reverse skipBlocks).next t = (.read task, s', t'))
    (hc : t.Consistent) (h : t.ShortBelowLast (skipSectors skipBlocks)) (failed : Bool) :
    (s'.settle t' task failed).2.ShortBelowLast (skipSectors skipBlocks) := by
  have ht' : t'.ShortBelowLast (skipSectors skipBlocks) := by
    obtain ⟨-, ⟨-, -, rfl⟩ | ⟨-, -, hchoose⟩⟩ := next_eq_read hn
    · exact h
    · have hkept := shortBelowLast_choose reverse h
      rwa [hchoose] at hkept
  obtain ⟨l, z, r, d, rfl, hr, hp⟩ := next_poised hn hc.spaced
  rw [ZoneTable.ShortBelowLast, settle_zones]
  exact ht'.consume hr hp.nonempty failed

theorem Reaches.shortBelowLast (h : Reaches (skipFail reverse skipBlocks) t₀ made s t)
    (hc : t₀.Consistent) (h₀ : t₀.ShortBelowLast (skipSectors skipBlocks)) :
    t.ShortBelowLast (skipSectors skipBlocks) := by
  induction h with
  | start => exact h₀
  | turn failed hreach hn ih =>
    obtain rfl := eq_skipFail_of_restart hreach.restart
    exact shortBelowLast_turn hn (hreach.consistent hc) ih failed

/-- The scan comes to the first clean border, unless it may leap before. -/
theorem next_skipFail_of_cleanEnd (hnone : t.currentTask? = none) (hz : t.zones = l ++ z :: r)
    (hl : ∀ w ∈ l, w.Stuck reverse t.isFull (skipSectors skipBlocks))
    (hd : z.cleanEnd? (reverse && !r.isEmpty) = some d) :
    (skipFail reverse skipBlocks).next t =
      (.read (z.task d), skipFail reverse skipBlocks, t.select l.length d) := by
  have hchoose : (skipFail reverse skipBlocks).choose t =
      (skipFail reverse skipBlocks, t.select l.length d) := by
    rcases Zone.cleanEnd?_eq_some hd with ⟨rfl, hstart⟩ | ⟨rfl, hdown, hstart, hstop⟩
    · exact choose_skipFail_upwards hz hl hstart
    · obtain ⟨rfl, hr⟩ := Zone.stop_counts_iff.mp hdown
      exact choose_skipFail_downwards hz hl hstart hstop hr
  have hr : (t.select l.length d).Reading l z r d := ⟨hz, rfl⟩
  rw [next_of_currentTask? _ (by simp [hz]) hnone, hchoose, hr.currentTask?, Option.elim_some]

theorem next_skipFail_of_leap (hnone : t.currentTask? = none) (hz : t.zones = l ++ z :: r)
    (hl : ∀ w ∈ l, w.Stuck reverse false (skipSectors skipBlocks)) (hroom : t.isFull = false)
    (hstart : z.startDefective = true)
    (hstop : reverse = true → r ≠ [] → z.stopDefective = true)
    (hlong : skipSectors skipBlocks < z.len) (hlo : z.start < z.landing (skipSectors skipBlocks)) :
    (skipFail reverse skipBlocks).next t =
      (let cut := z.landing (skipSectors skipBlocks)
      let zones := l ++ z.leading cut :: z.trailing cut :: r
      if reverse then (.read ((z.leading cut).task .backward), skipFail reverse skipBlocks,
        ⟨zones, some ⟨l.length, .backward⟩⟩)
      else (.read ((z.trailing cut).task .forward), skipFail reverse skipBlocks,
        ⟨zones, some ⟨l.length + 1, .forward⟩⟩)) := by
  rw [next_of_currentTask? _ (by simp [hz]) hnone,
    choose_skipFail_leap hz hl hroom hstart hstop hlong hlo]
  cases reverse <;> simp [ZoneTable.currentTask?]

/-- A full table without a clean border is swept. -/
theorem next_skipFail_of_full {first : Zone} (hnone : t.currentTask? = none)
    (hfull : t.isFull = true) (hz : t.zones = first :: r)
    (hpassed : Zone.PassedOver reverse true (skipSectors skipBlocks) t.zones) :
    (skipFail reverse skipBlocks).next t =
      (.read (first.task .forward), skipFail reverse skipBlocks, t.select 0 .forward) := by
  have hscan : t.leap? reverse t.isFull (skipSectors skipBlocks) 0 t.zones = none := by
    rw [hfull]
    exact @ZoneTable.leap?_of_passedOver t reverse true _ [] t.zones rfl hpassed
  have hchoose : (skipFail reverse skipBlocks).choose t =
      (skipFail reverse skipBlocks, t.select 0 .forward) := by
    simp only [choose, hscan, if_pos hfull]
  have hr : (t.select 0 .forward).Reading [] first r .forward := ⟨hz, rfl⟩
  rw [next_of_currentTask? _ (by simp [hz]) hnone, hchoose, hr.currentTask?, Option.elim_some]

/-- A table without a clean border to read from is leapt into, left alone or swept. -/
theorem next_skipFail_of_marked {blocks : Nat} (hblocks : 1 ≤ blocks)
    (hskip : skipSectors blocks = blocks * blockSectors) (hnone : t.currentTask? = none)
    {first : Zone} {rest : List Zone} (hzones : t.zones = first :: rest)
    (hmarked : Zone.Marked reverse t.zones) :
    (((skipFail reverse blocks).next t).1, ((skipFail reverse blocks).next t).2.2) =
      if t.size < maxZones then (t.leapIntoLong? reverse (skipSectors blocks)).getD (.unresolved, t)
      else (.read (first.task .forward), t.select 0 .forward) := by
  have hne : t.zones ≠ [] := by simp [hzones]
  by_cases hroom : t.size < maxZones
  · rw [if_pos hroom]
    rw [← ZoneTable.isFull_eq_false_iff] at hroom
    rcases t.leapIntoLong?_cases reverse (skipSectors blocks) with
      ⟨l, z, r, hz, hl, hlong, hleaps⟩ | ⟨hshort, hstays⟩
    · have hlo : z.start < z.landing (skipSectors blocks) := hskip ▸ z.start_lt_landing hblocks
      have hstuck (w : Zone) (hw : w ∈ l) : w.Stuck reverse false (skipSectors blocks) :=
        hmarked.stuck_below hz hw (.inr (hl w hw))
      obtain ⟨hstart, hstop⟩ := hmarked l z r hz
      rw [next_skipFail_of_leap hnone hz hstuck hroom hstart hstop hlong hlo, hleaps,
        Option.getD_some]
      cases reverse <;> rfl
    · have hpassed : Zone.PassedOver reverse false (skipSectors blocks) t.zones :=
        hmarked.passedOver fun z hz => .inr (hshort z hz)
      rw [next_skipFail_of_passedOver hne hnone hroom hpassed, hstays, Option.getD_none]
  · rw [if_neg hroom]
    rw [← ZoneTable.isFull_eq_false_iff, Bool.not_eq_false] at hroom
    have hpassed : Zone.PassedOver reverse true (skipSectors blocks) t.zones :=
      hmarked.passedOver fun _ _ => .inl rfl
    rw [next_skipFail_of_full hnone hroom hzones hpassed]

/-- Where only the last zone may be long, the scan does what its stages would. -/
theorem next_skipFail_eq_nextInStages {blocks : Nat} (hblocks : 1 ≤ blocks)
    (hskip : skipSectors blocks = blocks * blockSectors) (hnone : t.currentTask? = none)
    (h : t.ShortBelowLast (skipSectors blocks)) :
    (((skipFail reverse blocks).next t).1, ((skipFail reverse blocks).next t).2.2) =
      t.nextInStages reverse (skipSectors blocks) := by
  cases hzones : t.zones with
  | nil =>
    simp [next, hnone, ZoneTable.isEmpty, hzones, ZoneTable.nextInStages]
  | cons first rest =>
    rcases t.readCleanEnd?_cases reverse 0 t.zones with ⟨l, z, r, d, hz, hl, hd, hread⟩ |
      ⟨hmarked, hread⟩
    · have hstuck : ∀ w ∈ l, w.Stuck reverse t.isFull (skipSectors blocks) := by
        rw [ZoneTable.ShortBelowLast, hz, Zone.forall_dropLast_append_cons] at h
        intro w hw
        exact ⟨(hl w hw).1, (hl w hw).2, .inr (.inl (h.1 w hw))⟩
      rw [next_skipFail_of_cleanEnd hnone hz hstuck hd]
      rw [hzones, Nat.zero_add] at hread
      simp only [ZoneTable.nextInStages, hzones, hread]
    · rw [next_skipFail_of_marked hblocks hskip hnone hzones hmarked]
      rw [hzones] at hread
      simp only [ZoneTable.nextInStages, hzones, hread]

/-- A long zone is leapt into although there is a clean border above it. -/
example :
    let t : ZoneTable := ⟨[⟨256, 1100, true, true⟩, ⟨2000, 2100, false, false⟩], none⟩
    ((skipFail false 1).next t).1 = .read ⟨512, 256, .forward⟩ ∧
      (t.nextInStages false 256).1 = .read ⟨2000, 100, .forward⟩ := by decide

/-- Wherever a run from a single zone asks for a task with no zone selected, the strategy's answer
and the table it leaves are those of its stages: read from the first clean border, else leap into
the first long zone, else sweep a full table or give up. -/
theorem skipFail_reads_in_stages (hskip : max skipBlocks 1 * 256 < 2 ^ 64)
    (h : Reaches (skipFail reverse (max skipBlocks 1)) (.ofRange start stop) made s t)
    (hfree : t.cursor = none) :
    ((s.next t).1, (s.next t).2.2) = t.nextInStages reverse (max skipBlocks 1 * 256) := by
  have hleap : skipSectors (max skipBlocks 1) = max skipBlocks 1 * 256 := skipSectors_of_lt hskip
  have hshort := h.shortBelowLast (ZoneTable.consistent_ofRange start stop)
    (ZoneTable.shortBelowLast_ofRange start stop _)
  obtain rfl := eq_skipFail_of_restart h.restart
  rw [← hleap]
  exact next_skipFail_eq_nextInStages (Nat.le_max_right ..) hleap
    (ZoneTable.currentTask?_of_cursor hfree) hshort

/-- After a failure at the first block no border is clean, and the zone is longer than a leap. -/
theorem skipFail_reads_in_stages_at_a_leap :
    let s := skipFail true (max 2 1)
    let made := [⟨⟨0, 256, .forward⟩, true⟩]
    let t : ZoneTable := ⟨[⟨256, 1100, true, false⟩], none⟩
    max 2 1 * 256 < 2 ^ 64 ∧ Reaches s (.ofRange 0 1100) made s t ∧
      t.nextInStages true (max 2 1 * 256) = (.read ⟨512, 256, .backward⟩,
        ⟨[⟨256, 768, true, false⟩, ⟨768, 1100, false, false⟩], some ⟨0, .backward⟩⟩) := by
  intro s made t
  have hfirst : s.next (.ofRange 0 1100) = (.read ⟨0, 256, .forward⟩, s,
      ⟨[⟨0, 1100, false, false⟩], some ⟨0, .forward⟩⟩) := by decide
  have hskip : max 2 1 * 256 < 2 ^ 64 := by decide
  have h : Reaches s (.ofRange 0 1100) made s t := .turn true .start hfirst
  exact ⟨hskip, h, (skipFail_reads_in_stages hskip h rfl).symm.trans (by decide)⟩

end Strategy

end DriveRescue
