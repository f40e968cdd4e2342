import DriveRescue.Proofs.Strategy.Consumption
import DriveRescue.Proofs.Strategy.Leaping
import DriveRescue.Proofs.Strategy.Probing
import DriveRescue.Proofs.Strategy.Sight

/-! What a run has in mind can be told from the zones it leaves. A strategy that is begun anew
between two turns, with nothing selected and not fallen back, reads on where the run would have. -/
namespace DriveRescue

namespace ZoneTable

variable {t t' : ZoneTable} {l r : List Zone} {z : Zone} {d : Direction}

theorem Reading.unique {l' r' : List Zone} {z' : Zone} {d' : Direction} (h : t.Reading l z r d)
    (h' : t.Reading l' z' r' d') : l' = l ∧ z' = z ∧ r' = r ∧ d' = d := by
  have hcursor : (⟨l'.length, d'⟩ : Cursor) = ⟨l.length, d⟩ :=
    Option.some.inj (h'.cursor.symm.trans h.cursor)
  obtain ⟨hlen, rfl⟩ := Cursor.mk.inj hcursor
  obtain ⟨rfl, hzr⟩ := List.append_inj (h'.zones.symm.trans h.zones) hlen
  obtain ⟨rfl, rfl⟩ := List.cons.inj hzr
  exact ⟨rfl, rfl, rfl, rfl⟩

/-- To select the zone that is read already changes nothing. -/
theorem Reading.select_eq (h : t.Reading l z r d) : t.select l.length d = t := by
  rw [select, ← h.cursor]

theorem Reading.eq_first (h : (t.select 0 .forward).Reading l z r d) : l = [] ∧ d = .forward := by
  have hcursor : (⟨0, .forward⟩ : Cursor) = ⟨l.length, d⟩ := Option.some.inj h.cursor
  obtain ⟨hlen, rfl⟩ := Cursor.mk.inj hcursor
  exact ⟨List.eq_nil_of_length_eq_zero hlen.symm, rfl⟩

theorem Reading.isFull_eq (h : t.Reading l z r d) {u : ZoneTable} {w : Zone}
    (hu : u.zones = l ++ w :: r) : u.isFull = t.isFull := by
  have hsize : u.size = t.size := by simp [size, h.zones, hu]
  rw [isFull, isFull, hsize]

/-- What the smart strategy leaves when it falls back: one zone at most has a clean start, no stop
is clean that may be read from, and there is nothing to halve. -/
structure Swept (t : ZoneTable) (reverse : Bool) : Prop where
  start : ∀ w ∈ t.zones.tail, w.startDefective = true
  stop : reverse = true → ∀ w ∈ t.zones, w.stopDefective = true
  short : ∀ w ∈ t.zones, w.len ≤ indivisibleSectors

theorem Swept.consume {reverse : Bool} (h : t.Swept reverse) (hr : t.Reading [] z r .forward)
    (hz : z.start < z.stop) (failed : Bool) :
    (t.consume (z.task .forward) failed).Swept reverse := by
  obtain ⟨hstart, hstop, hshort⟩ := h
  rw [hr.zones] at hstart hstop hshort
  rw [hr.consume hz]
  simp only [List.nil_append, List.tail_cons, List.forall_mem_cons] at hstart hstop hshort ⊢
  split
  · exact ⟨fun w hw => hstart w (List.mem_of_mem_tail hw), fun hreverse => (hstop hreverse).2,
      hshort.2⟩
  · refine ⟨hstart, fun hreverse => ?_, List.forall_mem_cons.mpr ⟨?_, hshort.2⟩⟩
    · rw [Zone.after_forward]
      exact List.forall_mem_cons.mpr (hstop hreverse)
    · have hlen := Zone.after_len hz .forward failed
      have := hshort.1
      omega

end ZoneTable

namespace Strategy

variable {s s' : Strategy} {t t' : ZoneTable} {task : Task} {l r : List Zone} {z : Zone}
  {d : Direction}

def restart : Strategy → Strategy
  | smart reverse _ => smart reverse false
  | s => s

@[simp] theorem restart_readsDown (s : Strategy) : s.restart.readsDown = s.readsDown := by
  cases s with
  | smart reverse fallback => simp only [restart, readsDown_smart]
  | _ => rfl

theorem restart_choose (s : Strategy) (t : ZoneTable) : (s.choose t).1.restart = s.restart := by
  cases s with
  | smart reverse fallback =>
    cases fallback with
    | true => rfl
    | false =>
      rcases choose_smart_cases reverse t with ⟨c, -, h⟩ | ⟨-, l, z, r, -, -, h⟩ | ⟨-, -, h⟩ <;>
        simp [h, restart]
  | _ => rfl

theorem restart_ofKind (kind : StrategyKind) (skipBlocks : Nat) :
    (ofKind kind skipBlocks).restart = ofKind kind skipBlocks := by
  cases kind <;> rfl

theorem exists_eq_smart {s : Strategy} {reverse : Bool} (h : s.restart = smart reverse false) :
    ∃ fallback, s = smart reverse fallback := by
  cases s with
  | plain => simp [restart] at h
  | skipFail => simp [restart] at h
  | smart reverse' fallback =>
    obtain rfl : reverse' = reverse := by simpa [restart] using h
    exact ⟨fallback, rfl⟩

theorem eq_plain_of_restart {s : Strategy} (h : s.restart = plain) : s = plain := by
  cases s with
  | smart => simp [restart] at h
  | _ => exact h

theorem eq_skipFail_of_restart {s : Strategy} {reverse : Bool} {skipBlocks : Nat}
    (h : s.restart = skipFail reverse skipBlocks) : s = skipFail reverse skipBlocks := by
  cases s with
  | smart => simp [restart] at h
  | _ => exact h

theorem restart_next (s : Strategy) (t : ZoneTable) : (s.next t).2.1.restart = s.restart := by
  unfold next
  split
  · rfl
  · split
    · rfl
    · exact restart_choose s t

theorem Reaches.restart {s₀ : Strategy} {t₀ : ZoneTable} {made : List Attempt}
    (h : Reaches s₀ t₀ made s t) : s.restart = s₀.restart := by
  induction h with
  | start => rfl
  | @turn made s t task s' t' failed _ hn ih =>
    have hrestart := restart_next s t
    rw [hn] at hrestart
    exact hrestart.trans ih

/-- The zone `z`, with `l` below it and `r` above, is the one that the strategy selects by itself,
to be read in direction `d`. -/
def Prefers (full : Bool) : Strategy → List Zone → Zone → List Zone → Direction → Prop
  | smart _ false, l, z, _, .forward =>
    z.startDefective = false ∧ ∀ w ∈ l, w.startDefective = true
  | smart reverse false, l, z, r, .backward =>
    reverse = true ∧ z.stopDefective = false ∧
      (∀ w ∈ l ++ z :: r, w.startDefective = true) ∧ ∀ w ∈ l, w.stopDefective = true
  | skipFail reverse skipBlocks, l, z, _, .forward =>
    z.startDefective = false ∧ ∀ w ∈ l, w.Stuck reverse full (skipSectors skipBlocks)
  | skipFail reverse skipBlocks, l, z, r, .backward =>
    reverse = true ∧ z.startDefective = true ∧ z.stopDefective = false ∧ r ≠ [] ∧
      ∀ w ∈ l, w.Stuck reverse full (skipSectors skipBlocks)
  | _, l, _, _, d => l = [] ∧ d = .forward

theorem choose_of_prefers (hs : s.restart = s) (ht : t.zones = l ++ z :: r)
    (h : s.Prefers t.isFull l z r d) : s.choose t = (s, t.select l.length d) := by
  cases s with
  | plain =>
    obtain ⟨rfl, rfl⟩ : l = [] ∧ d = .forward := h
    rfl
  | smart reverse fallback =>
    obtain rfl : false = fallback := by simpa [restart] using hs
    cases d with
    | forward =>
      obtain ⟨hz, hl⟩ := h
      simp [choose, ZoneTable.cleanBorder?_of_start ht hl hz]
    | backward =>
      obtain ⟨rfl, hz, hstart, hl⟩ := h
      simp [choose, ZoneTable.cleanBorder?_of_stop ht (ht ▸ hstart) hl hz]
  | skipFail reverse skipBlocks =>
    cases d with
    | forward =>
      obtain ⟨hz, hl⟩ := h
      exact choose_skipFail_upwards ht hl hz
    | backward =>
      obtain ⟨rfl, hstart, hstop, hr, hl⟩ := h
      exact choose_skipFail_downwards ht hl hstart hstop hr

theorem prefers_of_choose_smart {reverse : Bool}
    (hc : (smart reverse false).choose t = (s', t')) (hr : t'.Reading l z r d) :
    s'.Prefers t'.isFull l z r d := by
  rcases choose_smart_cases reverse t with ⟨c, hborder, h⟩ | ⟨hborder, l₀, z₀, r₀, hzones, -, h⟩ |
    ⟨-, -, h⟩
  · obtain ⟨rfl, rfl⟩ := Prod.mk.inj (h.symm.trans hc)
    obtain ⟨l₀, z₀, r₀, hzones, hlen, hclean⟩ := ZoneTable.cleanBorder?_eq_some hborder
    have hr₀ : (t.select c.index c.direction).Reading l₀ z₀ r₀ c.direction :=
      ⟨hzones, by rw [hlen]; rfl⟩
    obtain ⟨rfl, rfl, rfl, rfl⟩ := hr₀.unique hr
    rcases hclean with ⟨hd, hz, hl⟩ | ⟨hd, hreverse, hz, hstart, hl⟩
    · rw [hd]
      exact ⟨hz, hl⟩
    · rw [hd]
      exact ⟨hreverse, hz, hzones ▸ hstart, hl⟩
  · -- The start of the upper half is new, and the only one that is clean.
    obtain ⟨rfl, rfl⟩ := Prod.mk.inj (h.symm.trans hc)
    obtain ⟨hstart, -⟩ := ZoneTable.cleanBorder?_eq_none_iff.mp hborder
    have hr₀ : ZoneTable.Reading
        ⟨l₀ ++ z₀.leading z₀.middle :: z₀.trailing z₀.middle :: r₀,
          some ⟨l₀.length + 1, .forward⟩⟩ (l₀ ++ [z₀.leading z₀.middle])
        (z₀.trailing z₀.middle) r₀ .forward := ⟨by simp, by simp⟩
    obtain ⟨rfl, rfl, rfl, rfl⟩ := hr₀.unique hr
    refine ⟨rfl, fun w hw => ?_⟩
    rcases List.mem_append.mp hw with hw | hw
    · exact hstart w (by simp [hzones, hw])
    · obtain rfl := List.mem_singleton.mp hw
      exact hstart z₀ (by simp [hzones])
  · obtain ⟨rfl, rfl⟩ := Prod.mk.inj (h.symm.trans hc)
    exact hr.eq_first

theorem prefers_of_leapt {reverse : Bool} {skipBlocks : Nat}
    (h : t.Leapt reverse (skipSectors skipBlocks) t') (hr : t'.Reading l z r d) :
    (skipFail reverse skipBlocks).Prefers t'.isFull l z r d := by
  cases h with
  | upwards l₀ z₀ r₀ hzones hl hz ht' =>
    subst ht'
    have hr₀ : (t.select l₀.length .forward).Reading l₀ z₀ r₀ .forward := ⟨hzones, rfl⟩
    obtain ⟨rfl, rfl, rfl, rfl⟩ := hr₀.unique hr
    exact ⟨hz, hl⟩
  | downwards l₀ z₀ r₀ hzones hl hreverse hstart hstop hne ht' =>
    subst ht'
    have hr₀ : (t.select l₀.length .backward).Reading l₀ z₀ r₀ .backward := ⟨hzones, rfl⟩
    obtain ⟨rfl, rfl, rfl, rfl⟩ := hr₀.unique hr
    exact ⟨hreverse, hstart, hstop, hne, hl⟩
  | leap l₀ z₀ r₀ hzones hl hstart hlo hhi ht' =>
    cases reverse with
    | true =>
      have hr₀ : t'.Reading l₀ (z₀.leading (z₀.landing (skipSectors skipBlocks)))
          (z₀.trailing (z₀.landing (skipSectors skipBlocks)) :: r₀) .backward := by
        rw [ht']
        exact ⟨rfl, rfl⟩
      obtain ⟨rfl, rfl, rfl, rfl⟩ := hr₀.unique hr
      exact ⟨rfl, hstart, rfl, by simp, fun w hw => (hl w hw).of_room _⟩
    | false =>
      -- What the leap has passed over is shorter than a leap, and is stuck from now on.
      have hr₀ : t'.Reading (l₀ ++ [z₀.leading (z₀.landing (skipSectors skipBlocks))])
          (z₀.trailing (z₀.landing (skipSectors skipBlocks))) r₀ .forward := by
        rw [ht']
        exact ⟨by simp, by simp⟩
      obtain ⟨rfl, rfl, rfl, rfl⟩ := hr₀.unique hr
      refine ⟨rfl, fun w hw => ?_⟩
      rcases List.mem_append.mp hw with hw | hw
      · exact (hl w hw).of_room _
      · obtain rfl := List.mem_singleton.mp hw
        exact ⟨hstart, by simp, .inr (.inl (Zone.leading_landing_len_le _ z₀))⟩

/-- The zone is the first one of a full table, which a strategy that leaps has no room to leap in. -/
def Sweeps (full : Bool) : Strategy → List Zone → Direction → Prop
  | skipFail .., l, d => full = true ∧ l = [] ∧ d = .forward
  | _, _, _ => False

theorem Sweeps.direction_eq_forward {full : Bool} (h : s.Sweeps full l d) : d = .forward := by
  cases s with
  | skipFail reverse skipBlocks => exact h.2.2
  | _ => exact h.elim

/-- What a choice selects is preferred, or is swept for want of room. -/
theorem prefers_of_choose (hnone : t.currentTask? = none) (hc : s.choose t = (s', t'))
    (hr : t'.Reading l z r d) : s'.Prefers t'.isFull l z r d ∨ s'.Sweeps t'.isFull l d := by
  cases s with
  | plain =>
    obtain ⟨rfl, rfl⟩ := Prod.mk.inj hc
    exact .inl hr.eq_first
  | smart reverse fallback =>
    cases fallback with
    | true =>
      obtain ⟨rfl, rfl⟩ := Prod.mk.inj hc
      exact .inl hr.eq_first
    | false => exact .inl (prefers_of_choose_smart hc hr)
  | skipFail reverse skipBlocks =>
    rcases choose_skipFail_cases reverse skipBlocks t with ⟨u, hleapt, h⟩ | ⟨hfull, h⟩ | ⟨-, -, h⟩
    · obtain ⟨rfl, rfl⟩ := Prod.mk.inj (h.symm.trans hc)
      exact .inl (prefers_of_leapt hleapt hr)
    · obtain ⟨rfl, rfl⟩ := Prod.mk.inj (h.symm.trans hc)
      exact .inr ⟨hfull, hr.eq_first⟩
    · obtain ⟨-, rfl⟩ := Prod.mk.inj (h.symm.trans hc)
      simp [hr.currentTask?] at hnone

theorem settle_release (s : Strategy) (t : ZoneTable) (task : Task) (failed : Bool) :
    (s.settle t task failed).2.release = (t.consume task failed).release := by
  simp only [settle]
  split <;> rfl

theorem reading_of_settle {failed : Bool} {l' r' : List Zone} {z' : Zone} {d' : Direction}
    (h : t.Reading l z r d) (hz : z.start < z.stop)
    (hu : (s.settle t (z.task d) failed).2.Reading l' z' r' d') :
    l' = l ∧ z' = z.after d failed ∧ r' = r ∧ d' = d ∧
      (failed = true → s.leavesOnFailure = false) := by
  simp only [settle] at hu
  split at hu
  · have hnone := hu.cursor
    simp [ZoneTable.release] at hnone
  · next hstays =>
    rw [h.consume hz] at hu
    split at hu
    · have hnone := hu.cursor
      simp at hnone
    · have hr : ZoneTable.Reading ⟨l ++ z.after d failed :: r, some ⟨l.length, d⟩⟩ l
          (z.after d failed) r d := ⟨rfl, rfl⟩
      obtain ⟨rfl, rfl, rfl, rfl⟩ := hr.unique hu
      exact ⟨rfl, rfl, rfl, rfl, by simpa using hstays⟩

/-- A read that the strategy stays after leaves the border clean, so that the zone is preferred. -/
theorem Prefers.after {full failed : Bool}
    (h : s.Prefers full l z r d ∨ s.Sweeps full l d)
    (hstays : failed = true → s.leavesOnFailure = false) :
    s.Prefers full l (z.after d failed) r d := by
  have hgood (hleaves : s.leavesOnFailure = true) : failed = false := by
    cases failed with
    | false => rfl
    | true => simp [hleaves] at hstays
  cases s with
  | plain => exact h.resolve_right id
  | smart reverse fallback =>
    cases fallback with
    | true => exact h.resolve_right id
    | false =>
      obtain rfl := hgood rfl
      have h := h.resolve_right id
      cases d with
      | forward => exact ⟨by simp [Zone.after_forward], h.2⟩
      | backward =>
        obtain ⟨hreverse, -, hstart, hl⟩ := h
        refine ⟨hreverse, by simp [Zone.after_backward], ?_, hl⟩
        simp only [List.forall_mem_append, List.forall_mem_cons, Zone.after_backward] at hstart ⊢
        exact hstart
  | skipFail reverse skipBlocks =>
    obtain rfl := hgood rfl
    rcases h with h | ⟨-, rfl, rfl⟩
    · cases d with
      | forward => exact ⟨by simp [Zone.after_forward], h.2⟩
      | backward =>
        obtain ⟨hreverse, hstart, -, hr, hl⟩ := h
        exact ⟨hreverse, by simpa [Zone.after_backward] using hstart,
          by simp [Zone.after_backward], hr, hl⟩
    · exact ⟨by simp [Zone.after_forward], by simp⟩

/-- The zone that is selected, if there is one, is the one that the strategy prefers. -/
def OnTrack (s : Strategy) (t : ZoneTable) : Prop :=
  ∀ l z r d, t.Reading l z r d → s.Prefers t.isFull l z r d

theorem onTrack_of_cursor (h : t.cursor = none) : s.OnTrack t := by
  intro l z r d hr
  simp [hr.cursor] at h

/-- What is read is what the strategy prefers, or it is swept for want of room. -/
theorem OnTrack.exists_reading (h : s.OnTrack t) (hn : s.next t = (.read task, s', t')) :
    ∃ l z r d, t'.Reading l z r d ∧ task = z.task d ∧
      (s'.Prefers t'.isFull l z r d ∨ s'.Sweeps t'.isFull l d) := by
  obtain ⟨htask, hfrom⟩ := next_eq_read hn
  obtain ⟨l, z, r, d, hr, rfl⟩ := ZoneTable.exists_reading htask
  refine ⟨l, z, r, d, hr, rfl, ?_⟩
  rcases hfrom with ⟨-, rfl, rfl⟩ | ⟨hnone, -, hchoose⟩
  · exact .inl (h l z r d hr)
  · exact prefers_of_choose hnone hchoose hr

theorem OnTrack.turn (h : s.OnTrack t) (hc : t.Consistent)
    (hn : s.next t = (.read task, s', t')) (failed : Bool) :
    s'.OnTrack (s'.settle t' task failed).2 := by
  obtain ⟨l, z, r, d, hr, rfl, hprefers⟩ := h.exists_reading hn
  have hz := nonempty_of_next hn hc hr
  intro l' z' r' d' hr'
  obtain ⟨rfl, rfl, rfl, rfl, hstays⟩ := reading_of_settle hr hz hr'
  rw [hr.isFull_eq hr'.zones]
  exact Prefers.after hprefers hstays

theorem Reaches.onTrack {s₀ : Strategy} {t₀ : ZoneTable} {made : List Attempt}
    (h : Reaches s₀ t₀ made s t) (hc : t₀.Consistent) (hcursor : t₀.cursor = none) :
    s.OnTrack t := by
  induction h with
  | start => exact onTrack_of_cursor hcursor
  | turn failed hreach hn ih => exact ih.turn (hreach.consistent hc) hn failed

/-- Between turns: the zone that is selected is the one that the strategy prefers, and once it has
fallen back there is no other way to go on. -/
structure Retraceable (s : Strategy) (t : ZoneTable) : Prop where
  preferred : s.OnTrack t
  swept : ∀ reverse, s = smart reverse true → t.Swept reverse

theorem retraceable_of_cursor (hs : s.restart = s) (h : t.cursor = none) : s.Retraceable t := by
  refine ⟨onTrack_of_cursor h, fun reverse hs' => ?_⟩
  simp [hs', restart] at hs

theorem next_release (s : Strategy) {t : ZoneTable} (h : t.zones ≠ []) :
    s.next t.release =
      ((s.choose t.release).2.currentTask?.elim .unresolved .read, s.choose t.release) :=
  s.next_of_currentTask? h rfl

/-- Where the strategy has fallen back there is nothing to find but what it reads anyway. -/
theorem choose_of_swept {reverse : Bool} (h : t.Swept reverse) (hne : t.zones ≠ []) :
    ((smart reverse false).choose t).2 = t.select 0 .forward := by
  obtain ⟨z, r, hzr⟩ := List.exists_cons_of_ne_nil hne
  cases hz : z.startDefective with
  | false => simp [choose, @ZoneTable.cleanBorder?_of_start t reverse [] r z hzr (by simp) hz]
  | true =>
    have hstart : ∀ w ∈ t.zones, w.startDefective = true := by
      have htail := h.start
      rw [hzr, List.tail_cons] at htail
      rw [hzr]
      exact List.forall_mem_cons.mpr ⟨hz, htail⟩
    have hborder : t.cleanBorder? reverse = none :=
      ZoneTable.cleanBorder?_eq_none_iff.mpr ⟨hstart, h.stop⟩
    rcases choose_smart_cases reverse t with ⟨c, hc, -⟩ | ⟨-, l, w, v, hw, hlong, -⟩ |
      ⟨-, -, heq⟩
    · simp [hborder] at hc
    · have hshort := h.short w (by simp [hw])
      omega
    · rw [heq]

theorem Retraceable.next_of_fallback {reverse : Bool} (h : (smart reverse true).Retraceable t)
    (hne : t.zones ≠ []) :
    (smart reverse true).next t =
      ((t.select 0 .forward).currentTask?.elim .unresolved .read, smart reverse true,
        t.select 0 .forward) := by
  cases htask : t.currentTask? with
  | none =>
    have hsome : t.isEmpty = false := by simpa [ZoneTable.isEmpty] using hne
    simp only [next, htask, hsome, choose, Bool.false_eq_true, ↓reduceIte]
  | some task =>
    obtain ⟨l, z, r, d, hr, -⟩ := ZoneTable.exists_reading htask
    obtain ⟨rfl, rfl⟩ : l = [] ∧ d = .forward := h.preferred l z r d hr
    have hsame : t.select 0 .forward = t := hr.select_eq
    rw [hsame]
    simp [next, htask]

/-- Nothing that is forgotten between two turns changes what is read next. -/
theorem Retraceable.next_restart (h : s.Retraceable t) (hc : t.Consistent) :
    (s.restart.next t.release).1 = (s.next t).1 ∧
      (s.restart.next t.release).2.2 = (s.next t).2.2 := by
  by_cases hne : t.zones = []
  · have hcursor : t.cursor = none := by
      cases hcur : t.cursor with
      | none => rfl
      | some c => simpa [hne] using hc.cursor c hcur
    have hrelease : t.release = t := by rw [ZoneTable.release, ← hcursor]
    have hnone : t.currentTask? = none := by simp [ZoneTable.currentTask?, hcursor]
    rw [hrelease]
    simp [next, hnone, ZoneTable.isEmpty, hne]
  by_cases hs : s.restart = s
  · rw [hs]
    cases htask : t.currentTask? with
    | none =>
      have hcursor := ZoneTable.cursor_eq_none_of_currentTask? hc htask
      have hrelease : t.release = t := by rw [ZoneTable.release, ← hcursor]
      rw [hrelease]
      exact ⟨rfl, rfl⟩
    | some task =>
      obtain ⟨l, z, r, d, hr, rfl⟩ := ZoneTable.exists_reading htask
      have hchoose : s.choose t.release = (s, t.release.select l.length d) :=
        choose_of_prefers hs hr.zones (h.preferred l z r d hr)
      have hsame : t.release.select l.length d = t := hr.select_eq
      rw [s.next_release hne, hchoose, hsame]
      simp [next, htask]
  · -- The strategy has fallen back, and is asked as one that has not.
    cases s with
    | plain => exact absurd rfl hs
    | skipFail reverse skipBlocks => exact absurd rfl hs
    | smart reverse fallback =>
      cases fallback with
      | false => exact absurd rfl hs
      | true =>
        have hswept : t.release.Swept reverse :=
          ⟨(h.swept reverse rfl).start, (h.swept reverse rfl).stop, (h.swept reverse rfl).short⟩
        have hchoose := choose_of_swept hswept hne
        rw [restart, next_release _ hne, h.next_of_fallback hne, hchoose]
        exact ⟨rfl, rfl⟩

/-- A fallback is made for want of anything better only, and what it sweeps stays swept. -/
theorem swept_of_choose {reverse : Bool} (hroom : s = smart reverse false → t.isFull = false)
    (hswept : s = smart reverse true → t.Swept reverse)
    (hc : s.choose t = (smart reverse true, t')) : t'.Swept reverse := by
  cases s with
  | plain => simp [choose] at hc
  | skipFail => simp [choose] at hc
  | smart reverse' fallback =>
    cases fallback with
    | true =>
      obtain ⟨hs, rfl⟩ := Prod.mk.inj hc
      obtain ⟨hstart, hstop, hshort⟩ := hswept hs
      exact ⟨hstart, hstop, hshort⟩
    | false =>
      rcases choose_smart_cases reverse' t with ⟨c, -, h⟩ | ⟨-, l, z, r, -, -, h⟩ |
        ⟨hborder, hwhy, h⟩
      · simp [h] at hc
      · simp [h] at hc
      · obtain ⟨hs, rfl⟩ := Prod.mk.inj (h.symm.trans hc)
        obtain rfl : reverse' = reverse := by simpa using hs
        obtain ⟨hstart, hstop⟩ := ZoneTable.cleanBorder?_eq_none_iff.mp hborder
        refine ⟨fun w hw => hstart w (List.mem_of_mem_tail hw), hstop, ?_⟩
        exact hwhy.resolve_left (by simp [hroom rfl])

theorem Prefers.readsDown {full : Bool} (h : s.Prefers full l z r .backward) :
    s.readsDown = true := by
  cases s with
  | plain => exact absurd h.2 (by decide)
  | smart reverse fallback =>
    cases fallback with
    | true => exact absurd h.2 (by decide)
    | false => exact (readsDown_smart _ _).trans h.1
  | skipFail reverse skipBlocks => exact (readsDown_skipFail _ _).trans h.1

theorem Retraceable.direction_eq_forward (h : s.Retraceable t)
    (hn : s.next t = (.read task, s', t')) (hdown : s.readsDown = false) :
    task.direction = .forward := by
  have hrestart := restart_next s t
  rw [hn] at hrestart
  obtain ⟨l, z, r, d, -, rfl, hprefers⟩ := h.preferred.exists_reading hn
  rw [Zone.task_direction]
  rcases hprefers with hprefers | hsweeps
  · cases d with
    | forward => rfl
    | backward =>
      have hreads := hprefers.readsDown
      rw [← restart_readsDown, hrestart, restart_readsDown, hdown] at hreads
      simp at hreads
  · exact hsweeps.direction_eq_forward

theorem Retraceable.turn (h : s.Retraceable t) (hc : t.Consistent)
    (hroom : ∀ reverse, s = smart reverse false → t.isFull = false)
    (hn : s.next t = (.read task, s', t')) (failed : Bool) :
    s'.Retraceable (s'.settle t' task failed).2 := by
  refine ⟨h.preferred.turn hc hn failed, fun reverse hs' => ?_⟩
  obtain ⟨-, hfrom⟩ := next_eq_read hn
  obtain ⟨l, z, r, d, hr, rfl, hprefers⟩ := h.preferred.exists_reading hn
  have hz := nonempty_of_next hn hc hr
  subst hs'
  obtain ⟨rfl, rfl⟩ : l = [] ∧ d = .forward := hprefers.resolve_right id
  have hswept : t'.Swept reverse := by
    rcases hfrom with ⟨-, rfl, rfl⟩ | ⟨-, -, hchoose⟩
    · exact h.swept reverse rfl
    · exact swept_of_choose (hroom reverse) (h.swept reverse) hchoose
  have hsettled := hswept.consume hr hz failed
  exact ⟨by simpa using hsettled.start, by simpa using hsettled.stop,
    by simpa using hsettled.short⟩

structure Alike (s : Strategy) (t : ZoneTable) (r : Strategy) (u : ZoneTable) : Prop where
  strategy : s.restart = r.restart
  table : t.release.seen s.readsDown = u.release.seen s.readsDown

theorem Alike.isFull_eq {r : Strategy} {u : ZoneTable} (h : s.Alike t r u) :
    t.isFull = u.isFull := by
  have hlen : t.size = u.size := @ZoneTable.seen_zones_length t.release u.release _ h.table
  rw [ZoneTable.isFull, ZoneTable.isFull, hlen]

theorem Alike.next {r : Strategy} {u : ZoneTable} (h : s.Alike t r u) (ht : s.Retraceable t)
    (htc : t.Consistent) (hu : r.Retraceable u) (huc : u.Consistent) :
    (s.next t).1 = (r.next u).1 ∧
      (s.next t).2.2.seen s.readsDown = (r.next u).2.2.seen s.readsDown := by
  obtain ⟨hs₁, hs₂⟩ := ht.next_restart htc
  obtain ⟨hr₁, hr₂⟩ := hu.next_restart huc
  have hseen := @next_seen s.restart t.release u.release (by simpa using h.table)
  rw [restart_readsDown] at hseen
  rw [← hs₁, ← hs₂, ← hr₁, ← hr₂, ← h.strategy]
  exact hseen

theorem Alike.turn {r r' : Strategy} {u u' : ZoneTable} (h : s.Alike t r u)
    (ht : s.Retraceable t) (htc : t.Consistent) (hu : r.Retraceable u) (huc : u.Consistent)
    (hs : s.next t = (.read task, s', t')) (hr : r.next u = (.read task, r', u'))
    (failed : Bool) :
    s'.Alike (s'.settle t' task failed).2 r' (r'.settle u' task failed).2 := by
  have hseen := (h.next ht htc hu huc).2
  have hrestart := restart_next s t
  have hrestart' := restart_next r u
  rw [hs, hr] at hseen
  rw [hs] at hrestart
  rw [hr] at hrestart'
  have hdown : s'.readsDown = s.readsDown := by
    rw [← restart_readsDown s', hrestart, restart_readsDown]
  refine ⟨hrestart.trans (h.strategy.trans hrestart'.symm), ?_⟩
  rw [hdown, settle_release, settle_release, ZoneTable.seen_release, ZoneTable.seen_release,
    ZoneTable.seen_consume hseen]

end Strategy

end DriveRescue
