import DriveRescue.Proofs.Strategy.Choice
import DriveRescue.Strategy.Run
import Mathlib.Algebra.GroupWithZero.Nat

/-! Runs of a strategy consume what they ask for. A turn takes the sectors of its task out of the
unread ones and no others, so the tasks of a run and the zones that are left share out the sectors
that were unread at first. -/
namespace DriveRescue

namespace Task

/-- The tasks have no sector in common. -/
def Disjoint (a b : Task) : Prop := ∀ x, a.Spans x → ¬ b.Spans x

end Task

namespace Strategy

variable {s s' : Strategy} {t t' : ZoneTable} {task : Task}

theorem next_poised {gap : Nat} (h : s.next t = (.read task, s', t'))
    (hs : Zone.Spaced gap t.zones) : ∃ l z r d, task = z.task d ∧ t'.Reading l z r d ∧
      Zone.Poised gap l z r d := by
  rcases s.next_cases t with ⟨-, hno⟩ | ⟨l, z, r, d, htask, hr, hsame | hc⟩
  · exact absurd (by rw [h]) (hno task)
  · simp only [h, Next.read.injEq, Prod.mk.injEq] at htask hr hsame
    obtain ⟨-, rfl⟩ := hsame
    exact ⟨l, z, r, d, htask, hr, (hr.zones ▸ hs).poised d⟩
  · simp only [h, Next.read.injEq] at htask hc hr
    obtain ⟨l', z', r', d', hr', hp⟩ := hc.poised hs
    have : z.task d = z'.task d' := Option.some.inj (hr.currentTask?.symm.trans hr'.currentTask?)
    exact ⟨l', z', r', d', htask.trans this, hr', hp⟩

theorem covered_next (s : Strategy) (t : ZoneTable) (x : Nat) :
    Zone.Covered (s.next t).2.2.zones x ↔ Zone.Covered t.zones x := by
  rcases s.next_cases t with ⟨hsame, -⟩ | ⟨l, z, r, d, -, -, hsame | hc⟩
  · rw [hsame]
  · rw [hsame]
  · exact hc.covered x

theorem unread_next (s : Strategy) (t : ZoneTable) : (s.next t).2.2.unread = t.unread := by
  rcases s.next_cases t with ⟨hsame, -⟩ | ⟨l, z, r, d, -, -, hsame | hc⟩
  · rw [hsame]
  · rw [hsame]
  · exact hc.unread

theorem forall_zones_next {p : Zone → Prop} (s : Strategy) {t : ZoneTable}
    (hp : ∀ z ∈ t.zones, p z)
    (hcut : ∀ z cut, p z → z.start < cut → cut < z.stop →
      p (z.leading cut) ∧ p (z.trailing cut)) :
    ∀ z ∈ (s.next t).2.2.zones, p z := by
  rcases s.next_cases t with ⟨hsame, -⟩ | ⟨l, z, r, d, -, -, hsame | hc⟩
  · rwa [hsame]
  · rwa [hsame]
  · exact hc.forall_zones hp hcut

theorem consistent_next (s : Strategy) {t : ZoneTable} (h : t.Consistent) :
    (s.next t).2.2.Consistent := by
  rcases s.next_cases t with ⟨hsame, -⟩ | ⟨l, z, r, d, -, hr, hsame | hc⟩
  · rwa [hsame]
  · rwa [hsame]
  · obtain ⟨l', z', r', d', hr', hp⟩ := hc.poised h.spaced
    refine ⟨hr'.zones ▸ hp.spaced, fun c hcur => ?_⟩
    obtain rfl := Option.some.inj (hr'.cursor.symm.trans hcur)
    simp [hr'.zones]

theorem nonempty_of_next {l r : List Zone} {z : Zone} {d : Direction}
    (h : s.next t = (.read task, s', t')) (hc : t.Consistent) (hr : t'.Reading l z r d) :
    z.start < z.stop := by
  have hc' := s.consistent_next hc
  rw [h] at hc'
  exact hc'.spaced.1 z (by simp [hr.zones])

@[simp] theorem settle_zones (s : Strategy) (t : ZoneTable) (task : Task) (failed : Bool) :
    (s.settle t task failed).2.zones = (t.consume task failed).zones := by
  simp only [settle]
  split <;> rfl

theorem settle_cursor (s : Strategy) (t : ZoneTable) (task : Task) (failed : Bool) :
    (s.settle t task failed).2.cursor = none ∨
      (s.settle t task failed).2.cursor = (t.consume task failed).cursor := by
  simp only [settle]
  split
  · exact .inl rfl
  · exact .inr rfl

theorem consistent_settle {gap : Nat} {l r : List Zone} {z : Zone} {d : Direction}
    (h : t.Reading l z r d) (hp : Zone.Poised gap l z r d) (s : Strategy) (failed : Bool) :
    (s.settle t (z.task d) failed).2.Consistent := by
  have hspaced := h.spaced_consume (hp.spaced.poised d) (Nat.zero_le 1) failed
  refine ⟨by rwa [settle_zones], fun c hc => ?_⟩
  rw [settle_zones]
  rcases s.settle_cursor t (z.task d) failed with hnone | hsame
  · simp [hnone] at hc
  · rw [hsame, h.consume hp.nonempty] at hc
    rw [h.consume hp.nonempty]
    split at hc
    · simp at hc
    · next he =>
      obtain rfl := Option.some.inj hc
      simp [he]

/-- The states that turns of asking for a task and taking in its outcome lead to, whatever the
outcomes, with the attempts made on the way. -/
inductive Reaches (s₀ : Strategy) (t₀ : ZoneTable) : List Attempt → Strategy → ZoneTable → Prop
  | start : Reaches s₀ t₀ [] s₀ t₀
  | turn {made s t task s' t'} (failed : Bool) : Reaches s₀ t₀ made s t →
      s.next t = (.read task, s', t') →
      Reaches s₀ t₀ (made ++ [⟨task, failed⟩]) s' (s'.settle t' task failed).2

variable {s₀ : Strategy} {t₀ : ZoneTable} {made : List Attempt}

theorem reaches_runFrom {fails : Nat → Task → Bool} {limit k : Nat}
    (h : Reaches s₀ t₀ made.reverse s t) :
    Reaches s₀ t₀ (runFrom fails limit made k s t).attempts
      (runFrom fails limit made k s t).strategy (runFrom fails limit made k s t).table := by
  induction limit generalizing made k s t with
  | zero => exact h
  | succ limit ih =>
    simp only [runFrom]
    split
    · next s' t' hn =>
      rcases s.next_cases t with ⟨hsame, -⟩ | ⟨l, z, r, d, htask, -, -⟩
      · simp only [hn, Prod.mk.injEq] at hsame
        obtain ⟨rfl, rfl⟩ := hsame
        exact h
      · simp [hn] at htask
    · next s' t' hn =>
      rcases s.next_cases t with ⟨hsame, -⟩ | ⟨l, z, r, d, htask, -, -⟩
      · simp only [hn, Prod.mk.injEq] at hsame
        obtain ⟨rfl, rfl⟩ := hsame
        exact h
      · simp [hn] at htask
    · next task s' t' hn =>
      have hturn := h.turn (fails k task) hn
      rw [← List.reverse_cons] at hturn
      split
      · next u hu => simpa [hu] using hturn
      · next u hu => exact ih (by simpa [hu] using hturn)

/-- Every run of a strategy comes by reachable states only. -/
theorem reaches_run (s₀ : Strategy) (t₀ : ZoneTable) (fails : Nat → Task → Bool) (limit : Nat) :
    Reaches s₀ t₀ (run fails limit s₀ t₀).attempts (run fails limit s₀ t₀).strategy
      (run fails limit s₀ t₀).table := reaches_runFrom .start

theorem Reaches.consistent (h : Reaches s₀ t₀ made s t) (hc : t₀.Consistent) : t.Consistent := by
  induction h with
  | start => exact hc
  | turn failed _ hn ih =>
    obtain ⟨l, z, r, d, rfl, hr, hp⟩ := next_poised hn ih.spaced
    exact consistent_settle hr hp _ failed

/-- The step of every account of unread sectors: the task was unread, and is all that is not unread
any more. -/
theorem covered_turn (h : s.next t = (.read task, s', t')) (hc : t.Consistent) (failed : Bool)
    (x : Nat) : (task.Spans x → Zone.Covered t.zones x) ∧
      (Zone.Covered (s'.settle t' task failed).2.zones x ↔
        Zone.Covered t.zones x ∧ ¬ task.Spans x) := by
  have hcov := s.covered_next t x
  simp only [h] at hcov
  obtain ⟨l, z, r, d, rfl, hr, hp⟩ := next_poised h hc.spaced
  rw [settle_zones, hr.covered_consume hp, hcov]
  refine ⟨fun hx => hcov.mp ⟨z, by simp [hr.zones], Zone.contains_of_task_spans hp.nonempty hx⟩,
    Iff.rfl⟩

theorem unread_turn (h : s.next t = (.read task, s', t')) (hc : t.Consistent) (failed : Bool) :
    (s'.settle t' task failed).2.unread + task.sectors = t.unread := by
  have hunread := s.unread_next t
  simp only [h] at hunread
  obtain ⟨l, z, r, d, rfl, hr, hp⟩ := next_poised h hc.spaced
  rw [ZoneTable.unread_congr (s'.settle_zones t' (z.task d) failed),
    hr.unread_consume hp.nonempty failed, hunread]

theorem Reaches.covered_start_iff (h : Reaches s₀ t₀ made s t) (hc : t₀.Consistent) (x : Nat) :
    Zone.Covered t₀.zones x ↔ Zone.Covered t.zones x ∨ ∃ a ∈ made, a.task.Spans x := by
  induction h with
  | start => simp
  | @turn made s t task s' t' failed hreach hn ih =>
    have hturn := covered_turn hn (hreach.consistent hc) failed x
    simp only [ih, hturn.2, List.mem_append, List.mem_singleton, or_and_right, exists_or,
      exists_eq_left]
    by_cases hk : task.Spans x
    · simp [hk, hturn.1 hk]
    · simp [hk]

theorem Reaches.not_spans_of_covered (h : Reaches s₀ t₀ made s t) (hc : t₀.Consistent) {x : Nat}
    (hx : Zone.Covered t.zones x) : ∀ a ∈ made, ¬ a.task.Spans x := by
  induction h with
  | start => simp
  | @turn made s t task s' t' failed hreach hn ih =>
    have hturn := ((covered_turn hn (hreach.consistent hc) failed x).2).mp hx
    intro a ha
    rcases List.mem_append.mp ha with ha | ha
    · exact ih hturn.1 a ha
    · obtain rfl := List.mem_singleton.mp ha
      exact hturn.2

/-- The task of a turn has sectors, which were unread at first and which no attempt has had. -/
theorem Reaches.next_fresh (h : Reaches s₀ t₀ made s t) (hc : t₀.Consistent)
    (hn : s.next t = (.read task, s', t')) :
    0 < task.sectors ∧ (∀ x, task.Spans x → Zone.Covered t₀.zones x) ∧
      ∀ a ∈ made, a.task.Disjoint task := by
  have ht := h.consistent hc
  have hunread {x : Nat} (hx : task.Spans x) : Zone.Covered t.zones x :=
    (covered_turn hn ht false x).1 hx
  refine ⟨?_, fun x hx => (h.covered_start_iff hc x).mpr (.inl (hunread hx)),
    fun a ha x hax hx => h.not_spans_of_covered hc (hunread hx) a ha hax⟩
  obtain ⟨l, z, r, d, rfl, -, hp⟩ := next_poised hn ht.spaced
  exact Zone.task_sectors_pos hp.nonempty d

theorem Reaches.pairwise_disjoint (h : Reaches s₀ t₀ made s t) (hc : t₀.Consistent) :
    made.Pairwise fun a b => a.task.Disjoint b.task := by
  induction h with
  | start => exact .nil
  | @turn made s t task s' t' failed hreach hn ih =>
    refine List.pairwise_append.mpr ⟨ih, List.pairwise_singleton .., fun a ha b hb => ?_⟩
    obtain rfl := List.mem_singleton.mp hb
    exact (hreach.next_fresh hc hn).2.2 a ha

theorem Reaches.sectors_add_unread (h : Reaches s₀ t₀ made s t) (hc : t₀.Consistent) :
    (made.map (·.task.sectors)).sum + t.unread = t₀.unread := by
  induction h with
  | start => simp
  | @turn made s t task s' t' failed hreach hn ih =>
    have hturn := unread_turn hn (hreach.consistent hc) failed
    simp only [List.map_append, List.map_cons, List.map_nil, List.sum_append, List.sum_cons,
      List.sum_nil]
    omega

theorem Reaches.length_le (h : Reaches s₀ t₀ made s t) (hc : t₀.Consistent) :
    made.length ≤ (made.map (·.task.sectors)).sum := by
  induction h with
  | start => simp
  | @turn made s t task s' t' failed hreach hn ih =>
    have hpos := (hreach.next_fresh hc hn).1
    simp only [List.length_append, List.length_singleton, List.map_append, List.map_cons,
      List.map_nil, List.sum_append, List.sum_cons, List.sum_nil]
    omega

/-- Wherever a run has come to, its attempts and the zones left share out the sectors that were
unread at first, without a sector twice. Asking for a task keeps the unread sectors; the task is an
end of a zone, and its outcome takes just its sectors away. -/
theorem attempts_partition_unread (hc : t₀.isConsistent = true) (h : Reaches s₀ t₀ made s t) :
    t.isConsistent = true ∧
    made.Pairwise (fun a b => a.task.Disjoint b.task) ∧
    (∀ x, Zone.Covered t₀.zones x ↔ Zone.Covered t.zones x ∨ ∃ a ∈ made, a.task.Spans x) ∧
    (∀ x, Zone.Covered t.zones x → ∀ a ∈ made, ¬ a.task.Spans x) ∧
    (made.map (·.task.sectors)).sum + t.unread = t₀.unread ∧
    made.length ≤ t₀.unread ∧
    (s.next t).2.2.isConsistent = true ∧
    (∀ x, Zone.Covered (s.next t).2.2.zones x ↔ Zone.Covered t.zones x) ∧
    ∀ task s' t', s.next t = (.read task, s', t') →
      1 ≤ task.sectors ∧ task.sectors ≤ 256 ∧ (∃ z ∈ t'.zones, task.IsEndOf z) ∧
      ∀ failed, (s'.settle t' task failed).2.isConsistent = true ∧
        ∀ x, Zone.Covered (s'.settle t' task failed).2.zones x ↔
          Zone.Covered t'.zones x ∧ ¬ task.Spans x := by
  rw [ZoneTable.isConsistent_iff] at hc
  simp only [ZoneTable.isConsistent_iff]
  have ht := h.consistent hc
  have hsum := h.sectors_add_unread hc
  have hlen := h.length_le hc
  refine ⟨ht, h.pairwise_disjoint hc, h.covered_start_iff hc,
    fun x hx => h.not_spans_of_covered hc hx, hsum, by omega, s.consistent_next ht,
    s.covered_next t, ?_⟩
  intro task s' t' hn
  obtain ⟨l, z, r, d, rfl, hr, hp⟩ := next_poised hn ht.spaced
  have hz := hp.nonempty
  refine ⟨Zone.task_sectors_pos hz d, ?_, ⟨z, by simp [hr.zones], z.task_isEndOf d hz⟩, ?_⟩
  · rw [Zone.task_sectors]
    exact Nat.min_le_right ..
  · intro failed
    refine ⟨consistent_settle hr hp s' failed, fun x => ?_⟩
    rw [settle_zones]
    exact hr.covered_consume hp failed x

/-- A leap cuts the only zone in two and reads the lower piece from the cut downwards; the upper one
is read upwards until a read fails. -/
theorem attempts_partition_unread_leap :
    let s₀ := Strategy.skipFail true 1
    let t₀ := ZoneTable.ofZones [⟨0, 600, true, true⟩]
    let made := [⟨⟨0, 256, .backward⟩, false⟩, ⟨⟨256, 256, .forward⟩, true⟩]
    t₀.isConsistent = true ∧ Reaches s₀ t₀ made s₀ ⟨[⟨512, 600, true, true⟩], none⟩ ∧
      (∀ x, Zone.Covered t₀.zones x ↔
        Zone.Covered [⟨512, 600, true, true⟩] x ∨ ∃ a ∈ made, a.task.Spans x) := by
  intro s₀ t₀ made
  have hc : t₀.isConsistent = true := by decide
  have hleap : s₀.next t₀ = (.read ⟨0, 256, .backward⟩, s₀,
      ⟨[⟨0, 256, true, false⟩, ⟨256, 600, false, true⟩], some ⟨0, .backward⟩⟩) := by decide
  have hup : s₀.next ⟨[⟨256, 600, false, true⟩], none⟩ = (.read ⟨256, 256, .forward⟩, s₀,
      ⟨[⟨256, 600, false, true⟩], some ⟨0, .forward⟩⟩) := by decide
  have hdown : Reaches s₀ t₀ [⟨⟨0, 256, .backward⟩, false⟩] s₀
      ⟨[⟨256, 600, false, true⟩], none⟩ := .turn false .start hleap
  have h : Reaches s₀ t₀ made s₀ ⟨[⟨512, 600, true, true⟩], none⟩ := .turn true hdown hup
  exact ⟨hc, h, (attempts_partition_unread hc h).2.2.1⟩

end Strategy

end DriveRescue
