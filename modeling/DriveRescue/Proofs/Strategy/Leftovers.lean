import DriveRescue.Proofs.Strategy.GivingUp
import DriveRescue.Proofs.Strategy.Retracing
import Mathlib.Data.List.Count
import Mathlib.Data.List.Nodup

/-! What a strategy that leaps leaves behind. Every marked border of a zone is where a failed read
of the run came to, so that the zones left at the end can be charged to the failures upwards. -/
namespace DriveRescue

namespace Attempt

/-- A failed read upwards that ended right below a sector. -/
def FailedUpTo (a : Attempt) (x : Nat) : Prop :=
  a.failed = true ∧ a.task.direction = .forward ∧ a.task.lba + a.task.sectors = x

/-- A failed read downwards that ended at a sector. -/
def FailedDownTo (a : Attempt) (x : Nat) : Prop :=
  a.failed = true ∧ a.task.direction = .backward ∧ a.task.lba = x

def failedUpwards (a : Attempt) : Bool := a.failed && a.task.direction == .forward

theorem FailedUpTo.unique {a : Attempt} {x y : Nat} (hx : a.FailedUpTo x) (hy : a.FailedUpTo y) :
    x = y := hx.2.2.symm.trans hy.2.2

theorem FailedUpTo.failedUpwards {a : Attempt} {x : Nat} (h : a.FailedUpTo x) :
    a.failedUpwards = true := by
  simp [Attempt.failedUpwards, h.1, h.2.1]

end Attempt

namespace Zone

structure AccountedFor (made : List Attempt) (z : Zone) : Prop where
  start : z.startDefective = true → ∃ a ∈ made, a.FailedUpTo z.start
  stop : z.stopDefective = true → ∃ a ∈ made, a.FailedDownTo z.stop

variable {made more : List Attempt} {z : Zone}

theorem AccountedFor.mono (h : z.AccountedFor made) (hsub : made ⊆ more) :
    z.AccountedFor more where
  start hz := by
    obtain ⟨a, ha, hup⟩ := h.start hz
    exact ⟨a, hsub ha, hup⟩
  stop hz := by
    obtain ⟨a, ha, hdown⟩ := h.stop hz
    exact ⟨a, hsub ha, hdown⟩

/-- A cut marks no border. -/
theorem AccountedFor.cut (h : z.AccountedFor made) (cut : Nat) :
    (z.leading cut).AccountedFor made ∧ (z.trailing cut).AccountedFor made :=
  ⟨⟨h.start, by simp [leading]⟩, ⟨by simp [trailing], h.stop⟩⟩

theorem AccountedFor.after (h : z.AccountedFor made) (d : Direction) (failed : Bool) :
    (z.after d failed).AccountedFor (made ++ [⟨z.task d, failed⟩]) := by
  have hmono := h.mono (List.subset_append_left made [⟨z.task d, failed⟩])
  cases d with
  | forward =>
    rw [after_forward]
    refine ⟨fun hfailed => ?_, hmono.stop⟩
    exact ⟨⟨z.task .forward, failed⟩, by simp, hfailed, rfl, rfl⟩
  | backward =>
    rw [after_backward]
    refine ⟨hmono.start, fun hfailed => ?_⟩
    exact ⟨⟨z.task .backward, failed⟩, by simp, hfailed, rfl, rfl⟩

/-- Zones with different starts that go back to failures go back to different failures. -/
theorem exists_injective_owner {zones : List Zone} (hnodup : (zones.map Zone.start).Nodup)
    (hup : ∀ z ∈ zones, ∃ a ∈ made, a.FailedUpTo z.start) :
    ∃ owner : Fin zones.length → Fin made.length, Function.Injective owner ∧
      ∀ i, (made.get (owner i)).FailedUpTo (zones.get i).start := by
  have hone (i : Fin zones.length) :
      ∃ j : Fin made.length, (made.get j).FailedUpTo (zones.get i).start := by
    obtain ⟨a, ha, hfailed⟩ := hup (zones.get i) (List.get_mem ..)
    obtain ⟨j, rfl⟩ := List.get_of_mem ha
    exact ⟨j, hfailed⟩
  choose owner howner using hone
  refine ⟨owner, fun i k hik => ?_, howner⟩
  have hstart : (zones.get i).start = (zones.get k).start :=
    (howner i).unique (hik ▸ howner k)
  have hlen : zones.length = (zones.map Zone.start).length := by simp
  have hcast : i.cast hlen = k.cast hlen :=
    List.nodup_iff_injective_get.mp hnodup (by simpa using hstart)
  simpa [Fin.ext_iff] using hcast

theorem length_le_failures {zones : List Zone} (hnodup : (zones.map Zone.start).Nodup)
    (hup : ∀ z ∈ zones, ∃ a ∈ made, a.FailedUpTo z.start) :
    zones.length ≤ made.countP Attempt.failedUpwards := by
  have hsub : zones.map Zone.start ⊆
      (made.filter Attempt.failedUpwards).map fun a => a.task.lba + a.task.sectors := by
    intro x hx
    obtain ⟨z, hz, rfl⟩ := List.mem_map.mp hx
    obtain ⟨a, ha, hfailed⟩ := hup z hz
    exact List.mem_map.mpr ⟨a, List.mem_filter.mpr ⟨ha, hfailed.failedUpwards⟩, hfailed.2.2⟩
  have hlen := (List.subperm_of_subset hnodup hsub).length_le
  rwa [List.length_map, List.length_map, ← List.countP_eq_length_filter] at hlen

end Zone

namespace ZoneTable

variable {t : ZoneTable}

theorem Consistent.nodup_starts (h : t.Consistent) : (t.zones.map Zone.start).Nodup := by
  rw [List.nodup_iff_pairwise_ne, List.pairwise_map]
  refine h.spaced.2.imp_of_mem fun {z w} hz _ hzw => ?_
  have := h.spaced.1 z hz
  omega

theorem unread_le {most : Nat} (h : ∀ z ∈ t.zones, z.len ≤ most) :
    t.unread ≤ most * t.zones.length := by
  obtain ⟨zones, cursor⟩ := t
  induction zones with
  | nil => simp [unread]
  | cons z zones ih =>
    have hz := h z (by simp)
    have hrest : unread ⟨zones, none⟩ ≤ most * zones.length :=
      ih fun w hw => h w (by simp [hw])
    rw [unread_cons, List.length_cons, Nat.mul_succ]
    omega

end ZoneTable

namespace Strategy

variable {s s' s₀ : Strategy} {t t' t₀ : ZoneTable} {task : Task} {made : List Attempt}
  {reverse : Bool} {skipBlocks start stop : Nat}

theorem accountedFor_turn (h : s.next t = (.read task, s', t')) (hc : t.Consistent)
    (hall : ∀ z ∈ t.zones, z.AccountedFor made) (failed : Bool) :
    ∀ z ∈ (s'.settle t' task failed).2.zones, z.AccountedFor (made ++ [⟨task, failed⟩]) := by
  have hnext := s.forall_zones_next hall fun z cut hz _ _ => hz.cut cut
  rw [h] at hnext
  obtain ⟨l, z, r, d, rfl, hr, hp⟩ := next_poised h hc.spaced
  rw [settle_zones]
  intro w hw
  rcases hr.mem_consume hp.nonempty hw with rfl | hw
  · exact (hnext z (by simp [hr.zones])).after d failed
  · refine (hnext w ?_).mono (List.subset_append_left ..)
    simp only [hr.zones, List.mem_append, List.mem_cons] at hw ⊢
    tauto

theorem Reaches.accountedFor (h : Reaches s₀ t₀ made s t) (hc : t₀.Consistent)
    (hclean : ∀ z ∈ t₀.zones, z.startDefective = false ∧ z.stopDefective = false) :
    ∀ z ∈ t.zones, z.AccountedFor made := by
  induction h with
  | start =>
    intro z hz
    obtain ⟨hstart, hstop⟩ := hclean z hz
    exact ⟨by simp [hstart], by simp [hstop]⟩
  | turn failed hreach hn ih => exact accountedFor_turn hn (hreach.consistent hc) ih failed

/-- The strategy leaves a table alone only where its scan passes over every zone. -/
theorem stuck_of_unresolved (h : ((skipFail reverse skipBlocks).next t).1 = .unresolved)
    {l r : List Zone} {z : Zone} (hz : t.zones = l ++ z :: r) :
    z.Stuck (reverse && !r.isEmpty) false (skipSectors skipBlocks) := by
  have hnone : t.currentTask? = none := by
    cases htask : t.currentTask? with
    | none => rfl
    | some task => simp [next, htask] at h
  have hne : t.zones ≠ [] := by simp [hz]
  rcases next_skipFail_reads_or_ends reverse skipBlocks hne hnone with
    ⟨u, i, d, w, -, -, hread⟩ | ⟨-, hpassed, -⟩
  · simp [hread] at h
  · exact hpassed l z r hz

/-- When a strategy that leaps through a fresh table gives up, each zone left begins where a failed
read upwards ended, every one at another such read; if it may read downwards, each but the last ends
at a failed read downwards. So what is left is within one leap for each failure upwards. -/
theorem skipFail_leaves_leaps (hskip : max skipBlocks 1 * 256 < 2 ^ 64)
    (h : Reaches (skipFail reverse (max skipBlocks 1)) (.ofRange start stop) made s t)
    (hend : (s.next t).1 = .unresolved) :
    (∃ owner : Fin t.zones.length → Fin made.length, Function.Injective owner ∧
      ∀ i, (made.get (owner i)).FailedUpTo (t.zones.get i).start) ∧
    (reverse = true → ∀ l z r, t.zones = l ++ z :: r → r ≠ [] →
      ∃ a ∈ made, a.FailedDownTo z.stop) ∧
    t.unread ≤ max skipBlocks 1 * 256 * made.countP Attempt.failedUpwards := by
  have hc := ZoneTable.consistent_ofRange start stop
  have hclean : ∀ z ∈ (ZoneTable.ofRange start stop).zones,
      z.startDefective = false ∧ z.stopDefective = false := by
    intro z hz
    obtain ⟨rfl, -⟩ := ZoneTable.mem_ofRange_zones.mp hz
    exact ⟨rfl, rfl⟩
  have hwhole := h.accountedFor hc hclean
  obtain rfl := eq_skipFail_of_restart h.restart
  have hstuck {l r : List Zone} {z : Zone} (hz : t.zones = l ++ z :: r) :=
    stuck_of_unresolved hend hz
  rw [skipSectors_of_lt hskip] at hstuck
  have hup : ∀ z ∈ t.zones, ∃ a ∈ made, a.FailedUpTo z.start := by
    intro z hz
    obtain ⟨l, r, hlr⟩ := List.append_of_mem hz
    exact (hwhole z hz).start (hstuck hlr).start
  have hlen : ∀ z ∈ t.zones, z.len ≤ max skipBlocks 1 * 256 := by
    intro z hz
    obtain ⟨l, r, hlr⟩ := List.append_of_mem hz
    exact (hstuck hlr).len_le (Nat.le_max_right ..)
  have hnodup := (h.consistent hc).nodup_starts
  refine ⟨Zone.exists_injective_owner hnodup hup, fun hreverse l z r hlr hr => ?_, ?_⟩
  · have hmarked := (hstuck hlr).stop (by simp [hreverse, hr])
    exact (hwhole z (by simp [hlr])).stop hmarked
  · calc t.unread ≤ max skipBlocks 1 * 256 * t.zones.length := ZoneTable.unread_le hlen
      _ ≤ max skipBlocks 1 * 256 * made.countP Attempt.failedUpwards :=
        Nat.mul_le_mul_left _ (Zone.length_le_failures hnodup hup)

/-- Reads fail at the first block, above the first leap and below it: two short zones are left. -/
theorem skipFail_leaves_leaps_between_failures :
    let s₀ := Strategy.skipFail true (max 2 1)
    let made := [⟨⟨0, 256, .forward⟩, true⟩, ⟨⟨512, 256, .backward⟩, true⟩,
      ⟨⟨768, 256, .forward⟩, true⟩]
    let left := ⟨[⟨256, 512, true, true⟩, ⟨1024, 1100, true, false⟩], none⟩
    max 2 1 * 256 < 2 ^ 64 ∧ Reaches s₀ (.ofRange 0 1100) made s₀ left ∧
      (s₀.next left).1 = .unresolved ∧
      (∃ a ∈ made, a.FailedDownTo 512) ∧ left.unread ≤ max 2 1 * 256 * 2 := by
  intro s₀ made left
  have hfirst : s₀.next (.ofRange 0 1100) = (.read ⟨0, 256, .forward⟩, s₀,
      ⟨[⟨0, 1100, false, false⟩], some ⟨0, .forward⟩⟩) := by decide
  have hleap : s₀.next ⟨[⟨256, 1100, true, false⟩], none⟩ = (.read ⟨512, 256, .backward⟩, s₀,
      ⟨[⟨256, 768, true, false⟩, ⟨768, 1100, false, false⟩], some ⟨0, .backward⟩⟩) := by decide
  have habove : s₀.next ⟨[⟨256, 512, true, true⟩, ⟨768, 1100, false, false⟩], none⟩ =
      (.read ⟨768, 256, .forward⟩, s₀,
        ⟨[⟨256, 512, true, true⟩, ⟨768, 1100, false, false⟩], some ⟨1, .forward⟩⟩) := by decide
  have h₁ : Reaches s₀ (.ofRange 0 1100) [⟨⟨0, 256, .forward⟩, true⟩] s₀
      ⟨[⟨256, 1100, true, false⟩], none⟩ := .turn true .start hfirst
  have h₂ : Reaches s₀ (.ofRange 0 1100)
      [⟨⟨0, 256, .forward⟩, true⟩, ⟨⟨512, 256, .backward⟩, true⟩] s₀
      ⟨[⟨256, 512, true, true⟩, ⟨768, 1100, false, false⟩], none⟩ := .turn true h₁ hleap
  have h : Reaches s₀ (.ofRange 0 1100) made s₀ left := .turn true h₂ habove
  have hskip : max 2 1 * 256 < 2 ^ 64 := by decide
  have hend : (s₀.next left).1 = .unresolved := by decide
  obtain ⟨-, hdown, hunread⟩ := skipFail_leaves_leaps hskip h hend
  exact ⟨hskip, h, hend, hdown rfl [] ⟨256, 512, true, true⟩ [⟨1024, 1100, true, false⟩] rfl
    (by simp), hunread⟩

end Strategy

end DriveRescue
