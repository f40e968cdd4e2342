import DriveRescue.Proofs.Strategy.Consumption
import Mathlib.Algebra.Order.BigOperators.Group.Finset
import Mathlib.Data.Finset.Prod
import Mathlib.Order.Interval.Finset.Nat

/-! How much a run loses to bad sectors. A read fails if one of its sectors is bad, and takes up to
a block of good ones along; so what is lost lies within a block of the bad sectors. -/
namespace DriveRescue

/-- The longest runs of bad sectors, each with the sector behind its last. -/
def badRuns (bad : Finset ℕ) : Finset (ℕ × ℕ) :=
  (bad ×ˢ bad.image (· + 1)).filter fun r =>
    r.1 < r.2 ∧ Finset.Ico r.1 r.2 ⊆ bad ∧ (r.1 = 0 ∨ r.1 - 1 ∉ bad) ∧ r.2 ∉ bad

/-- The sectors that a block may have in common with a run of bad ones. -/
def surroundings (bad : Finset ℕ) : Finset ℕ :=
  (badRuns bad).biUnion fun r => Finset.Ico (r.1 - 255) (r.2 + 255)

section Runs

variable {bad : Finset ℕ} {b x : ℕ}

theorem mem_badRuns {r : ℕ × ℕ} :
    r ∈ badRuns bad ↔
      r.1 < r.2 ∧ Finset.Ico r.1 r.2 ⊆ bad ∧ (r.1 = 0 ∨ r.1 - 1 ∉ bad) ∧ r.2 ∉ bad := by
  simp only [badRuns, Finset.mem_filter, Finset.mem_product, Finset.mem_image]
  refine ⟨And.right, fun h => ⟨⟨?_, r.2 - 1, ?_, ?_⟩, h⟩⟩
  · exact h.2.1 (Finset.mem_Ico.mpr ⟨Nat.le_refl _, h.1⟩)
  · exact h.2.1 (Finset.mem_Ico.mpr (by omega))
  · omega

theorem exists_badRun (hb : b ∈ bad) : ∃ r ∈ badRuns bad, r.1 ≤ b ∧ b < r.2 := by
  have hbehind : ∃ stop, b < stop ∧ stop ∉ bad := by
    refine ⟨bad.sup id + 1, Nat.lt_succ_of_le (Finset.le_sup (f := id) hb), fun hin => ?_⟩
    have hle : bad.sup id + 1 ≤ bad.sup id := Finset.le_sup (f := id) hin
    omega
  have hbefore : ∃ start ≤ b, Finset.Ico start (b + 1) ⊆ bad := by
    refine ⟨b, Nat.le_refl b, fun x hx => ?_⟩
    have hx := Finset.mem_Ico.mp hx
    obtain rfl : x = b := by omega
    exact hb
  obtain ⟨hstop, hgood⟩ := Nat.find_spec hbehind
  obtain ⟨hstart, hbelow⟩ := Nat.find_spec hbefore
  refine ⟨(Nat.find hbefore, Nat.find hbehind), mem_badRuns.mpr ⟨by omega, ?_, ?_, hgood⟩,
    hstart, hstop⟩
  · intro x hx
    have hx := Finset.mem_Ico.mp hx
    rcases Nat.lt_or_ge b x with hlt | hle
    · by_contra hx'
      exact Nat.find_min hbehind hx.2 ⟨hlt, hx'⟩
    · exact hbelow (Finset.mem_Ico.mpr ⟨hx.1, by omega⟩)
  · -- A bad sector right below would be part of the run.
    by_contra! hno
    obtain ⟨hpos, hprev⟩ := hno
    refine Nat.find_min hbefore (Nat.sub_one_lt hpos) ⟨by omega, fun x hx => ?_⟩
    have hx := Finset.mem_Ico.mp hx
    rcases Nat.lt_or_ge x (Nat.find hbefore) with hlt | hle
    · obtain rfl : x = Nat.find hbefore - 1 := by omega
      exact hprev
    · exact hbelow (Finset.mem_Ico.mpr ⟨hle, hx.2⟩)

theorem mem_surroundings_of_near (hb : b ∈ bad) (hlo : b ≤ x + 255) (hhi : x ≤ b + 255) :
    x ∈ surroundings bad := by
  obtain ⟨r, hr, hstart, hstop⟩ := exists_badRun hb
  exact Finset.mem_biUnion.mpr ⟨r, hr, Finset.mem_Ico.mpr ⟨by omega, by omega⟩⟩

theorem card_surroundings_le (bad : Finset ℕ) :
    (surroundings bad).card ≤ ∑ r ∈ badRuns bad, (r.2 - r.1 + 510) := by
  calc (surroundings bad).card
      ≤ ∑ r ∈ badRuns bad, (Finset.Ico (r.1 - 255) (r.2 + 255)).card := Finset.card_biUnion_le
    _ ≤ ∑ r ∈ badRuns bad, (r.2 - r.1 + 510) := by
      refine Finset.sum_le_sum fun r hr => ?_
      have hlt := (mem_badRuns.mp hr).1
      rw [Nat.card_Ico]
      omega

end Runs

/-- Tasks without a sector in common have no more sectors than what they lie in. -/
theorem sum_sectors_le_card {tasks : List Task} {within : Finset ℕ}
    (hdisjoint : tasks.Pairwise Task.Disjoint)
    (hwithin : ∀ k ∈ tasks, ∀ x, k.Spans x → x ∈ within) :
    (tasks.map Task.sectors).sum ≤ within.card := by
  induction tasks generalizing within with
  | nil => exact Nat.zero_le _
  | cons k tasks ih =>
    obtain ⟨hapart, hdisjoint⟩ := List.pairwise_cons.mp hdisjoint
    have hown : Finset.Ico k.lba (k.lba + k.sectors) ⊆ within := fun x hx =>
      hwithin k (by simp) x (Finset.mem_Ico.mp hx)
    have hothers : ∀ m ∈ tasks, ∀ x, m.Spans x →
        x ∈ within \ Finset.Ico k.lba (k.lba + k.sectors) := by
      intro m hm x hx
      refine Finset.mem_sdiff.mpr ⟨hwithin m (by simp [hm]) x hx, fun hk => ?_⟩
      exact hapart m hm x (Finset.mem_Ico.mp hk) hx
    have hrest := ih hdisjoint hothers
    have hcard := Finset.card_sdiff_add_card_eq_card hown
    rw [Nat.card_Ico] at hcard
    rw [List.map_cons, List.sum_cons]
    omega

namespace Attempt

/-- The attempt failed if it met a bad sector, and not otherwise. -/
def TrueTo (a : Attempt) (bad : Finset ℕ) : Prop := a.failed = true ↔ ∃ b ∈ bad, a.task.Spans b

variable {a : Attempt} {bad : Finset ℕ} {x : ℕ}

theorem TrueTo.not_mem (h : a.TrueTo bad) (hgood : a.failed = false) (hx : a.task.Spans x) :
    x ∉ bad := by
  intro hbad
  have hfailed := h.mpr ⟨x, hbad, hx⟩
  simp [hgood] at hfailed

theorem TrueTo.exists_near (h : a.TrueTo bad) (hlen : a.task.sectors ≤ blockSectors)
    (hfailed : a.failed = true) (hx : a.task.Spans x) :
    ∃ b ∈ bad, b ≤ x + 255 ∧ x ≤ b + 255 := by
  obtain ⟨b, hb, hspans⟩ := h.mp hfailed
  simp only [Task.Spans, blockSectors] at hx hspans hlen
  exact ⟨b, hb, by omega, by omega⟩

def failedSectors (made : List Attempt) : ℕ := ((made.filter failed).map (·.task.sectors)).sum

theorem failedSectors_concat (made : List Attempt) (a : Attempt) :
    failedSectors (made ++ [a]) =
      failedSectors made + if a.failed then a.task.sectors else 0 := by
  cases ha : a.failed <;> simp [failedSectors, List.filter_append, ha]

/-- What fails is at most each run of bad sectors with what a block reaches on either side. -/
theorem failedSectors_le {made : List Attempt}
    (hdisjoint : made.Pairwise fun a b => a.task.Disjoint b.task)
    (hlen : ∀ a ∈ made, a.task.sectors ≤ blockSectors) (htrue : ∀ a ∈ made, a.TrueTo bad) :
    failedSectors made ≤ ∑ r ∈ badRuns bad, (r.2 - r.1 + 510) := by
  have hfailed : ((made.filter failed).map task).Pairwise Task.Disjoint :=
    List.pairwise_map.mpr (hdisjoint.sublist List.filter_sublist)
  have hnear : ∀ k ∈ (made.filter failed).map task, ∀ x, k.Spans x → x ∈ surroundings bad := by
    intro k hk x hx
    obtain ⟨a, ha, rfl⟩ := List.mem_map.mp hk
    obtain ⟨ha, hfailed⟩ := List.mem_filter.mp ha
    obtain ⟨b, hb, hlo, hhi⟩ := (htrue a ha).exists_near (hlen a ha) hfailed hx
    exact mem_surroundings_of_near hb hlo hhi
  calc failedSectors made
      = (((made.filter failed).map task).map Task.sectors).sum := by
        rw [failedSectors, List.map_map]
        rfl
    _ ≤ (surroundings bad).card := sum_sectors_le_card hfailed hnear
    _ ≤ ∑ r ∈ badRuns bad, (r.2 - r.1 + 510) := card_surroundings_le bad

end Attempt

namespace Strategy

variable {s s₀ : Strategy} {t t₀ : ZoneTable} {made : List Attempt}

theorem Reaches.sectors_le (h : Reaches s₀ t₀ made s t) (hc : t₀.Consistent) :
    ∀ a ∈ made, a.task.sectors ≤ blockSectors := by
  induction h with
  | start => simp
  | @turn made s t task s' t' failed hreach hn ih =>
    obtain ⟨l, z, r, d, rfl, -, -⟩ := next_poised hn (hreach.consistent hc).spaced
    refine List.forall_mem_append.mpr ⟨ih, List.forall_mem_singleton.mpr ?_⟩
    rw [Zone.task_sectors]
    exact Nat.min_le_right ..

end Strategy

end DriveRescue
