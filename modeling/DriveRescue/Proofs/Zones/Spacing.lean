import DriveRescue.Strategy.Task
import Mathlib.Tactic.Common

/-! Zones that keep a distance from each other, the sectors they cover, and what a cut or a read
changes of both. -/
namespace DriveRescue

namespace Zone

/-- A sector lies in one of the zones. -/
def Covered (zones : List Zone) (x : Nat) : Prop := ∃ z ∈ zones, z.start ≤ x ∧ x < z.stop

/-- No zone is empty, and each begins at least `gap` sectors behind the one before it. -/
def Spaced (gap : Nat) (zones : List Zone) : Prop :=
  (∀ z ∈ zones, z.start < z.stop) ∧ zones.Pairwise fun z w => z.stop + gap ≤ w.start

structure Poised (gap : Nat) (l : List Zone) (z : Zone) (r : List Zone) (d : Direction) :
    Prop where
  nonempty : z.start < z.stop
  others : Spaced gap (l ++ r)
  below : ∀ a ∈ l, a.stop + (if d = .backward then gap else 0) ≤ z.start
  above : ∀ b ∈ r, z.stop + (if d = .forward then gap else 0) ≤ b.start

@[simp] theorem contains_iff {z : Zone} {x : Nat} :
    z.contains x = true ↔ z.start ≤ x ∧ x < z.stop := by
  simp [contains]

@[simp] theorem isEmpty_iff {z : Zone} : z.isEmpty = true ↔ z.stop ≤ z.start := by simp [isEmpty]

@[simp] theorem covered_nil (x : Nat) : ¬ Covered [] x := by simp [Covered]

@[simp] theorem covered_cons {z : Zone} {zones : List Zone} {x : Nat} :
    Covered (z :: zones) x ↔ (z.start ≤ x ∧ x < z.stop) ∨ Covered zones x := by
  simp [Covered]

@[simp] theorem covered_append {l r : List Zone} {x : Nat} :
    Covered (l ++ r) x ↔ Covered l x ∨ Covered r x := by
  simp [Covered, or_and_right, exists_or]

theorem spaced_nil (gap : Nat) : Spaced gap [] := by simp [Spaced]

theorem spaced_cons {gap : Nat} {z : Zone} {zones : List Zone} :
    Spaced gap (z :: zones) ↔
      z.start < z.stop ∧ (∀ w ∈ zones, z.stop + gap ≤ w.start) ∧ Spaced gap zones := by
  simp only [Spaced, List.forall_mem_cons, List.pairwise_cons]
  tauto

theorem spaced_append {gap : Nat} {l r : List Zone} :
    Spaced gap (l ++ r) ↔
      Spaced gap l ∧ Spaced gap r ∧ ∀ a ∈ l, ∀ b ∈ r, a.stop + gap ≤ b.start := by
  simp only [Spaced, List.forall_mem_append, List.pairwise_append]
  tauto

theorem Spaced.mono {gap less : Nat} {zones : List Zone} (h : Spaced gap zones) (hle : less ≤ gap) :
    Spaced less zones :=
  ⟨h.1, h.2.imp fun hzw => by omega⟩

/-- Wherever a zone may touch its neighbour, zones that touch nowhere are fine. -/
theorem Spaced.poised {gap : Nat} {l : List Zone} {z : Zone} {r : List Zone}
    (h : Spaced gap (l ++ z :: r)) (d : Direction) : Poised gap l z r d := by
  obtain ⟨hl, hzr, hlr⟩ := spaced_append.mp h
  obtain ⟨hz, hr, hs⟩ := spaced_cons.mp hzr
  refine ⟨hz, spaced_append.mpr ⟨hl, hs, fun a ha b hb => hlr a ha b (by simp [hb])⟩, ?_, ?_⟩
  · intro a ha
    have := hlr a ha z (by simp)
    split <;> omega
  · intro b hb
    have := hr b hb
    split <;> omega

theorem Poised.spaced {gap : Nat} {l : List Zone} {z : Zone} {r : List Zone} {d : Direction}
    (h : Poised gap l z r d) : Spaced 0 (l ++ z :: r) := by
  obtain ⟨hl, hr, hlr⟩ := spaced_append.mp (h.others.mono (Nat.zero_le gap))
  refine spaced_append.mpr ⟨hl, spaced_cons.mpr ⟨h.nonempty, ?_, hr⟩, ?_⟩
  · intro b hb
    have := h.above b hb
    omega
  · intro a ha b hb
    rcases List.mem_cons.mp hb with rfl | hb
    · have := h.below a ha
      omega
    · exact hlr a ha b hb

/-- A cut leaves the lower piece fit to be read from above. -/
theorem Spaced.poised_leading {gap : Nat} {l : List Zone} {z : Zone} {r : List Zone} {cut : Nat}
    (h : Spaced gap (l ++ z :: r)) (hlo : z.start < cut) (hhi : cut < z.stop) :
    Poised gap l (z.leading cut) (z.trailing cut :: r) .backward := by
  obtain ⟨hl, hzr, hlr⟩ := spaced_append.mp h
  obtain ⟨_, hr, hs⟩ := spaced_cons.mp hzr
  refine ⟨hlo, ?_, ?_, ?_⟩
  · refine spaced_append.mpr ⟨hl, spaced_cons.mpr ⟨hhi, hr, hs⟩, ?_⟩
    intro a ha b hb
    rcases List.mem_cons.mp hb with rfl | hb
    · have := hlr a ha z (by simp)
      simp only [trailing]
      omega
    · exact hlr a ha b (by simp [hb])
  · intro a ha
    exact hlr a ha z (by simp)
  · intro b hb
    rcases List.mem_cons.mp hb with rfl | hb
    · simp [leading, trailing]
    · have := hr b hb
      simp only [leading, reduceCtorEq, ↓reduceIte]
      omega

/-- A cut leaves the upper piece fit to be read from below. -/
theorem Spaced.poised_trailing {gap : Nat} {l : List Zone} {z : Zone} {r : List Zone} {cut : Nat}
    (h : Spaced gap (l ++ z :: r)) (hlo : z.start < cut) (hhi : cut < z.stop) :
    Poised gap (l ++ [z.leading cut]) (z.trailing cut) r .forward := by
  obtain ⟨hl, hzr, hlr⟩ := spaced_append.mp h
  obtain ⟨_, hr, hs⟩ := spaced_cons.mp hzr
  refine ⟨hhi, ?_, ?_, hr⟩
  · rw [List.append_assoc, List.singleton_append]
    refine spaced_append.mpr ⟨hl, spaced_cons.mpr ⟨hlo, ?_, hs⟩, ?_⟩
    · intro b hb
      have := hr b hb
      simp only [leading]
      omega
    · intro a ha b hb
      rcases List.mem_cons.mp hb with rfl | hb
      · exact hlr a ha z (by simp)
      · exact hlr a ha b (by simp [hb])
  · intro a ha
    rcases List.mem_append.mp ha with ha | ha
    · have := hlr a ha z (by simp)
      simp only [trailing, reduceCtorEq, ↓reduceIte]
      omega
    · obtain rfl := List.mem_singleton.mp ha
      simp [leading, trailing]

/-- A cut keeps what the two pieces cover together. -/
theorem cut_iff {z : Zone} {cut x : Nat} (hlo : z.start < cut) (hhi : cut < z.stop) :
    (((z.leading cut).start ≤ x ∧ x < (z.leading cut).stop) ∨
      ((z.trailing cut).start ≤ x ∧ x < (z.trailing cut).stop)) ↔ z.start ≤ x ∧ x < z.stop := by
  simp only [leading, trailing]
  omega

/-- Zones that touch nowhere are known by the sectors they cover. -/
theorem Spaced.bounds_eq {zones others : List Zone} (hz : Spaced 1 zones) (ho : Spaced 1 others)
    (h : ∀ x, Covered zones x ↔ Covered others x) :
    List.Forall₂ (fun z w => z.start = w.start ∧ z.stop = w.stop) zones others := by
  induction zones generalizing others with
  | nil =>
    cases others with
    | nil => exact .nil
    | cons w rest =>
      have := (spaced_cons.mp ho).1
      exact absurd ((h w.start).mpr (by simp [this])) (covered_nil _)
  | cons z zones ih =>
    cases others with
    | nil =>
      have := (spaced_cons.mp hz).1
      exact absurd ((h z.start).mp (by simp [this])) (covered_nil _)
    | cons w rest =>
      obtain ⟨hzne, hzgap, hzs⟩ := spaced_cons.mp hz
      obtain ⟨hwne, hwgap, hws⟩ := spaced_cons.mp ho
      have above {a : Zone} {l : List Zone} (hgap : ∀ b ∈ l, a.stop + 1 ≤ b.start) {x : Nat}
          (hx : Covered l x) : a.stop < x := by
        obtain ⟨b, hb, hbx, _⟩ := hx
        have := hgap b hb
        omega
      have hstart : z.start = w.start := by
        have h₁ := (h z.start).mp (by simp [hzne])
        have h₂ := (h w.start).mpr (by simp [hwne])
        rcases covered_cons.mp h₁ with h₁ | h₁ <;> rcases covered_cons.mp h₂ with h₂ | h₂
        · omega
        · have := above hzgap h₂
          omega
        · have := above hwgap h₁
          omega
        · have := above hzgap h₂
          have := above hwgap h₁
          omega
      have hstop : z.stop = w.stop := by
        rcases Nat.lt_trichotomy z.stop w.stop with hlt | heq | hlt
        · rcases covered_cons.mp ((h z.stop).mpr (by simp; omega)) with hc | hc
          · omega
          · have := above hzgap hc
            omega
        · exact heq
        · rcases covered_cons.mp ((h w.stop).mp (by simp; omega)) with hc | hc
          · omega
          · have := above hwgap hc
            omega
      refine .cons ⟨hstart, hstop⟩ (ih hzs hws fun x => ?_)
      constructor
      · intro hx
        have := above hzgap hx
        exact (covered_cons.mp ((h x).mp (covered_cons.mpr (.inr hx)))).resolve_left (by omega)
      · intro hx
        have := above hwgap hx
        exact (covered_cons.mp ((h x).mpr (covered_cons.mpr (.inr hx)))).resolve_left (by omega)

/-- The sectors right beside a zone that touches no other are not covered. -/
theorem Spaced.not_covered_beside {zones : List Zone} (h : Spaced 1 zones) {z : Zone}
    (hz : z ∈ zones) :
    ¬ Covered zones z.stop ∧ (0 < z.start → ¬ Covered zones (z.start - 1)) := by
  obtain ⟨l, r, rfl⟩ := List.append_of_mem hz
  obtain ⟨-, hzr, hl⟩ := spaced_append.mp h
  obtain ⟨-, hr, -⟩ := spaced_cons.mp hzr
  have hlt {w : Zone} (hw : w ∈ l ++ z :: r) : w.start < w.stop := h.1 w hw
  have apart {w : Zone} (hw : w ∈ l ++ z :: r) :
      w = z ∨ w.stop + 1 ≤ z.start ∨ z.stop + 1 ≤ w.start := by
    rcases List.mem_append.mp hw with hwl | hwr
    · exact .inr (.inl (hl w hwl z (by simp)))
    · rcases List.mem_cons.mp hwr with rfl | hwr
      · exact .inl rfl
      · exact .inr (.inr (hr w hwr))
  have := hlt hz
  constructor
  · rintro ⟨w, hw, hin⟩
    have := hlt hw
    rcases apart hw with rfl | hw | hw <;> omega
  · rintro hpos ⟨w, hw, hin⟩
    have := hlt hw
    rcases apart hw with rfl | hw | hw <;> omega

end Zone

namespace ZoneTable

theorem isAscending_iff {zones : List Zone} (h : ∀ z ∈ zones, z.start < z.stop) :
    isAscending zones = true ↔ zones.Pairwise fun z w => z.stop ≤ w.start := by
  induction zones with
  | nil => simp [isAscending]
  | cons z zones ih =>
    cases zones with
    | nil => simp [isAscending]
    | cons w rest =>
      have ih := ih fun a ha => h a (by simp [ha])
      simp only [isAscending, Bool.and_eq_true, decide_eq_true_eq, ih]
      rw [List.pairwise_cons (a := z)]
      refine and_congr_left fun hw => ⟨fun hzw b hb => ?_, fun hz => hz w (by simp)⟩
      -- The order is transitive only because no zone in between is empty.
      rcases List.mem_cons.mp hb with rfl | hb
      · exact hzw
      · have := (List.pairwise_cons.mp hw).1 b hb
        have := h w (by simp)
        omega

structure Consistent (t : ZoneTable) : Prop where
  spaced : Zone.Spaced 0 t.zones
  cursor : ∀ c, t.cursor = some c → c.index < t.zones.length

theorem isConsistent_iff {t : ZoneTable} : t.isConsistent = true ↔ t.Consistent := by
  simp only [isConsistent, Bool.and_eq_true, List.all_eq_true, decide_eq_true_eq,
    Option.all_eq_true, size]
  constructor
  · rintro ⟨⟨hne, hasc⟩, hc⟩
    exact ⟨⟨hne, (isAscending_iff hne).mp hasc⟩, fun c h => of_decide_eq_true (hc c h)⟩
  · rintro ⟨⟨hne, hasc⟩, hc⟩
    exact ⟨⟨hne, (isAscending_iff hne).mpr hasc⟩, fun c h => decide_eq_true (hc c h)⟩

theorem isFull_eq_false_iff {t : ZoneTable} : t.isFull = false ↔ t.size < maxZones := by
  simp only [isFull, decide_eq_false_iff_not]
  exact Nat.not_le

theorem mem_ofRange_zones {start stop : Nat} {z : Zone} :
    z ∈ (ofRange start stop).zones ↔ z = .clean start stop ∧ start < stop := by
  simp only [ofRange, ofZones, List.mem_filter, List.mem_singleton]
  refine and_congr_right fun hz => ?_
  simp [hz, Zone.clean, Zone.isEmpty]

theorem consistent_ofRange (start stop : Nat) : (ofRange start stop).Consistent := by
  refine ⟨⟨fun z hz => ?_, ?_⟩, by simp [ofRange, ofZones]⟩
  · obtain ⟨rfl, hlt⟩ := mem_ofRange_zones.mp hz
    exact hlt
  · exact (List.pairwise_singleton _ (Zone.clean start stop)).sublist List.filter_sublist

theorem covered_ofRange {start stop x : Nat} :
    Zone.Covered (ofRange start stop).zones x ↔ start ≤ x ∧ x < stop := by
  constructor
  · rintro ⟨z, hz, hx⟩
    obtain ⟨rfl, -⟩ := mem_ofRange_zones.mp hz
    exact hx
  · intro hx
    exact ⟨.clean start stop, mem_ofRange_zones.mpr ⟨rfl, by omega⟩, hx⟩

end ZoneTable

end DriveRescue
