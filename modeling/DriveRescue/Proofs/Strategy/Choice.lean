import DriveRescue.Proofs.Zones.Reading
import DriveRescue.Strategy.Policy

/-! What asking a strategy for a task can do to the table. All strategies select a zone, or one
piece of a zone they cut in two, or leave the table alone, whatever rule they follow. -/
namespace DriveRescue

namespace ZoneTable

/-- A zone of `t` is selected in `t'`, or the piece on one side of a cut through a zone of `t`. The
piece is read from the cut on. -/
inductive Chosen (t t' : ZoneTable) : Prop
  | whole {l z r d} : t.zones = l ++ z :: r → t'.Reading l z r d → Chosen t t'
  | leading {l z r cut} : t.zones = l ++ z :: r → z.start < cut → cut < z.stop →
      t'.Reading l (z.leading cut) (z.trailing cut :: r) .backward → Chosen t t'
  | trailing {l z r cut} : t.zones = l ++ z :: r → z.start < cut → cut < z.stop →
      t'.Reading (l ++ [z.leading cut]) (z.trailing cut) r .forward → Chosen t t'

variable {t t' : ZoneTable}

theorem Chosen.exists_reading (h : t.Chosen t') : ∃ l z r d, t'.Reading l z r d := by
  cases h with
  | whole _ hr => exact ⟨_, _, _, _, hr⟩
  | leading _ _ _ hr => exact ⟨_, _, _, _, hr⟩
  | trailing _ _ _ hr => exact ⟨_, _, _, _, hr⟩

/-- Zones at a distance are still so after the choice, but for the border to be read. -/
theorem Chosen.poised {gap : Nat} (h : t.Chosen t') (hs : Zone.Spaced gap t.zones) :
    ∃ l z r d, t'.Reading l z r d ∧ Zone.Poised gap l z r d := by
  cases h with
  | whole hz hr => exact ⟨_, _, _, _, hr, (hz ▸ hs).poised _⟩
  | leading hz hlo hhi hr => exact ⟨_, _, _, _, hr, (hz ▸ hs).poised_leading hlo hhi⟩
  | trailing hz hlo hhi hr => exact ⟨_, _, _, _, hr, (hz ▸ hs).poised_trailing hlo hhi⟩

theorem Chosen.covered (h : t.Chosen t') (x : Nat) :
    Zone.Covered t'.zones x ↔ Zone.Covered t.zones x := by
  cases h with
  | whole hz hr => rw [hr.zones, hz]
  | leading hz hlo hhi hr =>
    rw [hr.zones, hz]
    simp only [Zone.covered_append, Zone.covered_cons, ← Zone.cut_iff hlo hhi]
    tauto
  | trailing hz hlo hhi hr =>
    rw [hr.zones, hz, List.append_assoc, List.singleton_append]
    simp only [Zone.covered_append, Zone.covered_cons, ← Zone.cut_iff hlo hhi]
    tauto

theorem Chosen.unread (h : t.Chosen t') : t'.unread = t.unread := by
  cases h with
  | whole hz hr => exact unread_congr (by rw [hr.zones, hz])
  | @leading l z r cut hz hlo hhi hr =>
    rw [unread_congr (u := ⟨l ++ z.leading cut :: z.trailing cut :: r, none⟩) hr.zones,
      unread_congr (u := ⟨l ++ z :: r, none⟩) hz]
    simp only [unread_append, unread_cons, Zone.len, Zone.leading, Zone.trailing]
    omega
  | @trailing l z r cut hz hlo hhi hr =>
    rw [unread_congr (u := ⟨l ++ z.leading cut :: z.trailing cut :: r, none⟩) (by simp [hr.zones]),
      unread_congr (u := ⟨l ++ z :: r, none⟩) hz]
    simp only [unread_append, unread_cons, Zone.len, Zone.leading, Zone.trailing]
    omega

/-- Whatever holds of a zone and of the pieces of a cut holds after the choice. -/
theorem Chosen.forall_zones {p : Zone → Prop} (h : t.Chosen t') (hp : ∀ z ∈ t.zones, p z)
    (hcut : ∀ z cut, p z → z.start < cut → cut < z.stop →
      p (z.leading cut) ∧ p (z.trailing cut)) : ∀ z ∈ t'.zones, p z := by
  cases h with
  | whole hz hr => rwa [hr.zones, ← hz]
  | @leading l z r cut hz hlo hhi hr =>
    rw [hz, List.forall_mem_append, List.forall_mem_cons] at hp
    rw [hr.zones, List.forall_mem_append, List.forall_mem_cons, List.forall_mem_cons]
    obtain ⟨hleading, htrailing⟩ := hcut z cut hp.2.1 hlo hhi
    exact ⟨hp.1, hleading, htrailing, hp.2.2⟩
  | @trailing l z r cut hz hlo hhi hr =>
    rw [hz, List.forall_mem_append, List.forall_mem_cons] at hp
    rw [hr.zones, List.append_assoc, List.singleton_append, List.forall_mem_append,
      List.forall_mem_cons, List.forall_mem_cons]
    obtain ⟨hleading, htrailing⟩ := hcut z cut hp.2.1 hlo hhi
    exact ⟨hp.1, hleading, htrailing, hp.2.2⟩

theorem divide?_eq_some {i cut upper : Nat} {z : Zone} (h : t.divide? i cut = some (upper, t'))
    (hz : t.zones[i]? = some z) : ∃ l r, t.zones = l ++ z :: r ∧ l.length = i ∧ upper = i + 1 ∧
      t'.zones = l ++ z.leading cut :: z.trailing cut :: r := by
  obtain ⟨l, r, hlr, rfl⟩ := zones_eq_of_getElem? hz
  unfold divide? at h
  split at h
  · simp at h
  · simp only [hz, Option.map_some, Option.some.injEq, Prod.mk.injEq] at h
    obtain ⟨rfl, rfl⟩ := h
    exact ⟨l, r, hlr, rfl, rfl, by simp [hlr]⟩

theorem carve?_eq_some {i cut upper : Nat} (h : t.carve? i cut = some (upper, t')) :
    ∃ l z r, t.zones = l ++ z :: r ∧ l.length = i ∧ upper = i + 1 ∧ z.start < cut ∧ cut < z.stop ∧
      t'.zones = l ++ z.leading cut :: z.trailing cut :: r := by
  obtain ⟨z, hz, h⟩ := Option.bind_eq_some_iff.mp h
  split at h
  · next hcut =>
    obtain ⟨l, r, hlr, hi, hupper, ht'⟩ := divide?_eq_some h hz
    exact ⟨l, z, r, hlr, hi, hupper, hcut.1, hcut.2, ht'⟩
  · simp at h

theorem split?_eq_some {i cut upper : Nat} (h : t.split? i cut = some (upper, t')) :
    ∃ l z r, t.zones = l ++ z :: r ∧ l.length = i ∧ upper = i + 1 ∧ z.start + blockSectors < cut ∧
      cut + blockSectors < z.stop ∧ t'.zones = l ++ z.leading cut :: z.trailing cut :: r := by
  obtain ⟨z, hz, h⟩ := Option.bind_eq_some_iff.mp h
  split at h
  · next hcut =>
    obtain ⟨l, r, hlr, hi, hupper, ht'⟩ := divide?_eq_some h hz
    exact ⟨l, z, r, hlr, hi, hupper, hcut.2.1, hcut.2.2, ht'⟩
  · simp at h

theorem currentTask?_of_cursor (h : t.cursor = none) : t.currentTask? = none := by
  simp [currentTask?, h]

theorem chosen_select {i : Nat} (h : i < t.zones.length) (d : Direction) :
    t.Chosen (t.select i d) := by
  obtain ⟨l, r, hlr, rfl⟩ := zones_eq_of_getElem? (List.getElem?_eq_getElem h)
  exact .whole hlr ⟨hlr, rfl⟩

theorem chosen_of_cleanBorder? {reverse : Bool} {c : Cursor} (h : t.cleanBorder? reverse = some c) :
    t.Chosen (t.select c.index c.direction) := by
  unfold cleanBorder? at h
  split at h
  · next i hi =>
    obtain rfl := Option.some.inj h
    exact chosen_select (List.findIdx?_eq_some_iff_getElem.mp hi).1 _
  · split at h
    · obtain ⟨i, hi, rfl⟩ := Option.map_eq_some_iff.mp h
      exact chosen_select (List.findIdx?_eq_some_iff_getElem.mp hi).1 _
    · simp at h

theorem chosen_of_probeMiddle? (h : t.probeMiddle? = some t') : t.Chosen t' := by
  obtain ⟨⟨i, n⟩, -, h⟩ := Option.bind_eq_some_iff.mp h
  dsimp only at h
  split at h
  · simp at h
  · obtain ⟨w, -, h⟩ := Option.bind_eq_some_iff.mp h
    obtain ⟨⟨upper, u⟩, hu, rfl⟩ := Option.map_eq_some_iff.mp h
    obtain ⟨l, z, r, hlr, rfl, rfl, hlo, hhi, hu⟩ := split?_eq_some hu
    exact .trailing hlr (Nat.lt_of_le_of_lt (Nat.le_add_right ..) hlo)
      (Nat.lt_of_le_of_lt (Nat.le_add_right ..) hhi) ⟨by simp [select, hu], by simp [select]⟩

theorem chosen_of_leap? {reverse full : Bool} {skip i : Nat} {zones : List Zone}
    (hi : i + zones.length = t.zones.length)
    (h : t.leap? reverse full skip i zones = some t') : t.Chosen t' := by
  induction zones generalizing i with
  | nil => simp [leap?] at h
  | cons z rest ih =>
    simp only [List.length_cons] at hi
    simp only [leap?] at h
    split at h
    · obtain rfl := Option.some.inj h
      exact chosen_select (by omega) _
    · split at h
      · obtain rfl := Option.some.inj h
        exact chosen_select (by omega) _
      · split at h
        · next upper u hcarve =>
          split at hcarve
          · obtain ⟨l, z, r, hlr, rfl, rfl, hlo, hhi, hu⟩ := carve?_eq_some hcarve
            obtain rfl := Option.some.inj h
            cases reverse
            · exact .trailing hlr hlo hhi ⟨by simp [select, hu], by simp [select]⟩
            · exact .leading hlr hlo hhi ⟨by simp [select, hu], by simp [select]⟩
          · simp at hcarve
        · exact ih (by omega) h

end ZoneTable

namespace Strategy

/-- The smart strategy always finds something to read. -/
theorem chosen_smart (reverse fallback : Bool) {t : ZoneTable} (h : t.zones ≠ []) :
    t.Chosen ((smart reverse fallback).choose t).2 := by
  have hpos : 0 < t.zones.length := List.length_pos_iff.mpr h
  cases fallback with
  | true => exact ZoneTable.chosen_select hpos _
  | false =>
    simp only [choose]
    split
    · next c hc => exact ZoneTable.chosen_of_cleanBorder? hc
    · split
      · next hm => exact ZoneTable.chosen_of_probeMiddle? hm
      · exact ZoneTable.chosen_select hpos _

/-- A strategy that finds nothing to read changes nothing. -/
theorem chosen_or_eq (s : Strategy) {t : ZoneTable} (h : t.zones ≠ []) :
    t.Chosen (s.choose t).2 ∨ s.choose t = (s, t) := by
  have hpos : 0 < t.zones.length := List.length_pos_iff.mpr h
  cases s with
  | plain => exact .inl (ZoneTable.chosen_select hpos _)
  | smart reverse fallback => exact .inl (chosen_smart reverse fallback h)
  | skipFail reverse skipBlocks =>
    simp only [choose]
    split
    · next hl => exact .inl (ZoneTable.chosen_of_leap? (Nat.zero_add _) hl)
    · split
      · exact .inl (ZoneTable.chosen_select hpos _)
      · exact .inr rfl

/-- What asking for a task comes to: there is none and nothing changes, or it is the next one of the
zone that is selected then. -/
theorem next_cases (s : Strategy) (t : ZoneTable) :
    ((s.next t).2 = (s, t) ∧ ∀ task, (s.next t).1 ≠ .read task) ∨
      ∃ l z r d, (s.next t).1 = .read (z.task d) ∧ (s.next t).2.2.Reading l z r d ∧
        ((s.next t).2 = (s, t) ∨ t.Chosen (s.next t).2.2) := by
  unfold next
  split
  · next task h =>
    obtain ⟨l, z, r, d, hr, rfl⟩ := ZoneTable.exists_reading h
    exact .inr ⟨l, z, r, d, rfl, hr, .inl rfl⟩
  · next hnone =>
    split
    · exact .inl ⟨rfl, by simp⟩
    · next hne =>
      rcases s.chosen_or_eq (t := t) (by simpa [ZoneTable.isEmpty] using hne) with hc | hc
      · obtain ⟨l, z, r, d, hr⟩ := hc.exists_reading
        exact .inr ⟨l, z, r, d, by simp [hr.currentTask?], hr, .inr hc⟩
      · rw [hc]
        exact .inl ⟨rfl, by simp [hnone]⟩

/-- Where no zone is left the strategy is done. -/
theorem next_of_nil (s : Strategy) {t : ZoneTable} (h : t.zones = []) :
    s.next t = (.done, s, t) := by
  have hnone : t.currentTask? = none := by
    cases hcursor : t.cursor <;> simp [ZoneTable.currentTask?, hcursor, h]
  simp [next, hnone, ZoneTable.isEmpty, h]

/-- While no zone is selected the strategy chooses. -/
theorem next_of_currentTask? (s : Strategy) {t : ZoneTable} (hne : t.zones ≠ [])
    (hnone : t.currentTask? = none) :
    s.next t = ((s.choose t).2.currentTask?.elim .unresolved .read, s.choose t) := by
  have hsome : t.isEmpty = false := by simpa [ZoneTable.isEmpty] using hne
  simp only [next, hnone, hsome, Bool.false_eq_true, ↓reduceIte]

/-- A task is the selected zone's, or comes with a choice. -/
theorem next_eq_read {s s' : Strategy} {t t' : ZoneTable} {task : Task}
    (h : s.next t = (.read task, s', t')) :
    t'.currentTask? = some task ∧
      ((t.currentTask? = some task ∧ s' = s ∧ t' = t) ∨
        (t.currentTask? = none ∧ t.zones ≠ [] ∧ s.choose t = (s', t'))) := by
  unfold next at h
  split at h
  · next found hfound =>
    obtain ⟨rfl, rfl, rfl⟩ : found = task ∧ s = s' ∧ t = t' := by simpa using h
    exact ⟨hfound, .inl ⟨hfound, rfl, rfl⟩⟩
  · next hnone =>
    split at h
    · simp at h
    · next hne =>
      rcases hchoose : s.choose t with ⟨u, v⟩
      simp only [hchoose, Prod.mk.injEq] at h
      obtain ⟨hread, rfl, rfl⟩ := h
      refine ⟨?_, .inr ⟨hnone, by simpa [ZoneTable.isEmpty] using hne, rfl⟩⟩
      cases htask : v.currentTask? with
      | none => simp [htask] at hread
      | some found => simpa [htask] using hread

end Strategy

end DriveRescue
