import DriveRescue.Proofs.Strategy.Choice

/-! How the smart strategy finds a task. It looks for a clean border, and where there is none it
looks again after it has halved the longest zone or has fallen back. The search is over by its
second turn, so that the choice can be made without a loop. -/
namespace DriveRescue

/-- The block border at or below the middle of a zone. -/
def Zone.middle (z : Zone) : Nat := alignDown (z.start + z.len / 2)

/-- A zone that may be halved has more than a block on either side of its middle. -/
theorem Zone.middle_between {z : Zone} (h : indivisibleSectors < z.len) :
    z.middle % blockSectors = 0 ∧ z.start + blockSectors < z.middle ∧
      z.middle + blockSectors < z.stop := by
  have hlow := alignDown_le (z.start + z.len / 2)
  have hhigh := lt_alignDown_add (z.start + z.len / 2)
  refine ⟨alignDown_mod _, ?_⟩
  simp only [middle, indivisibleSectors, blockSectors, len] at h hlow hhigh ⊢
  omega

namespace ZoneTable

variable {t t' : ZoneTable} {reverse : Bool}

theorem longest?_eq_none {zones : List Zone} (h : longest? zones = none) : zones = [] := by
  cases zones with
  | nil => rfl
  | cons z rest =>
    unfold longest? at h
    split at h
    · simp at h
    · split at h <;> simp at h

theorem longest?_eq_some {zones : List Zone} {i n : Nat} (h : longest? zones = some (i, n)) :
    (∃ z, zones[i]? = some z ∧ z.len = n) ∧ ∀ w ∈ zones, w.len ≤ n := by
  induction zones generalizing i n with
  | nil => simp [longest?] at h
  | cons z rest ih =>
    unfold longest? at h
    split at h
    · next hnone =>
      obtain ⟨rfl, rfl⟩ : 0 = i ∧ z.len = n := by simpa using h
      simp [longest?_eq_none hnone]
    · next k m hsome =>
      obtain ⟨⟨w, hw, hlen⟩, hmax⟩ := ih hsome
      split at h
      · next hle =>
        obtain ⟨rfl, rfl⟩ : 0 = i ∧ z.len = n := by simpa using h
        refine ⟨⟨z, rfl, rfl⟩, ?_⟩
        intro v hv
        rcases List.mem_cons.mp hv with rfl | hv
        · exact Nat.le_refl _
        · exact Nat.le_trans (hmax v hv) hle
      · next hlt =>
        obtain ⟨rfl, rfl⟩ : k + 1 = i ∧ m = n := by simpa using h
        refine ⟨⟨w, by simpa using hw, hlen⟩, ?_⟩
        intro v hv
        rcases List.mem_cons.mp hv with rfl | hv
        · omega
        · exact hmax v hv

theorem cleanBorder?_of_start {l r : List Zone} {z : Zone} (h : t.zones = l ++ z :: r)
    (hl : ∀ w ∈ l, w.startDefective = true) (hz : z.startDefective = false) :
    t.cleanBorder? reverse = some ⟨l.length, .forward⟩ := by
  have hfind : t.zones.findIdx? (!·.startDefective) = some l.length := by
    rw [h, List.findIdx?_append, List.findIdx?_eq_none_iff.mpr (by simpa using hl)]
    simp [List.findIdx?_cons, hz]
  simp [cleanBorder?, hfind]

theorem cleanBorder?_of_stop {l r : List Zone} {z : Zone} (h : t.zones = l ++ z :: r)
    (hstart : ∀ w ∈ t.zones, w.startDefective = true) (hl : ∀ w ∈ l, w.stopDefective = true)
    (hz : z.stopDefective = false) :
    t.cleanBorder? true = some ⟨l.length, .backward⟩ := by
  have hnone : t.zones.findIdx? (!·.startDefective) = none :=
    List.findIdx?_eq_none_iff.mpr (by simpa using hstart)
  have hfind : t.zones.findIdx? (!·.stopDefective) = some l.length := by
    rw [h, List.findIdx?_append, List.findIdx?_eq_none_iff.mpr (by simpa using hl)]
    simp [List.findIdx?_cons, hz]
  simp [cleanBorder?, hnone, hfind]

theorem cleanBorder?_eq_none_iff : t.cleanBorder? reverse = none ↔
    (∀ w ∈ t.zones, w.startDefective = true) ∧
      (reverse = true → ∀ w ∈ t.zones, w.stopDefective = true) := by
  unfold cleanBorder?
  split
  · next i hi =>
    obtain ⟨hlt, hclean, -⟩ := List.findIdx?_eq_some_iff_getElem.mp hi
    simp only [reduceCtorEq, false_iff, not_and]
    intro hall
    simp [hall _ (List.getElem_mem hlt)] at hclean
  · next hnone =>
    have hstart : ∀ w ∈ t.zones, w.startDefective = true := by
      simpa using List.findIdx?_eq_none_iff.mp hnone
    cases reverse with
    | false => simpa using hstart
    | true => simpa [List.findIdx?_eq_none_iff] using fun _ => hstart

/-- The zones on either side of the first one of which `p` holds. -/
private theorem exists_append_of_findIdx? {p : Zone → Bool} {zones : List Zone} {i : Nat}
    (h : zones.findIdx? p = some i) :
    ∃ l z r, zones = l ++ z :: r ∧ l.length = i ∧ p z = true ∧ ∀ w ∈ l, p w = false := by
  obtain ⟨hlt, hp, hbelow⟩ := List.findIdx?_eq_some_iff_getElem.mp h
  refine ⟨zones.take i, zones[i], zones.drop (i + 1), ?_, by simp; omega, hp, ?_⟩
  · rw [List.getElem_cons_drop, List.take_append_drop]
  · intro w hw
    obtain ⟨k, hk, rfl⟩ := List.mem_take_iff_getElem.mp hw
    simpa using hbelow k (by omega)

/-- A clean border is the first clean start or, with none left, the first clean stop. -/
theorem cleanBorder?_eq_some {c : Cursor} (h : t.cleanBorder? reverse = some c) :
    ∃ l z r, t.zones = l ++ z :: r ∧ l.length = c.index ∧
      ((c.direction = .forward ∧ z.startDefective = false ∧
          ∀ w ∈ l, w.startDefective = true) ∨
        (c.direction = .backward ∧ reverse = true ∧ z.stopDefective = false ∧
          (∀ w ∈ t.zones, w.startDefective = true) ∧ ∀ w ∈ l, w.stopDefective = true)) := by
  unfold cleanBorder? at h
  split at h
  · next i hi =>
    obtain ⟨l, z, r, hlr, hlen, hz, hl⟩ := exists_append_of_findIdx? hi
    obtain rfl := Option.some.inj h
    exact ⟨l, z, r, hlr, hlen, .inl ⟨rfl, by simpa using hz, by simpa using hl⟩⟩
  · next hnone =>
    split at h
    · next hreverse =>
      obtain ⟨i, hi, rfl⟩ := Option.map_eq_some_iff.mp h
      obtain ⟨l, z, r, hlr, hlen, hz, hl⟩ := exists_append_of_findIdx? hi
      refine ⟨l, z, r, hlr, hlen, .inr ⟨rfl, hreverse, by simpa using hz, ?_, by simpa using hl⟩⟩
      simpa using List.findIdx?_eq_none_iff.mp hnone
    · simp at h

def halveLongest? (t : ZoneTable) : Option ZoneTable :=
  (longest? t.zones).bind fun (i, n) =>
    if n ≤ indivisibleSectors then none
    else t.zones[i]?.bind fun z => (t.split? i (alignDown (z.start + n / 2))).map (·.2)

/-- Nothing stands in the way of halving a zone that is too long, but for a full table. -/
theorem halveLongest?_cases (t : ZoneTable) :
    (t.halveLongest? = none ∧ t.probeMiddle? = none ∧
        (t.isFull = true ∨ ∀ w ∈ t.zones, w.len ≤ indivisibleSectors)) ∨
      ∃ l z r, t.zones = l ++ z :: r ∧ indivisibleSectors < z.len ∧
        t.halveLongest? = some ⟨l ++ z.leading z.middle :: z.trailing z.middle :: r,
          t.cursor.map (·.afterInsert l.length)⟩ ∧
        t.probeMiddle? = some ⟨l ++ z.leading z.middle :: z.trailing z.middle :: r,
          some ⟨l.length + 1, .forward⟩⟩ := by
  unfold halveLongest? probeMiddle?
  cases hlongest : longest? t.zones with
  | none => exact .inl ⟨rfl, rfl, .inr (by simp [longest?_eq_none hlongest])⟩
  | some found =>
    obtain ⟨i, n⟩ := found
    obtain ⟨⟨z, hz, rfl⟩, hmax⟩ := longest?_eq_some hlongest
    obtain ⟨l, r, hlr, rfl⟩ := zones_eq_of_getElem? hz
    have hmiddle : alignDown (z.start + z.len / 2) = z.middle := rfl
    simp only [Option.bind_some, hz, hmiddle]
    by_cases hle : z.len ≤ indivisibleSectors
    · rw [if_pos hle, if_pos hle]
      exact .inl ⟨rfl, rfl, .inr fun w hw => Nat.le_trans (hmax w hw) hle⟩
    · rw [if_neg hle, if_neg hle]
      have hlong : indivisibleSectors < z.len := Nat.lt_of_not_le hle
      simp only [split?, hz, Option.bind_some, if_pos (Zone.middle_between hlong), divide?]
      by_cases hfull : t.isFull = true
      · simp [hfull]
      · refine .inr ⟨l, z, r, hlr, hlong, ?_, ?_⟩
        · simp [hfull, hlr]
        · simp [hfull, hlr, select]

/-- In a table that was halved for want of a clean border the only clean start is that of the upper
half. -/
theorem cleanBorder?_halved {l r : List Zone} {z : Zone} {cut : Nat} (h : t.zones = l ++ z :: r)
    (hstart : ∀ w ∈ t.zones, w.startDefective = true) (c : Option Cursor) :
    cleanBorder? ⟨l ++ z.leading cut :: z.trailing cut :: r, c⟩ reverse =
      some ⟨l.length + 1, .forward⟩ := by
  have hbelow : ∀ w ∈ l ++ [z.leading cut], w.startDefective = true := by
    intro w hw
    rcases List.mem_append.mp hw with hw | hw
    · exact hstart w (by simp [h, hw])
    · obtain rfl := List.mem_singleton.mp hw
      exact hstart z (by simp [h])
  have hborder := @cleanBorder?_of_start ⟨l ++ z.leading cut :: z.trailing cut :: r, c⟩ reverse
    (l ++ [z.leading cut]) r (z.trailing cut) (by simp) hbelow rfl
  simpa using hborder

theorem cursor_eq_none_of_currentTask? (hc : t.Consistent) (h : t.currentTask? = none) :
    t.cursor = none := by
  cases hcur : t.cursor with
  | none => rfl
  | some c =>
    have hlt := hc.cursor c hcur
    simp [currentTask?, hcur, hlt] at h

end ZoneTable

namespace Strategy

variable {reverse fallback : Bool} {t : ZoneTable}

/-- How a turn of the search ends. -/
inductive Turn where
  | found (next : Next) (t : ZoneTable)
  /-- The longest zone has been halved. -/
  | halved (t : ZoneTable)
  /-- No border is clean and no zone can be halved. -/
  | exhausted

/-- One turn of the search of the smart strategy. -/
def turn (reverse fallback : Bool) (t : ZoneTable) : Turn :=
  match t.currentTask? with
  | some task => .found (.read task) t
  | none =>
    if t.isEmpty then .found .done t
    else if fallback then
      let t := t.select 0 .forward
      .found (t.currentTask?.elim .unresolved .read) t
    else
      match t.cleanBorder? reverse with
      | some c =>
        let t := t.select c.index c.direction
        .found (t.currentTask?.elim .unresolved .read) t
      | none => t.halveLongest?.elim .exhausted .halved

/-- Searches for up to `turns` turns, and tells how often a zone was halved on the way. -/
def search (reverse : Bool) :
    (turns : Nat) → (fallback : Bool) → ZoneTable → Option (Nat × Next × Strategy × ZoneTable)
  | 0, _, _ => none
  | turns + 1, fallback, t =>
    match turn reverse fallback t with
    | .found next t => some (0, next, smart reverse fallback, t)
    | .halved t => (search reverse turns fallback t).map fun (halved, rest) => (halved + 1, rest)
    | .exhausted => search reverse turns true t

/-- What the smart strategy chooses, and when it falls back. -/
theorem choose_smart_cases (reverse : Bool) (t : ZoneTable) :
    (∃ c, t.cleanBorder? reverse = some c ∧
        (smart reverse false).choose t = (smart reverse false, t.select c.index c.direction)) ∨
      (t.cleanBorder? reverse = none ∧ ∃ l z r, t.zones = l ++ z :: r ∧
        indivisibleSectors < z.len ∧
        (smart reverse false).choose t = (smart reverse false,
          ⟨l ++ z.leading z.middle :: z.trailing z.middle :: r, some ⟨l.length + 1, .forward⟩⟩)) ∨
      (t.cleanBorder? reverse = none ∧
        (t.isFull = true ∨ ∀ w ∈ t.zones, w.len ≤ indivisibleSectors) ∧
        (smart reverse false).choose t = (smart reverse true, t.select 0 .forward)) := by
  cases hclean : t.cleanBorder? reverse with
  | some c => exact .inl ⟨c, rfl, by simp [choose, hclean]⟩
  | none =>
    rcases t.halveLongest?_cases with ⟨-, hprobe, hwhy⟩ | ⟨l, z, r, hlr, hlong, -, hprobe⟩
    · exact .inr (.inr ⟨rfl, hwhy, by simp [choose, hclean, hprobe]⟩)
    · exact .inr (.inl ⟨rfl, l, z, r, hlr, hlong, by simp [choose, hclean, hprobe]⟩)

/-- Zones are cut in the middle only, and only long ones. -/
theorem next_smart_zones (reverse fallback : Bool) (t : ZoneTable) :
    ((smart reverse fallback).next t).2.2.zones = t.zones ∨
      ∃ l z r, t.zones = l ++ z :: r ∧ indivisibleSectors < z.len ∧
        ((smart reverse fallback).next t).2.2.zones =
          l ++ z.leading z.middle :: z.trailing z.middle :: r := by
  unfold next
  split
  · exact .inl rfl
  · split
    · exact .inl rfl
    · cases fallback with
      | true => exact .inl rfl
      | false =>
        rcases choose_smart_cases reverse t with ⟨c, -, hc⟩ | ⟨-, l, z, r, hz, hlong, hc⟩ |
          ⟨-, -, hc⟩
        · exact .inl (by rw [hc]; rfl)
        · exact .inr ⟨l, z, r, hz, hlong, by rw [hc]⟩
        · exact .inl (by rw [hc]; rfl)

/-- The search takes two turns at the most, one of which may halve a zone, and finds what is read
next. -/
theorem exists_search_eq (reverse fallback : Bool) {t : ZoneTable} (hc : t.Consistent)
    (turns : Nat) : ∃ halved ≤ 1,
      search reverse (turns + 2) fallback t = some (halved, (smart reverse fallback).next t) := by
  cases htask : t.currentTask? with
  | some task => exact ⟨0, by omega, by simp [search, turn, next, htask]⟩
  | none =>
    by_cases hempty : t.isEmpty = true
    · exact ⟨0, by omega, by simp [search, turn, next, htask, hempty]⟩
    cases fallback with
    | true => exact ⟨0, by omega, by simp [search, turn, next, choose, htask, hempty]⟩
    | false =>
      cases hclean : t.cleanBorder? reverse with
      | some c => exact ⟨0, by omega, by simp [search, turn, next, choose, htask, hempty, hclean]⟩
      | none =>
        rcases t.halveLongest?_cases with ⟨hhalve, hprobe, -⟩ | ⟨l, z, r, hlr, -, hhalve, hprobe⟩
        · -- The second turn is the first one of the sweep.
          exact ⟨0, by omega,
            by simp [search, turn, next, choose, htask, hempty, hclean, hhalve, hprobe]⟩
        · rw [ZoneTable.cursor_eq_none_of_currentTask? hc htask] at hhalve
          obtain ⟨hstart, -⟩ := ZoneTable.cleanBorder?_eq_none_iff.mp hclean
          have hborder := @ZoneTable.cleanBorder?_halved t reverse l r z z.middle hlr hstart none
          have hfirst : turn reverse false t =
              .halved ⟨l ++ z.leading z.middle :: z.trailing z.middle :: r, none⟩ := by
            simp [turn, htask, hempty, hclean, hhalve]
          have hsecond : turn reverse false
              ⟨l ++ z.leading z.middle :: z.trailing z.middle :: r, none⟩ =
              .found (.read ((z.trailing z.middle).task .forward))
                ⟨l ++ z.leading z.middle :: z.trailing z.middle :: r,
                  some ⟨l.length + 1, .forward⟩⟩ := by
            simp [turn, hborder, ZoneTable.currentTask?, ZoneTable.isEmpty, ZoneTable.select]
          have hnext : (smart reverse false).next t =
              (.read ((z.trailing z.middle).task .forward), smart reverse false,
                ⟨l ++ z.leading z.middle :: z.trailing z.middle :: r,
                  some ⟨l.length + 1, .forward⟩⟩) := by
            simp only [next, htask, if_neg hempty, choose, hclean, hprobe]
            simp [ZoneTable.currentTask?]
          exact ⟨1, Nat.le_refl 1, by simp only [search, hfirst, hsecond, hnext, Option.map_some]⟩

theorem zones_of_turn {found : Next} {u : ZoneTable}
    (h : turn reverse fallback t = .found found u) : u.zones = t.zones := by
  unfold turn at h
  split at h
  · obtain ⟨-, rfl⟩ := Turn.found.inj h
    rfl
  · split at h
    · obtain ⟨-, rfl⟩ := Turn.found.inj h
      rfl
    · split at h
      · obtain ⟨-, rfl⟩ := Turn.found.inj h
        rfl
      · split at h
        · obtain ⟨-, rfl⟩ := Turn.found.inj h
          rfl
        · cases hhalve : t.halveLongest? <;> simp [hhalve] at h

theorem size_of_turn {u : ZoneTable} (h : turn reverse fallback t = .halved u) :
    u.size = t.size + 1 := by
  have hhalve : t.halveLongest? = some u := by
    unfold turn at h
    split at h
    · simp at h
    · split at h
      · simp at h
      · split at h
        · simp at h
        · split at h
          · simp at h
          · cases hhalve : t.halveLongest? with
            | none => simp [hhalve] at h
            | some v => simpa [hhalve] using h
  rcases t.halveLongest?_cases with ⟨hnone, -⟩ | ⟨l, z, r, hz, -, hsome, -⟩
  · simp [hnone] at hhalve
  · obtain rfl := Option.some.inj (hsome.symm.trans hhalve)
    simp [ZoneTable.size, hz, Nat.add_assoc]

/-- Every halving adds a zone, and nothing else in a search does. -/
theorem size_of_search {turns halved : Nat} {found : Next} {s : Strategy} {u : ZoneTable}
    (h : search reverse turns fallback t = some (halved, found, s, u)) :
    u.size = t.size + halved := by
  induction turns generalizing fallback t halved with
  | zero => simp [search] at h
  | succ turns ih =>
    rw [search] at h
    split at h
    · next next t₁ hturn =>
      obtain ⟨rfl, -, -, rfl⟩ : 0 = halved ∧ next = found ∧ smart reverse fallback = s ∧ t₁ = u := by
        simpa using h
      simp [ZoneTable.size, zones_of_turn hturn]
    · next t₁ hturn =>
      obtain ⟨⟨fewer, rest⟩, hrest, heq⟩ := Option.map_eq_some_iff.mp h
      obtain ⟨rfl, rfl⟩ := Prod.mk.inj heq
      have hsize := ih hrest
      rw [size_of_turn hturn] at hsize
      omega
    · exact ih h

/-- The halvings of a search can be told from the zones that it adds. -/
theorem search_eq_of_next {s' : Strategy} {t' : ZoneTable} {found : Next} (hc : t.Consistent)
    (hn : (smart reverse fallback).next t = (found, s', t')) (turns : Nat) :
    search reverse (turns + 2) fallback t = some (t'.size - t.size, found, s', t') := by
  obtain ⟨halved, -, hsearch⟩ := exists_search_eq reverse fallback hc turns
  rw [hn] at hsearch
  have hsize := size_of_search hsearch
  rw [hsearch, hsize, Nat.add_sub_cancel_left]

end Strategy

end DriveRescue
