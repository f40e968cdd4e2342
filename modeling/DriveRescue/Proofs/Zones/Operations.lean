import DriveRescue.Proofs.Zones.Reading

/-! Calls on a table, in any order and with any arguments. Each changes one zone at the most, and
the cursor stays with its zone, wherever the zones before it come and go. -/
namespace DriveRescue

namespace ZoneTable

/-- The position of the new zone and the table with it, or the table as it is. -/
def placed (t : ZoneTable) : Option (Nat × ZoneTable) → Option Nat × ZoneTable
  | some (upper, divided) => (some upper, divided)
  | none => (none, t)

inductive Operation where
  | select (i : Nat) (d : Direction)
  | release
  | split (i cut : Nat)
  | carve (i cut : Nat)
  | shrink (i sectors : Nat) (d : Direction) (failed : Bool)
  deriving DecidableEq

namespace Operation

def Allowed (t : ZoneTable) : Operation → Prop
  | select i _ => i < t.size
  | _ => True

def apply (t : ZoneTable) : Operation → ZoneTable
  | select i d => t.select i d
  | release => t.release
  | split i cut => (t.placed (t.split? i cut)).2
  | carve i cut => (t.placed (t.carve? i cut)).2
  | shrink i sectors d failed => (t.shrink i sectors d failed).2

end Operation

/-- The tables that calls lead to from `t₀`. -/
inductive Yields (t₀ : ZoneTable) : ZoneTable → Prop
  | start : Yields t₀ t₀
  | call {t} (op : Operation) : Yields t₀ t → op.Allowed t → Yields t₀ (op.apply t)

structure Follows (t t' : ZoneTable) (i : Nat) (heir : Option Zone) : Prop where
  unset : t.cursor = none → t'.cursor = none
  others : ∀ c, t.cursor = some c → c.index ≠ i →
    t'.cursor.map (·.direction) = some c.direction ∧ t'.selected? = t.selected?
  own : ∀ c, t.cursor = some c → c.index = i →
    t'.cursor.map (·.direction) = heir.map (fun _ => c.direction) ∧ t'.selected? = heir

/-- Zone `i` has been cut in two, if anything has been changed. -/
inductive DividesAt (t : ZoneTable) (i cut : Nat) : Option Nat × ZoneTable → Prop
  | refused : DividesAt t i cut (none, t)
  | divided {l z r t'} : t.size < maxZones → t.zones = l ++ z :: r → l.length = i →
      z.start < cut → cut < z.stop → t'.zones = l ++ ⟨z.start, cut, z.startDefective, false⟩ ::
        ⟨cut, z.stop, false, z.stopDefective⟩ :: r →
      t.Follows t' i (some ⟨z.start, cut, z.startDefective, false⟩) →
      DividesAt t i cut (some (i + 1), t')

end ZoneTable

namespace Zone

/-- What is left of `z` after sectors were taken off one of its borders. -/
def CutBack (z w : Zone) (sectors : Nat) (failed : Bool) : Direction → Prop
  | .forward => w = ⟨z.start + sectors, z.stop, failed, z.stopDefective⟩
  | .backward => w = ⟨z.start, z.stop - sectors, z.startDefective, failed⟩

variable {z w : Zone} {sectors : Nat} {d : Direction} {failed : Bool}

theorem cutBack_trim (z : Zone) (h : sectors < z.len) (d : Direction) (failed : Bool) :
    z.CutBack (z.trim sectors d failed) sectors failed d := by
  have hmin : min sectors z.len = sectors := Nat.min_eq_left (Nat.le_of_lt h)
  cases d <;> simp only [CutBack, trim, hmin]

theorem isEmpty_trim_iff (hz : z.start < z.stop) (sectors : Nat) (d : Direction) (failed : Bool) :
    (z.trim sectors d failed).isEmpty = true ↔ z.len ≤ sectors := by
  cases d <;> simp only [trim, isEmpty_iff, len] <;> omega

theorem CutBack.within (h : z.CutBack w sectors failed d) (hlen : sectors < z.len) :
    z.start ≤ w.start ∧ w.start < w.stop ∧ w.stop ≤ z.stop := by
  cases d with
  | forward =>
    obtain rfl := h
    simp only [len] at hlen ⊢
    omega
  | backward =>
    obtain rfl := h
    simp only [len] at hlen ⊢
    omega

theorem Spaced.sublist {gap : Nat} {zones others : List Zone} (h : Spaced gap zones)
    (hsub : others.Sublist zones) : Spaced gap others :=
  ⟨fun w hw => h.1 w (hsub.subset hw), h.2.sublist hsub⟩

/-- A zone may give way to a part of it. -/
theorem Spaced.replace {gap : Nat} {l r : List Zone} (h : Spaced gap (l ++ z :: r))
    (hlo : z.start ≤ w.start) (hw : w.start < w.stop) (hhi : w.stop ≤ z.stop) :
    Spaced gap (l ++ w :: r) := by
  obtain ⟨hl, hzr, hlr⟩ := spaced_append.mp h
  obtain ⟨-, hr, hs⟩ := spaced_cons.mp hzr
  refine spaced_append.mpr ⟨hl, spaced_cons.mpr ⟨hw, ?_, hs⟩, ?_⟩
  · intro b hb
    have := hr b hb
    omega
  · intro a ha b hb
    rcases List.mem_cons.mp hb with rfl | hb
    · have := hlr a ha z (by simp)
      omega
    · exact hlr a ha b (by simp [hb])

end Zone

namespace ZoneTable

/-- Zone `i` has lost sectors at one border, if there is such a zone. -/
inductive ShrinksBy (t : ZoneTable) (i sectors : Nat) (d : Direction) (failed : Bool) :
    Bool × ZoneTable → Prop
  | missing : t.size ≤ i → ShrinksBy t i sectors d failed (false, t)
  | kept {l z w r t'} : t.zones = l ++ z :: r → l.length = i → sectors < z.len →
      z.CutBack w sectors failed d → t'.zones = l ++ w :: r → t.Follows t' i (some w) →
      ShrinksBy t i sectors d failed (false, t')
  | gone {l z r t'} : t.zones = l ++ z :: r → l.length = i → z.len ≤ sectors →
      t'.zones = l ++ r → t.Follows t' i none → ShrinksBy t i sectors d failed (true, t')

variable {t t' t₀ : ZoneTable} {l r : List Zone} {z w : Zone} {i cut sectors : Nat}
  {d : Direction} {failed : Bool}

theorem getElem?_before (h : i < l.length) (rest : List Zone) : (l ++ rest)[i]? = l[i]? :=
  List.getElem?_append_left h

theorem getElem?_behind (h : l.length < i) (z : Zone) (r : List Zone) :
    (l ++ z :: r)[i]? = r[i - (l.length + 1)]? := by
  rw [List.getElem?_append_right (Nat.le_of_lt h), List.getElem?_cons, if_neg (by omega)]
  congr 1

theorem eraseIdx_at (l : List Zone) (z : Zone) (r : List Zone) :
    (l ++ z :: r).eraseIdx l.length = l ++ r := by
  rw [List.eraseIdx_append_of_length_le (Nat.le_refl _), Nat.sub_self, List.eraseIdx_cons_zero]

theorem getElem?_at (l : List Zone) (z : Zone) (r : List Zone) :
    (l ++ z :: r)[l.length]? = some z := by simp

/-- Zones behind the insertion move up, and the cursor with them. -/
theorem follows_insert (h : t.zones = l ++ z :: r) (a b : Zone) :
    t.Follows ⟨l ++ a :: b :: r, t.cursor.map (·.afterInsert l.length)⟩ l.length (some a) := by
  constructor
  · intro hnone
    simp [hnone]
  · intro c hc hne
    simp only [hc, selected?, Option.map_some, Option.bind_some, Cursor.afterInsert, h]
    split
    · next hlt =>
      refine ⟨rfl, ?_⟩
      show (l ++ a :: b :: r)[c.index + 1]? = _
      rw [getElem?_behind (by omega), getElem?_behind hlt, List.getElem?_cons, if_neg (by omega)]
      congr 1
      omega
    · next hle =>
      have hlt : c.index < l.length := by omega
      exact ⟨rfl, by rw [getElem?_before hlt, getElem?_before hlt]⟩
  · intro c hc heq
    simp [hc, selected?, Cursor.afterInsert, heq]

theorem follows_replace (h : t.zones = l ++ z :: r) (w : Zone) :
    t.Follows ⟨l ++ w :: r, t.cursor⟩ l.length (some w) := by
  constructor
  · exact id
  · intro c hc hne
    refine ⟨by simp [hc], ?_⟩
    simp only [selected?, hc, Option.bind_some, h]
    rcases Nat.lt_or_gt_of_ne hne with hlt | hlt
    · rw [getElem?_before hlt, getElem?_before hlt]
    · rw [getElem?_behind hlt, getElem?_behind hlt]
  · intro c hc heq
    simp [selected?, hc, heq]

/-- Zones behind the one that leaves move down. -/
theorem follows_erase (h : t.zones = l ++ z :: r) :
    t.Follows ⟨l ++ r, t.cursor.bind (·.afterErase? l.length)⟩ l.length none := by
  constructor
  · intro hnone
    simp [hnone]
  · intro c hc hne
    simp only [hc, selected?, Option.bind_some, Cursor.afterErase?, if_neg hne, h]
    split
    · next hlt =>
      refine ⟨rfl, ?_⟩
      show (l ++ r)[c.index - 1]? = _
      rw [List.getElem?_append_right (by omega), getElem?_behind hlt]
      congr 1
      omega
    · next hle =>
      have hlt : c.index < l.length := by omega
      refine ⟨rfl, ?_⟩
      show (l ++ r)[c.index]? = _
      rw [getElem?_before hlt, getElem?_before hlt]
  · intro c hc heq
    simp [hc, selected?, Cursor.afterErase?, heq]

theorem dividesAt_divide? (h : t.zones = l ++ z :: r) (hlo : z.start < cut) (hhi : cut < z.stop) :
    t.DividesAt l.length cut (t.placed (t.divide? l.length cut)) := by
  unfold divide?
  split
  · exact .refused
  · next hroom =>
    have hz : t.zones[l.length]? = some z := by rw [h, getElem?_at]
    rw [hz, Option.map_some]
    refine .divided (isFull_eq_false_iff.mp (by simpa using hroom)) h rfl hlo hhi ?_ ?_
    · simp [h, Zone.leading, Zone.trailing]
    · have hfollows := follows_insert h (z.leading cut) (z.trailing cut)
      simpa [h, Zone.leading, Zone.trailing] using hfollows

theorem dividesAt_carve? (t : ZoneTable) (i cut : Nat) :
    t.DividesAt i cut (t.placed (t.carve? i cut)) := by
  unfold carve?
  cases hz : t.zones[i]? with
  | none => exact .refused
  | some z =>
    obtain ⟨l, r, hlr, rfl⟩ := zones_eq_of_getElem? hz
    rw [Option.bind_some]
    split
    · next hcut => exact dividesAt_divide? hlr hcut.1 hcut.2
    · exact .refused

theorem dividesAt_split? (t : ZoneTable) (i cut : Nat) :
    t.DividesAt i cut (t.placed (t.split? i cut)) := by
  unfold split?
  cases hz : t.zones[i]? with
  | none => exact .refused
  | some z =>
    obtain ⟨l, r, hlr, rfl⟩ := zones_eq_of_getElem? hz
    rw [Option.bind_some]
    split
    · next hcut =>
      obtain ⟨-, hlo, hhi⟩ := hcut
      apply dividesAt_divide? hlr
      · exact Nat.lt_of_le_of_lt (Nat.le_add_right ..) hlo
      · exact Nat.lt_of_le_of_lt (Nat.le_add_right ..) hhi
    · exact .refused

theorem isSome_divide?_iff (hz : t.zones[i]? = some z) :
    (t.divide? i cut).isSome = true ↔ t.size < maxZones := by
  rw [← isFull_eq_false_iff, divide?, hz]
  cases t.isFull <;> simp

theorem isSome_carve?_iff (t : ZoneTable) (i cut : Nat) :
    (t.carve? i cut).isSome = true ↔
      t.size < maxZones ∧ ∃ z ∈ t.zones[i]?, z.start < cut ∧ cut < z.stop := by
  unfold carve?
  cases hz : t.zones[i]? with
  | none => simp
  | some z =>
    rw [Option.bind_some]
    split
    · next hcut => simp [isSome_divide?_iff hz, hcut]
    · next hcut => simp [hcut]

theorem isSome_split?_iff (t : ZoneTable) (i cut : Nat) :
    (t.split? i cut).isSome = true ↔
      t.size < maxZones ∧ cut % blockSectors = 0 ∧
        ∃ z ∈ t.zones[i]?, z.start + blockSectors < cut ∧ cut + blockSectors < z.stop := by
  unfold split?
  cases hz : t.zones[i]? with
  | none => simp
  | some z =>
    rw [Option.bind_some]
    split
    · next hcut => simp [isSome_divide?_iff hz, hcut]
    · next hcut =>
      simp only [Option.isSome_none, Bool.false_eq_true, false_iff]
      rintro ⟨-, hblock, w, hw, hborders⟩
      obtain rfl := Option.some.inj hw
      exact hcut ⟨hblock, hborders⟩

theorem shrinksBy_shrink (hc : t.Consistent) (i sectors : Nat) (d : Direction) (failed : Bool) :
    t.ShrinksBy i sectors d failed (t.shrink i sectors d failed) := by
  unfold shrink
  cases hz : t.zones[i]? with
  | none => exact .missing (List.getElem?_eq_none_iff.mp hz)
  | some z =>
    have hpos := hc.spaced.1 z (List.mem_of_getElem? hz)
    obtain ⟨l, r, hlr, rfl⟩ := zones_eq_of_getElem? hz
    have hempty := Zone.isEmpty_trim_iff hpos sectors d failed
    dsimp only
    split
    · next hgone =>
      refine .gone hlr rfl (hempty.mp hgone) ?_ ?_
      · rw [hlr, eraseIdx_at]
      · rw [hlr, eraseIdx_at]
        exact follows_erase hlr
    · next hkept =>
      have hlt : sectors < z.len := Nat.lt_of_not_le fun hle => hkept (hempty.mpr hle)
      refine .kept hlr rfl hlt (z.cutBack_trim hlt d failed) ?_ ?_
      · simp [hlr]
      · have hfollows := follows_replace hlr (z.trim sectors d failed)
        simpa [hlr] using hfollows

theorem Follows.cursor_lt {heir : Option Zone} (h : t.Follows t' i heir) (hc : t.Consistent) :
    ∀ c, t'.cursor = some c → c.index < t'.zones.length := by
  intro c' hc'
  have hsome (w : Zone) (hw : t'.selected? = some w) : c'.index < t'.zones.length := by
    rw [selected?, hc', Option.bind_some] at hw
    exact (List.getElem?_eq_some_iff.mp hw).1
  cases hcursor : t.cursor with
  | none => simp [h.unset hcursor] at hc'
  | some c =>
    by_cases hi : c.index = i
    · obtain ⟨hmap, hheir⟩ := h.own c hcursor hi
      cases heir with
      | none => simp [hc'] at hmap
      | some w => exact hsome w hheir
    · obtain ⟨-, hsame⟩ := h.others c hcursor hi
      have hlt := hc.cursor c hcursor
      refine hsome t.zones[c.index] ?_
      rw [hsame, selected?, hcursor, Option.bind_some, List.getElem?_eq_getElem hlt]

theorem DividesAt.consistent {answer : Option Nat} (h : t.DividesAt i cut (answer, t'))
    (hc : t.Consistent) : t'.Consistent := by
  cases h with
  | refused => exact hc
  | divided _ hz _ hlo hhi hz' hfollows =>
    constructor
    · rw [hz']
      exact ((hz ▸ hc.spaced).poised_leading hlo hhi).spaced
    · exact hfollows.cursor_lt hc

theorem DividesAt.size_le {answer : Option Nat} (h : t.DividesAt i cut (answer, t')) :
    t'.size ≤ max t.size maxZones := by
  cases h with
  | refused => exact Nat.le_max_left ..
  | divided hroom hz _ _ _ hz' _ =>
    simp only [size, hz, hz', List.length_append, List.length_cons] at hroom ⊢
    omega

theorem ShrinksBy.consistent {answer : Bool} (h : t.ShrinksBy i sectors d failed (answer, t'))
    (hc : t.Consistent) : t'.Consistent := by
  cases h with
  | missing => exact hc
  | kept hz _ hlt hcut hz' hfollows =>
    obtain ⟨hlo, hpos, hhi⟩ := hcut.within hlt
    constructor
    · rw [hz']
      exact (hz ▸ hc.spaced).replace hlo hpos hhi
    · exact hfollows.cursor_lt hc
  | gone hz _ _ hz' hfollows =>
    constructor
    · rw [hz']
      apply hc.spaced.sublist
      rw [hz]
      exact (List.sublist_cons_self ..).append_left _
    · exact hfollows.cursor_lt hc

theorem ShrinksBy.size_le {answer : Bool} (h : t.ShrinksBy i sectors d failed (answer, t')) :
    t'.size ≤ max t.size maxZones := by
  cases h with
  | missing => exact Nat.le_max_left ..
  | kept hz _ _ _ hz' _ =>
    simp only [size, hz, hz', List.length_append, List.length_cons]
    omega
  | gone hz _ _ hz' _ =>
    simp only [size, hz, hz', List.length_append, List.length_cons]
    omega

/-- What every call keeps. -/
theorem Operation.keeps (op : Operation) (hc : t.Consistent) (hop : op.Allowed t) :
    (op.apply t).Consistent ∧ (op.apply t).size ≤ max t.size maxZones := by
  cases op with
  | select i d =>
    refine ⟨⟨hc.spaced, ?_⟩, Nat.le_max_left ..⟩
    intro c hcursor
    obtain rfl := Option.some.inj hcursor
    exact hop
  | release => exact ⟨⟨hc.spaced, by simp [apply, ZoneTable.release]⟩, Nat.le_max_left ..⟩
  | split i cut =>
    have h := dividesAt_split? t i cut
    exact ⟨h.consistent hc, h.size_le⟩
  | carve i cut =>
    have h := dividesAt_carve? t i cut
    exact ⟨h.consistent hc, h.size_le⟩
  | shrink i sectors d failed =>
    have h := shrinksBy_shrink hc i sectors d failed
    exact ⟨h.consistent hc, h.size_le⟩

theorem Yields.consistent (h : t₀.Yields t) (hc : t₀.Consistent) : t.Consistent := by
  induction h with
  | start => exact hc
  | call op _ hop ih => exact (op.keeps ih hop).1

/-- Behind the last zone there is nothing to change. -/
theorem unchanged_of_size_le (h : t.size ≤ i) (cut sectors : Nat) (d : Direction) (failed : Bool) :
    t.placed (t.split? i cut) = (none, t) ∧ t.placed (t.carve? i cut) = (none, t) ∧
      t.shrink i sectors d failed = (false, t) := by
  have hnone : t.zones[i]? = none := List.getElem?_eq_none h
  simp [split?, carve?, shrink, hnone, placed]

/-- Whatever calls a consistent table has had, it is consistent, and no call makes it longer than
the most zones unless it was. A division that is made cuts one zone in two, whose outer borders keep
their marks, and is made wherever the cut leaves enough on either side and there is room. What a
zone loses it loses at one border, which is marked. The cursor stays with its zone, or with the
lower piece of it, until the zone is gone. -/
theorem calls_follow_zones (hc : t₀.isConsistent = true) (h : t₀.Yields t) :
    t.isConsistent = true ∧
    (∀ op : Operation, op.Allowed t → (op.apply t).size ≤ max t.size maxZones) ∧
    (∀ i, t.size ≤ i → ∀ cut sectors d failed, t.placed (t.split? i cut) = (none, t) ∧
      t.placed (t.carve? i cut) = (none, t) ∧ t.shrink i sectors d failed = (false, t)) ∧
    (∀ i cut, t.DividesAt i cut (t.placed (t.split? i cut)) ∧
      ((t.split? i cut).isSome = true ↔ t.size < maxZones ∧ cut % blockSectors = 0 ∧
        ∃ z ∈ t.zones[i]?, z.start + blockSectors < cut ∧ cut + blockSectors < z.stop)) ∧
    (∀ i cut, t.DividesAt i cut (t.placed (t.carve? i cut)) ∧
      ((t.carve? i cut).isSome = true ↔
        t.size < maxZones ∧ ∃ z ∈ t.zones[i]?, z.start < cut ∧ cut < z.stop)) ∧
    ∀ i sectors d failed, t.ShrinksBy i sectors d failed (t.shrink i sectors d failed) := by
  rw [isConsistent_iff] at hc
  have ht := h.consistent hc
  refine ⟨isConsistent_iff.mpr ht, ?_, ?_, ?_, ?_, ?_⟩
  · intro op hop
    exact (op.keeps ht hop).2
  · intro i hi
    exact unchanged_of_size_le hi
  · intro i cut
    exact ⟨dividesAt_split? t i cut, isSome_split?_iff t i cut⟩
  · intro i cut
    exact ⟨dividesAt_carve? t i cut, isSome_carve?_iff t i cut⟩
  · exact shrinksBy_shrink ht

/-- The upper zone is selected when the lower one is split below it, and then used up. -/
theorem calls_follow_zones_after_split :
    let t₀ := ofZones [.clean 0 2048, .clean 2560 3072]
    let t := ⟨[.clean 0 1024, .clean 1024 2048, .clean 2560 3072], some ⟨2, .backward⟩⟩
    t₀.isConsistent = true ∧ t₀.Yields t ∧ t.isConsistent = true ∧
      t.shrink 2 600 .backward true = (true, ⟨[.clean 0 1024, .clean 1024 2048], none⟩) ∧
      t.ShrinksBy 2 600 .backward true (t.shrink 2 600 .backward true) := by
  intro t₀ t
  have hc : t₀.isConsistent = true := by decide
  have hselect : t₀.Yields (t₀.select 1 .backward) :=
    .call (.select 1 .backward) .start (show 1 < t₀.size by decide)
  have hsplit : (Operation.split 0 1024).apply (t₀.select 1 .backward) = t := by decide
  have h : t₀.Yields t := hsplit ▸ .call (.split 0 1024) hselect trivial
  obtain ⟨ht, -, -, -, -, hshrink⟩ := calls_follow_zones hc h
  exact ⟨hc, h, ht, by decide, hshrink 2 600 .backward true⟩

end ZoneTable

end DriveRescue
