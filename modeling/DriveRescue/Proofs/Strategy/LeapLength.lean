import DriveRescue.Proofs.Settings.Numbers
import DriveRescue.Proofs.Strategy.Leaping
import Mathlib.Algebra.GroupWithZero.Nat

/-! The length of a leap, from the text of a setting to the zone that is cut. Every number of 64
bits but zero is taken for a number of blocks. Its length in sectors is a number of 64 bits again. -/
namespace DriveRescue

namespace CopyOptions

variable {o o' : CopyOptions} {name value : String} {settings : List (String × String)}

theorem exists_of_map {α : Type} {x : Except Error α} {f : α → CopyOptions}
    (h : x.map f = .ok o') : ∃ a, x = .ok a ∧ f a = o' := by
  cases x with
  | error e => simp [Except.map] at h
  | ok a => exact ⟨a, rfl, Except.ok.inj h⟩

/-- The length of a leap is set by one field and left alone by the others. -/
theorem skipBlocks_assign {field : CopyField} (h : o.assign field value = .ok o')
    (ho : o.skipBlocks < Text.wordBound) : o'.skipBlocks < Text.wordBound := by
  cases field with
  | skipBlocks =>
    obtain ⟨n, hn, rfl⟩ := exists_of_map h
    exact Settings.number_lt hn
  | destination =>
    obtain rfl := Except.ok.inj h
    exact ho
  | journalFile =>
    obtain rfl := Except.ok.inj h
    exact ho
  | _ =>
    obtain ⟨_, -, rfl⟩ := exists_of_map h
    exact ho

theorem skipBlocks_foldlM
    (h : settings.foldlM (fun o (name, value) => CopyOptions.set o name value) o = .ok o')
    (ho : o.skipBlocks < Text.wordBound) : o'.skipBlocks < Text.wordBound := by
  induction settings generalizing o with
  | nil =>
    obtain rfl := Except.ok.inj h
    exact ho
  | cons setting settings ih =>
    obtain ⟨name, value⟩ := setting
    rw [List.foldlM_cons] at h
    dsimp only at h
    cases hset : o.set name value with
    | error e => simp [hset, bind, Except.bind] at h
    | ok next =>
      rw [hset] at h
      apply ih h
      unfold CopyOptions.set at hset
      split at hset
      · exact skipBlocks_assign hset ho
      · simp at hset

theorem validate_eq_ok_iff : o.validate = .ok () ↔ o.destination ≠ "" ∧ 1 ≤ o.skipBlocks := by
  unfold validate
  split
  · next hnone => simp [hnone]
  · next hsome =>
    split
    · next hzero => simp [hzero]
    · next hpos => simp [hsome, Nat.one_le_iff_ne_zero, hpos]

theorem set_skipBlocks {n : Nat} (hn : n < Text.wordBound) (o : CopyOptions) :
    o.set "skip_blocks" n.repr = .ok { o with skipBlocks := n } := by
  have hfield : CopyField.ofName? "skip_blocks" = some .skipBlocks := by decide
  simp only [CopyOptions.set, hfield, assign, Settings.number, Text.trim_repr, Text.word?_repr hn]
  rfl

/-- What is accepted for a number of blocks is any number of 64 bits but zero. -/
theorem exists_accepted_iff {n : Nat} :
    (∃ settings o, ofSettings settings = .ok o ∧ o.validate = .ok () ∧ o.skipBlocks = n) ↔
      1 ≤ n ∧ n < Text.wordBound := by
  constructor
  · rintro ⟨settings, o, hset, hvalid, rfl⟩
    exact ⟨(validate_eq_ok_iff.mp hvalid).2, skipBlocks_foldlM hset (by decide)⟩
  · rintro ⟨hpos, hlt⟩
    refine ⟨[("dst_file", "dst.img"), ("skip_blocks", n.repr)],
      { default with destination := "dst.img", skipBlocks := n }, ?_, ?_, rfl⟩
    · have himage : default.set "dst_file" "dst.img" =
          .ok { default with destination := "dst.img" } := by decide
      simp only [ofSettings, List.foldlM_cons, List.foldlM_nil, himage, set_skipBlocks hlt, bind,
        Except.bind]
      rfl
    · exact validate_eq_ok_iff.mpr ⟨by simp, hpos⟩

end CopyOptions

namespace ZoneTable

variable {t u : ZoneTable} {reverse : Bool} {skip : Nat} {l : List Zone}

/-- One zone is cut, marked at its start and longer than a leap, and it is cut where the leap comes
down. -/
def CutByLeap (t u : ZoneTable) (skip : Nat) : Prop :=
  ∃ l z r, t.zones = l ++ z :: r ∧ z.startDefective = true ∧ skip < z.len ∧
    u.zones = l ++ z.leading (alignDown (z.start + skip)) ::
      z.trailing (alignDown (z.start + skip)) :: r

theorem zones_of_leap? {zones : List Zone} (h : t.zones = l ++ zones)
    (hu : t.leap? reverse t.isFull skip l.length zones = some u) :
    u.zones = t.zones ∨ t.CutByLeap u skip := by
  induction zones generalizing l with
  | nil => simp [leap?] at hu
  | cons z r ih =>
    have hrest (hscan : t.leap? reverse t.isFull skip (l.length + 1) r = some u) :
        u.zones = t.zones ∨ t.CutByLeap u skip :=
      @ih (l ++ [z]) (by simpa using h) (by simpa using hscan)
    by_cases hlong : skip < z.len
    · rcases leap?_cases h reverse skip with ⟨-, hscan⟩ | ⟨-, -, -, -, hscan⟩ |
        ⟨-, hstart, -, -, hscan⟩ | ⟨-, hscan⟩
      · obtain rfl := Option.some.inj (hu.symm.trans hscan)
        exact .inl rfl
      · obtain rfl := Option.some.inj (hu.symm.trans hscan)
        exact .inl rfl
      · obtain rfl := Option.some.inj (hu.symm.trans hscan)
        exact .inr ⟨l, z, r, h, hstart, hlong, rfl⟩
      · exact hrest (hscan ▸ hu)
    · rw [leap?] at hu
      split at hu
      · obtain rfl := Option.some.inj hu
        exact .inl rfl
      · split at hu
        · obtain rfl := Option.some.inj hu
          exact .inl rfl
        · simp only [hlong, decide_false, Bool.false_and, Bool.false_eq_true, ↓reduceIte] at hu
          exact hrest hu

end ZoneTable

namespace Strategy

variable {t : ZoneTable} {reverse : Bool} {n : Nat}

/-- The length of a leap in sectors goes up to 2^64 and begins again. -/
theorem skipSectors_eq (n : Nat) : skipSectors n = n % 2 ^ 56 * 256 := by
  have hbound : Text.wordBound = 2 ^ 56 * 256 := rfl
  rw [skipSectors, hbound, blockSectors, Nat.mul_mod_mul_right]

theorem skipSectors_eq_mul_iff : skipSectors n = n * 256 ↔ n < 2 ^ 56 := by
  rw [skipSectors_eq, Nat.mul_left_inj (by decide), Nat.mod_eq_iff_lt (by decide)]

/-- Apart from a leap the strategy leaves the zones as they are. -/
theorem zones_next_skipFail (reverse : Bool) (n : Nat) (t : ZoneTable) :
    ((skipFail reverse n).next t).2.2.zones = t.zones ∨
      t.CutByLeap ((skipFail reverse n).next t).2.2 (skipSectors n) := by
  cases htask : t.currentTask? with
  | some task => exact .inl (by simp only [next, htask])
  | none =>
    by_cases hempty : t.isEmpty = true
    · exact .inl (by simp only [next, htask, hempty, ↓reduceIte])
    · rw [next_of_currentTask? _ (by simpa [ZoneTable.isEmpty] using hempty) htask]
      simp only [choose]
      split
      · next u hu => exact @ZoneTable.zones_of_leap? t u reverse _ [] t.zones rfl hu
      · split <;> exact .inl rfl

end Strategy

namespace CopyOptions

variable {o : CopyOptions} {settings : List (String × String)}

/-- A leap is as long as the accepted options say if and only if they say fewer than 2^56 blocks.
Its length is a number of 64 bits, which greater numbers of blocks exceed, and what is left of them
counts: a zone is cut that is longer than so much. -/
theorem leap_length_of_accepted (hset : ofSettings settings = .ok o)
    (hvalid : o.validate = .ok ()) :
    1 ≤ o.skipBlocks ∧ o.skipBlocks < 2 ^ 64 ∧
      Strategy.skipSectors o.skipBlocks = o.skipBlocks % 2 ^ 56 * 256 ∧
      (Strategy.skipSectors o.skipBlocks = o.skipBlocks * 256 ↔ o.skipBlocks < 2 ^ 56) ∧
      ∀ reverse n, Strategy.ofKind o.strategy o.skipBlocks = .skipFail reverse n →
        n = o.skipBlocks ∧ ∀ t : ZoneTable,
          let u := ((Strategy.skipFail reverse n).next t).2.2
          u.zones = t.zones ∨ (t.CutByLeap u (o.skipBlocks % 2 ^ 56 * 256) ∧
            (o.skipBlocks < 2 ^ 56 → t.CutByLeap u (o.skipBlocks * 256))) := by
  obtain ⟨hpos, hlt⟩ := exists_accepted_iff.mp ⟨settings, o, hset, hvalid, rfl⟩
  refine ⟨hpos, hlt, Strategy.skipSectors_eq _, Strategy.skipSectors_eq_mul_iff,
    fun reverse n hkind => ?_⟩
  obtain rfl : o.skipBlocks = n := by
    have hmax : max o.skipBlocks 1 = o.skipBlocks := Nat.max_eq_left hpos
    rw [← hmax]
    cases hs : o.strategy <;> simp_all [Strategy.ofKind]
  refine ⟨rfl, fun t => ?_⟩
  rcases Strategy.zones_next_skipFail reverse o.skipBlocks t with hsame | hcut
  · exact .inl hsame
  · refine .inr ⟨Strategy.skipSectors_eq _ ▸ hcut, fun hsmall => ?_⟩
    rwa [Strategy.skipSectors_eq_mul_iff.mpr hsmall] at hcut

/-- A leap of one block cuts a zone of 344 sectors at the second block. -/
theorem leap_length_of_one_block :
    let settings := [("dst_file", "dst.img"), ("read_strategy", "skipfail"), ("skip_blocks", "+1")]
    let o : CopyOptions :=
      { default with destination := "dst.img", strategy := .skipFail, skipBlocks := 1 }
    let t : ZoneTable := ⟨[⟨256, 600, true, false⟩], none⟩
    let u := ((Strategy.skipFail true 1).next t).2.2
    ofSettings settings = .ok o ∧ o.validate = .ok () ∧ Strategy.skipSectors o.skipBlocks = 256 ∧
      u.zones = [⟨256, 512, true, false⟩, ⟨512, 600, false, false⟩] ∧
      t.CutByLeap u (o.skipBlocks * 256) := by
  intro settings o t u
  have hset : ofSettings settings = .ok o := by decide +kernel
  have hvalid : o.validate = .ok () := by decide
  obtain ⟨-, -, hlength, -, hnext⟩ := leap_length_of_accepted hset hvalid
  have hzones : u.zones = [⟨256, 512, true, false⟩, ⟨512, 600, false, false⟩] := by decide +kernel
  obtain ⟨-, hcuts⟩ := hnext true 1 rfl
  refine ⟨hset, hvalid, hlength.trans (by decide), hzones, ?_⟩
  rcases hcuts t with hsame | ⟨-, hcut⟩
  · have hother : u.zones = t.zones := hsame
    rw [hzones] at hother
    simp [t] at hother
  · exact hcut (by decide +kernel)

/-- So many blocks are accepted that their length in sectors is no number of 64 bits. The leap comes
out as one block long, and a zone of less than two is cut. -/
theorem accepted_leap_comes_out_short :
    let settings := [("dst_file", "dst.img"), ("read_strategy", "skipfail_noreverse"),
      ("skip_blocks", "72057594037927937")]
    ∃ o, ofSettings settings = .ok o ∧ o.validate = .ok () ∧ 2 ^ 64 ≤ o.skipBlocks * 256 ∧
      Strategy.ofKind o.strategy o.skipBlocks = .skipFail false o.skipBlocks ∧
      Strategy.skipSectors o.skipBlocks = 256 ∧
      (Strategy.skipFail false o.skipBlocks).next ⟨[⟨256, 600, true, false⟩], none⟩ =
        (.read ⟨512, 88, .forward⟩, .skipFail false o.skipBlocks,
          ⟨[⟨256, 512, true, false⟩, ⟨512, 600, false, false⟩], some ⟨1, .forward⟩⟩) := by
  let o : CopyOptions := { default with
    destination := "dst.img", strategy := .skipFailForward, skipBlocks := 72057594037927937 }
  refine ⟨o, ?_, ?_, ?_, ?_, ?_, ?_⟩ <;> decide +kernel

end CopyOptions

end DriveRescue
