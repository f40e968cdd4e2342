import DriveRescue.Settings.Options

/-! Numbers in settings. Only numbers of 64 bits are read, and each of them as it is written. -/
namespace DriveRescue

namespace Text

theorem toNat_of_isDigit {c : Char} (h : c.isDigit = true) : 48 ≤ c.toNat ∧ c.toNat ≤ 57 := by
  simpa [Char.isDigit, UInt32.le_iff_toNat_le] using h

theorem digit?_of_isDigit {c : Char} (h : c.isDigit = true) :
    digit? c = some (c.toNat - '0'.toNat) := by
  have hrange : '0' ≤ c ∧ c ≤ '9' := toNat_of_isDigit h
  rw [digit?, if_pos hrange]

theorem digitsFrom?_eq {cs : List Char} (n : Nat) (h : ∀ c ∈ cs, c.isDigit = true) :
    digitsFrom? n cs = some (Nat.ofDigitChars 10 cs n) := by
  induction cs generalizing n with
  | nil => rfl
  | cons c cs ih =>
    rw [List.forall_mem_cons] at h
    rw [digitsFrom?, digit?_of_isDigit h.1, Option.bind_some, ih _ h.2]
    rfl

theorem isDigit_repr {n : Nat} : ∀ c ∈ n.repr.toList, c.isDigit = true := by
  intro c hc
  rw [Nat.toList_repr] at hc
  exact Nat.isDigit_of_mem_toDigits (by decide) (by decide) hc

theorem isBlank_of_isDigit {c : Char} (h : c.isDigit = true) : isBlank c = false := by
  obtain ⟨hlo, hhi⟩ := toNat_of_isDigit h
  simp only [isBlank, Bool.or_eq_false_iff, Bool.and_eq_false_iff, beq_eq_false_iff_ne,
    decide_eq_false_iff_not]
  omega

theorem dropWhile_isBlank {cs : List Char} (h : ∀ c ∈ cs, c.isDigit = true) :
    cs.dropWhile isBlank = cs := by
  cases cs with
  | nil => rfl
  | cons c cs => simp [isBlank_of_isDigit (h c (by simp))]

theorem trim_repr (n : Nat) : trim n.repr = n.repr := by
  have hreverse : ∀ c ∈ n.repr.toList.reverse, c.isDigit = true := by
    intro c hc
    exact isDigit_repr c (List.mem_reverse.mp hc)
  rw [trim, dropWhile_isBlank isDigit_repr, dropWhile_isBlank hreverse, List.reverse_reverse,
    String.ofList_toList]

/-- A number of 64 bits is read as it is written. -/
theorem word?_repr {n : Nat} (h : n < wordBound) : word? n.repr = some n := by
  have hdigits : digits? n.repr.toList = some n := by
    have hne : n.repr.toList.isEmpty = false := by
      rw [Nat.toList_repr]
      exact List.isEmpty_eq_false_iff.mpr Nat.toDigits_ne_nil
    rw [digits?, hne, digitsFrom?_eq 0 isDigit_repr, Nat.toList_repr,
      Nat.ofDigitChars_toDigits (by decide) (by decide)]
    rfl
  unfold word?
  split
  · next rest hsign =>
    -- No digit is a sign.
    have hplus := isDigit_repr (n := n) '+' (by rw [hsign]; simp)
    simp at hplus
  · dsimp only
    rw [hdigits, Option.bind_some, if_pos h]

end Text

theorem Settings.number_lt {name value : String} {n : Nat} (h : number name value = .ok n) :
    n < Text.wordBound := by
  unfold number at h
  split at h
  · next hn =>
    obtain rfl := Except.ok.inj h
    exact Text.word?_lt hn
  · simp at h

/-- A number that is written out is read back. -/
theorem Settings.number_repr {n : Nat} (h : n < Text.wordBound) (name : String) :
    number name n.repr = .ok n := by
  rw [number, Text.trim_repr, Text.word?_repr h]

end DriveRescue
