/-! Decimal numbers in text. -/
namespace DriveRescue.Text

def digit? (c : Char) : Option Nat :=
  if '0' ≤ c ∧ c ≤ '9' then some (c.toNat - '0'.toNat) else none

def digitsFrom? (n : Nat) : List Char → Option Nat
  | [] => some n
  | c :: rest => (digit? c).bind fun d => digitsFrom? (10 * n + d) rest

def digits? (cs : List Char) : Option Nat := if cs.isEmpty then none else digitsFrom? 0 cs

/-- One past the largest number an option or an address can hold. -/
def wordBound : Nat := Nat.pow 2 64

def signedBound : Nat := Nat.pow 2 63

/-- Reads a number of 64 bits: digits behind at most one plus sign. -/
def word? (s : String) : Option Nat :=
  let cs := match s.toList with
    | '+' :: rest => rest
    | cs => cs
  (digits? cs).bind fun n => if n < wordBound then some n else none

theorem word?_lt {s : String} {n : Nat} (h : word? s = some n) : n < wordBound := by
  simp only [word?, Option.bind_eq_some_iff] at h
  obtain ⟨m, -, hm⟩ := h
  split at hm <;> simp_all

end DriveRescue.Text
