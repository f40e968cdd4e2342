import DriveRescue.Binary64.Basic

/-! Decimal text of binary numbers: read to the nearest, written with the fewest digits that read
back. -/
namespace DriveRescue.Binary64

/-- The number nearest to `digits * 10 ^ exponent`. -/
def ofDecimal (negative : Bool) (digits : Nat) (exponent : Int) : Binary64 :=
  if digits = 0 then finite negative 0 (-1074)
  else
    let magnitude : Int := exponent + (digits.log2 / 3 : Nat)
    if 400 < exponent then infinite negative
    else if magnitude < -400 then finite negative 0 (-1074)
    else match exponent with
      | .ofNat e => ofRatio negative (digits * Nat.pow 10 e) 1
      | .negSucc e => ofRatio negative digits (Nat.pow 10 (e + 1))

/-- Twice the ends of the reals that round to `m * 2 ^ e`, in units of `2 ^ (e - 1)`, each halved
once more at a power of two, where the numbers below lie closer. -/
private def ends (m : Nat) (e : Int) : Nat × Nat :=
  (if m = leadingBit ∧ -1074 < e then 4 * m - 1 else 4 * m - 2, 4 * m + 2)

/-- Whether `digits * 10 ^ exponent` rounds to `m * 2 ^ e`. -/
private def rounds (m : Nat) (e : Int) (digits : Nat) (exponent : Int) : Bool :=
  let (lo, hi) := ends m e
  let (p, q) := ratio 1 (e - 2)
  let (r, s) := match exponent with
    | .ofNat k => (Nat.pow 10 k, 1)
    | .negSucc k => (1, Nat.pow 10 (k + 1))
  let x := digits * r * q
  if m % 2 = 0 then lo * p * s ≤ x && x ≤ hi * p * s else lo * p * s < x && x < hi * p * s

/-- A multiple of `10 ^ exponent` that rounds to `m * 2 ^ e`: the nearest, of two the larger, or else
one of the two around the number. -/
private def onGrid (m : Nat) (e exponent : Int) : Option Nat :=
  let (num, den) := ratio m e
  let (r, s) := match exponent with
    | .ofNat k => (Nat.pow 10 k, 1)
    | .negSucc k => (1, Nat.pow 10 (k + 1))
  let below := num * s / (den * r)
  let near := (2 * num * s + den * r) / (2 * den * r)
  [near, below, below + 1].find? fun d => d ≠ 0 && rounds m e d exponent

/-- Searches the grids of decimals from the coarsest on. -/
private def search (m : Nat) (e : Int) : (finer : Nat) → (exponent : Int) → Nat × Int
  | 0, exponent => (0, exponent)
  | finer + 1, exponent =>
    match onGrid m e exponent with
    | some digits => (digits, exponent)
    | none => search m e finer (exponent - 1)

/-- The fewest digits that read back as `m * 2 ^ e`, with the power of ten they count. -/
def shortest (m : Nat) (e : Int) : Nat × Int :=
  let (num, den) := ratio m e
  let whole := num / den
  let top : Int :=
    if whole = 0 then -(den.log2 * 3 / 10 - num.log2 * 3 / 10 : Int) + 2
    else ((toString whole).length : Int)
  search m e 400 top

/-- Digits times a power of ten, without an exponent. -/
def positional (digits : Nat) (exponent : Int) : String :=
  let ds := toString digits
  match exponent with
  | .ofNat e => ds ++ "".pushn '0' e
  | .negSucc e =>
    let places := e + 1
    let padded := "".pushn '0' (places + 1 - ds.length) ++ ds
    let whole := padded.length - places
    .ofList (padded.toList.take whole) ++ "." ++ .ofList (padded.toList.drop whole)

/-- The text of a number: a whole number has no fraction, and nothing has an exponent. -/
def text : Binary64 → String
  | nan => "NaN"
  | infinite negative => if negative then "-inf" else "inf"
  | finite negative m e =>
    let sign := if negative then "-" else ""
    if m = 0 then sign ++ "0"
    else
      let (digits, exponent) := shortest m e
      sign ++ positional digits exponent

end DriveRescue.Binary64
