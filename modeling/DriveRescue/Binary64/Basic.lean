/-! Binary floating-point numbers of 64 bits, held exactly, and rounding to the nearest of them. -/
namespace DriveRescue

/-- A finite number is plus or minus `mantissa * 2 ^ exponent`. -/
inductive Binary64 where
  | nan
  | infinite (negative : Bool)
  | finite (negative : Bool) (mantissa : Nat) (exponent : Int)
  deriving DecidableEq

/-- The quotient rounded to the nearest whole number, a half to the even one. -/
def roundDiv (num den : Nat) : Nat :=
  let q := num / den
  let r := num % den
  if 2 * r < den then q
  else if den < 2 * r then q + 1
  else if q % 2 = 0 then q else q + 1

namespace Binary64

/-- The least mantissa of a number that is not among the smallest. -/
def leadingBit : Nat := Nat.pow 2 52

def signBit : Nat := Nat.pow 2 63

def ratio (mantissa : Nat) (exponent : Int) : Nat × Nat :=
  match exponent with
  | .ofNat e => (mantissa * Nat.pow 2 e, 1)
  | .negSucc e => (mantissa, Nat.pow 2 (e + 1))

/-- The number nearest to a quotient, of two the one with the even mantissa. -/
def ofRatio (negative : Bool) (num den : Nat) : Binary64 :=
  if num = 0 then finite negative 0 (-1074)
  else
    let guess : Int := (num.log2 : Int) - (den.log2 : Int) - 52
    let scaled := fun (e : Int) =>
      let (p, q) := ratio 1 e
      (num * q, den * p)
    let e := let (n, d) := scaled guess; if n < leadingBit * d then guess - 1 else guess
    let e := max e (-1074)
    let (n, d) := scaled e
    let m := roundDiv n d
    let (m, e) := if m = 2 * leadingBit then (leadingBit, e + 1) else (m, e)
    if 971 < e then infinite negative else finite negative m e

def ofNat (n : Nat) : Binary64 := ofRatio false n 1

/-- The number whose sign, exponent and fraction are the given 64 bits. -/
def ofBits (bits : Nat) : Binary64 :=
  let negative : Bool := bits / signBit % 2 = 1
  let field : Nat := bits / leadingBit % Nat.pow 2 11
  let fraction : Nat := bits % leadingBit
  if field = 2047 then if fraction = 0 then infinite negative else nan
  else if field = 0 then finite negative fraction (-1074)
  else finite negative (leadingBit + fraction) ((field : Int) - 1075)

/-- The 64 bits of a number; a mantissa without its leading bit stands at the least exponent. -/
def bits : Binary64 → Nat
  | nan => 0x7ff8000000000000
  | infinite negative => (if negative then signBit else 0) + 2047 * leadingBit
  | finite negative m e =>
    (if negative then signBit else 0) +
      if m < leadingBit then m else (e + 1075).toNat * leadingBit + (m - leadingBit)

def times : Binary64 → Binary64 → Binary64
  | finite a m e, finite b n f =>
    let (p, q) := ratio (m * n) (e + f)
    ofRatio (a != b) p q
  | _, _ => nan

/-- The quotient of finite numbers, the second of which is not zero. -/
def dividedBy : Binary64 → Binary64 → Binary64
  | finite a m e, finite b n f =>
    let (p, q) := ratio m e
    let (r, s) := ratio n f
    ofRatio (a != b) (p * s) (q * r)
  | _, _ => nan

/-- The quotient of two counts, each taken as a number of 64 bits first. -/
def quotient (a b : Nat) : Binary64 := (ofNat a).dividedBy (ofNat b)

def negate : Binary64 → Binary64
  | nan => nan
  | infinite negative => infinite !negative
  | finite negative m e => finite (!negative) m e

def isZero : Binary64 → Bool
  | finite _ 0 _ => true
  | _ => false

/-- The nearest whole number of 64 bits, a half away from zero. What is below zero, and what is no
number, becomes 0. -/
def toWord : Binary64 → Nat
  | nan | infinite true => 0
  | infinite false => 2 * signBit - 1
  | finite negative m e =>
    if negative then 0
    else
      let (num, den) := ratio m e
      min ((2 * num + den) / (2 * den)) (2 * signBit - 1)

end Binary64

end DriveRescue
