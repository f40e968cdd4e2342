import DriveRescue.Binary64.Basic

/-! Amounts of bytes for people. -/
namespace DriveRescue.Report

def sizeUnitName : (power : Nat) → String
  | 0 => "B"
  | 1 => "KiB"
  | 2 => "MiB"
  | 3 => "GiB"
  | _ => "TiB"

/-- The largest unit of which there is at least one, as a power of 1024. The amount is `num / den`
bytes. -/
def sizeUnit (num den : Nat) : (larger : Nat) → Nat
  | 0 => 0
  | larger + 1 =>
    if Nat.pow 1024 (larger + 1) * den ≤ num then larger + 1 else sizeUnit num den larger

/-- An amount in the unit that suits it: whole bytes, or one place of a larger unit with a half
rounded to the even digit. What is below zero or no number counts as nothing. -/
def size : Binary64 → String
  | .nan | .infinite true => "0 B"
  | .infinite false => "inf TiB"
  | .finite negative m e =>
    if negative || m = 0 then "0 B"
    else
      let (num, den) := Binary64.ratio m e
      match sizeUnit num den 4 with
      | 0 => s!"{num / den} B"
      | unit =>
        let tenths := roundDiv (num * 10) (den * Nat.pow 1024 unit)
        s!"{tenths / 10}.{tenths % 10} {sizeUnitName unit}"

end DriveRescue.Report
