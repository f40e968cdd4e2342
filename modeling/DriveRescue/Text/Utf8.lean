/-! Text from bytes that may not be well-formed UTF-8. -/
namespace DriveRescue.Text

private def isTail (b : UInt8) : Bool := 0x80 ≤ b && b ≤ 0xbf

private def tailBits (b : UInt8) : Nat := b.toNat % 64

/-- Bounds of the byte that may follow a lead byte, and how many bytes follow it in all. -/
private def follow? (lead : UInt8) : Option (UInt8 × UInt8 × Nat) :=
  if 0xc2 ≤ lead && lead ≤ 0xdf then some (0x80, 0xbf, 1)
  else if lead == 0xe0 then some (0xa0, 0xbf, 2)
  else if lead == 0xed then some (0x80, 0x9f, 2)
  else if 0xe1 ≤ lead && lead ≤ 0xef then some (0x80, 0xbf, 2)
  else if lead == 0xf0 then some (0x90, 0xbf, 3)
  else if 0xf1 ≤ lead && lead ≤ 0xf3 then some (0x80, 0xbf, 3)
  else if lead == 0xf4 then some (0x80, 0x8f, 3)
  else none

private def tails (n : Nat) (bytes : List UInt8) : Nat := ((bytes.take n).takeWhile isTail).length

/-- The first character of non-empty bytes and the number of bytes it takes. Bytes that start no
character count as one replacement character for each longest beginning of a character. -/
def decodeChar (b : UInt8) (rest : List UInt8) : Char × Nat :=
  if b < 0x80 then (Char.ofNat b.toNat, 1)
  else match follow? b, rest with
    | some (lo, hi, n), c :: more =>
      if lo ≤ c && c ≤ hi then
        let k := tails (n - 1) more
        if k = n - 1 then
          let lead := b.toNat % Nat.pow 2 (6 - n)
          (Char.ofNat (((c :: more).take n).foldl (fun v t => v * 64 + tailBits t) lead), n + 1)
        else (Char.ofNat 0xfffd, k + 2)
      else (Char.ofNat 0xfffd, 1)
    | _, _ => (Char.ofNat 0xfffd, 1)

def decodeLossy : List UInt8 → List Char
  | [] => []
  | b :: rest => (decodeChar b rest).1 :: decodeLossy (rest.drop ((decodeChar b rest).2 - 1))
  termination_by bytes => bytes.length
  decreasing_by simp only [List.length_drop, List.length_cons]; omega

end DriveRescue.Text
