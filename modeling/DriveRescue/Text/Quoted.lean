import DriveRescue.Text.Hidden

/-! Text between quotes. -/
namespace DriveRescue.Text

/-- Quotes a text, each character written as `escape` says. -/
def quoted (escape : Char → List Char) (s : String) : String :=
  .ofList ('"' :: s.toList.flatMap escape ++ ['"'])

private def shortEscape? (c : Char) : Option Char :=
  if c == '"' || c == '\\' then some c
  else if c == '\n' then some 'n'
  else if c == '\r' then some 'r'
  else if c == '\t' then some 't'
  else none

private def hex (n : Nat) : List Char := Nat.toDigits 16 n

/-- As JSON has it: other control characters by four hexadecimal digits. -/
def jsonEscape (c : Char) : List Char :=
  match shortEscape? c with
  | some letter => ['\\', letter]
  | none =>
    if c.toNat = 8 then ['\\', 'b']
    else if c.toNat = 12 then ['\\', 'f']
    else if c.toNat < 0x20 then
      let digits := hex c.toNat
      '\\' :: 'u' :: List.replicate (4 - digits.length) '0' ++ digits
    else [c]

/-- As file names are shown: what does not show by itself stands as its number in braces. -/
def nameEscape (c : Char) : List Char :=
  match shortEscape? c with
  | some letter => ['\\', letter]
  | none =>
    if c.toNat = 0 then ['\\', '0']
    else if isHidden c then '\\' :: 'u' :: '\x7b' :: hex c.toNat ++ ['\x7d']
    else [c]

end DriveRescue.Text
