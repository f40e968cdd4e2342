/-! Spans of time for people. -/
namespace DriveRescue.Report

private def twoDigits (n : Nat) : String := if n < 10 then s!"0{n}" else toString n

/-- `H:MM:SS`, or `M:SS` under an hour. -/
def clock (secs : Nat) : String :=
  let h := secs / 3600
  let m := secs % 3600 / 60
  let s := secs % 60
  if 0 < h then s!"{h}:{twoDigits m}:{twoDigits s}" else s!"{m}:{twoDigits s}"

/-- Each unit that occurs, from years down to seconds. A year has 365.25 days and a month a twelfth
of it, to the hundredth of a day. -/
def spelled (secs : Nat) : String :=
  let year := 31557600
  let month := 2630016
  let rest := secs % year
  let days := rest % month
  let named := fun (n : Nat) (unit : String) =>
    if n = 0 then [] else [if n = 1 then s!"1{unit}" else s!"{n}{unit}s"]
  let short := fun (n : Nat) (unit : String) => if n = 0 then [] else [s!"{n}{unit}"]
  let parts := named (secs / year) "year" ++ named (rest / month) "month" ++
    named (days / 86400) "day" ++ short (days % 86400 / 3600) "h" ++
    short (days % 3600 / 60) "m" ++ short (days % 60) "s"
  if parts.isEmpty then "0s" else " ".intercalate parts

end DriveRescue.Report
