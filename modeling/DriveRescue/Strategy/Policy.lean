import DriveRescue.Strategy.Kind
import DriveRescue.Strategy.Task
import DriveRescue.Text.Number

/-! Read strategies. A strategy is asked for a task, told the outcome, and asked again. While a
zone is selected all of them read on through it; they differ in the zone they select when none is,
and in whether a failure makes them leave the zone. -/
namespace DriveRescue

inductive Strategy where
  /-- One sweep upwards that ends at the first failure. -/
  | plain
  /-- Reads from clean borders, then probes the middle of long zones, and sweeps upwards through
  the rest once it has fallen back. -/
  | smart (reverse fallback : Bool)
  /-- Leaps a fixed distance past a failure. -/
  | skipFail (reverse : Bool) (skipBlocks : Nat)
  deriving DecidableEq

namespace ZoneTable

/-- The first zone with a clean start or, if reading downwards is allowed and there is none, the
first with a clean stop. -/
def cleanBorder? (t : ZoneTable) (reverse : Bool) : Option Cursor :=
  match t.zones.findIdx? (!·.startDefective) with
  | some i => some ⟨i, .forward⟩
  | none =>
    if reverse then (t.zones.findIdx? (!·.stopDefective)).map (⟨·, .backward⟩) else none

/-- Splits the longest zone at the block border below its middle and selects the part above. -/
def probeMiddle? (t : ZoneTable) : Option ZoneTable :=
  (longest? t.zones).bind fun (i, n) =>
    if n ≤ indivisibleSectors then none
    else t.zones[i]?.bind fun z =>
      (t.split? i (alignDown (z.start + n / 2))).map fun (upper, t) => t.select upper .forward

/-- Scans `zones`, the zones of the table from index `i` on, for one to read: at a clean start, at a
clean stop unless the zone is the last, or past a leap of `skip` sectors into a longer zone. -/
def leap? (t : ZoneTable) (reverse full : Bool) (skip : Nat) : Nat → List Zone → Option ZoneTable
  | _, [] => none
  | i, z :: rest =>
    if !z.startDefective then some (t.select i .forward)
    else if reverse && !z.stopDefective && !rest.isEmpty then some (t.select i .backward)
    else
      let carved := if skip < z.len && !full then t.carve? i (alignDown (z.start + skip)) else none
      match carved with
      | some (upper, t) =>
        some (if reverse then t.select i .backward else t.select upper .forward)
      | none => leap? t reverse full skip (i + 1) rest

end ZoneTable

namespace Strategy

def ofKind (k : StrategyKind) (skipBlocks : Nat) : Strategy :=
  match k with
  | .plain => plain
  | .smart | .smartForward => smart k.allowsReverse false
  | .skipFail | .skipFailForward => skipFail k.allowsReverse (max skipBlocks 1)

def kind : Strategy → StrategyKind
  | plain => .plain
  | smart reverse _ => if reverse then .smart else .smartForward
  | skipFail reverse _ => if reverse then .skipFail else .skipFailForward

/-- Length of a leap. Lengths are numbers of 64 bits, so that one beyond them comes out short. -/
def skipSectors (skipBlocks : Nat) : Nat := skipBlocks * blockSectors % Text.wordBound

theorem skipSectors_of_lt {skipBlocks : Nat} (h : skipBlocks * blockSectors < Text.wordBound) :
    skipSectors skipBlocks = skipBlocks * blockSectors := Nat.mod_eq_of_lt h

/-- Selects a zone of a table that has some but none selected. The table comes back without a
selection when the strategy reads none of them.

After a split the smart strategy reads the upper part: every zone below it has a defective start,
or a clean border would have been taken before. -/
def choose : Strategy → ZoneTable → Strategy × ZoneTable
  | plain, t => (plain, t.select 0 .forward)
  | smart reverse true, t => (smart reverse true, t.select 0 .forward)
  | smart reverse false, t =>
    match t.cleanBorder? reverse with
    | some c => (smart reverse false, t.select c.index c.direction)
    | none =>
      match t.probeMiddle? with
      | some t => (smart reverse false, t)
      | none => (smart reverse true, t.select 0 .forward)
  | skipFail reverse skipBlocks, t =>
    (skipFail reverse skipBlocks,
      match t.leap? reverse t.isFull (skipSectors skipBlocks) 0 t.zones with
      | some t => t
      | none => if t.isFull then t.select 0 .forward else t)

def next (s : Strategy) (t : ZoneTable) : Next × Strategy × ZoneTable :=
  match t.currentTask? with
  | some task => (.read task, s, t)
  | none =>
    if t.isEmpty then (.done, s, t)
    else
      let (s, t) := s.choose t
      (t.currentTask?.elim .unresolved .read, s, t)

/-- Whether a failed read makes the strategy leave the zone. -/
def leavesOnFailure : Strategy → Bool
  | plain => false
  | smart _ fallback => !fallback
  | skipFail .. => true

/-- Takes in the outcome of a task. -/
def settle (s : Strategy) (t : ZoneTable) (task : Task) (failed : Bool) : Verdict × ZoneTable :=
  let t := t.consume task failed
  (if failed && s == plain then .abort else .proceed,
    if failed && s.leavesOnFailure then t.release else t)

end Strategy

end DriveRescue
