import DriveRescue.Strategy.Policy

/-! Runs of a strategy against given outcomes. -/
namespace DriveRescue

structure Attempt where
  task : Task
  failed : Bool
  deriving DecidableEq

inductive Finish where
  | limit | done | unresolved | abort
  deriving DecidableEq

structure StrategyRun where
  finish : Finish
  attempts : List Attempt
  strategy : Strategy
  table : ZoneTable

namespace Strategy

/-- Adds up to `limit` attempts to those made, which are kept last first. The outcome of the `k`-th
attempt of the run is `fails k task`. -/
def runFrom (fails : Nat → Task → Bool) :
    (limit : Nat) → (made : List Attempt) → Nat → Strategy → ZoneTable → StrategyRun
  | 0, made, _, s, t => ⟨.limit, made.reverse, s, t⟩
  | limit + 1, made, k, s, t =>
    match s.next t with
    | (.done, s, t) => ⟨.done, made.reverse, s, t⟩
    | (.unresolved, s, t) => ⟨.unresolved, made.reverse, s, t⟩
    | (.read task, s, t) =>
      let failed := fails k task
      let made := ⟨task, failed⟩ :: made
      match s.settle t task failed with
      | (.abort, t) => ⟨.abort, made.reverse, s, t⟩
      | (.proceed, t) => runFrom fails limit made (k + 1) s t

def run (fails : Nat → Task → Bool) (limit : Nat) (s : Strategy) (t : ZoneTable) : StrategyRun :=
  runFrom fails limit [] 0 s t

end Strategy

end DriveRescue
