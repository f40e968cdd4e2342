import DriveRescue.Procedure.Basic

/-! Driving a procedure block by block. The stop flag and the limit are looked at before a block,
never during one. -/
namespace DriveRescue

structure Control (σ : Type) where
  /-- The most calls to make. -/
  limit : Option Nat
  /-- Whether the stop flag is seen set, by the state and the number of calls made. -/
  cancelled : σ → Nat → Bool
  /-- Whether the observer asks to stop at its `k`-th event, counted from 0. -/
  breaks : (k : Nat) → Event → Bool

namespace Control

def free (σ : Type) : Control σ := ⟨none, fun _ _ => false, fun _ _ => false⟩

end Control

inductive Ending where
  | outcome (o : RunOutcome)
  | failed (e : Error)
  | crashed
  /-- Still going when the turns it was given were used up. -/
  | unfinished
  deriving DecidableEq

structure Run (σ : Type) where
  ending : Ending
  events : List Event
  state : σ

namespace Procedure

variable {σ : Type}

/-- Goes on after `made` calls. `seen` is what the observer saw, last first. -/
def loopFrom (p : Procedure σ) (c : Control σ) :
    (turns : Nat) → (made : Nat) → (seen : List Event) → σ → Run σ
  | 0, _, seen, s => ⟨.unfinished, seen.reverse, s⟩
  | turns + 1, made, seen, s =>
    if c.cancelled s made || c.limit.any (· ≤ made) then ⟨.outcome .interrupted, seen.reverse, s⟩
    else
      match p.perform s with
      | (.proceed report, s) =>
        let event := ⟨report, p.progress s⟩
        let seen' := event :: seen
        if c.breaks made event then ⟨.outcome .interrupted, seen'.reverse, s⟩
        else loopFrom p c turns (made + 1) seen' s
      | (.abort report, s) => ⟨.outcome .aborted, (⟨report, p.progress s⟩ :: seen).reverse, s⟩
      | (.complete, s) => ⟨.outcome .completed, seen.reverse, s⟩
      | (.fail e, s) => ⟨.failed e, seen.reverse, s⟩
      | (.crash, s) => ⟨.crashed, seen.reverse, s⟩

/-- Drives the procedure until it completes, gives up, fails or is stopped. The turns suffice for
the blocks left and for the call that finds nothing more to do. -/
def loop (p : Procedure σ) (c : Control σ) (s : σ) : Run σ :=
  p.loopFrom c (p.blocksLeft s + 2) 0 [] s

end Procedure

end DriveRescue
