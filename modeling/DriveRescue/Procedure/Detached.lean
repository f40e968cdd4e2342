import DriveRescue.Procedure.Loop

/-! A procedure driven by a worker of its own. The worker hands its events to a queue of bounded
length, and the controller takes them out at its leisure or leaves. -/
namespace DriveRescue

/-- Events the queue holds at most. -/
def queueCapacity : Nat := 4096

/-- What the worker is about to do. -/
inductive Worker (σ : Type) where
  /-- To look at the stop flag and perform a block, after `made` others. -/
  | running (made : Nat) (state : σ)
  /-- To hand an event over; then to go on or, with an ending, to stop. -/
  | publishing (event : Event) (ending : Option Ending) (made : Nat) (state : σ)
  /-- To tell that it has stopped. -/
  | stopping (ending : Ending) (state : σ)
  /-- To let go of the queue. -/
  | leaving (ending : Ending) (state : σ)
  /-- Nothing more: the queue has no writer. -/
  | gone (ending : Ending) (state : σ)

structure Detached (σ : Type) where
  worker : Worker σ
  queue : List Event
  /-- What the controller took out, last first. -/
  received : List Event
  /-- The controller still has its end of the queue. -/
  listening : Bool
  /-- The worker has told that it stopped. -/
  finished : Bool

inductive Move where
  /-- The worker does what it is about to do, if it can. -/
  | work
  /-- The controller takes the oldest event out. -/
  | receive
  /-- The controller lets go of the queue, and what is in it is lost. -/
  | leave
  deriving DecidableEq

namespace Detached

variable {σ : Type}

def spawn (s : σ) : Detached σ := ⟨.running 0 s, [], [], true, false⟩

def performBlock (p : Procedure σ) (cancelled : σ → Nat → Bool) (made : Nat) (s : σ) : Worker σ :=
  if cancelled s made then .stopping (.outcome .interrupted) s
  else match p.perform s with
    | (.proceed report, s) => .publishing ⟨report, p.progress s⟩ none (made + 1) s
    | (.abort report, s) =>
      .publishing ⟨report, p.progress s⟩ (some (.outcome .aborted)) (made + 1) s
    | (.complete, s) => .stopping (.outcome .completed) s
    | (.fail e, s) => .stopping (.failed e) s
    | (.crash, s) => .gone .crashed s

/-- After an event was handed over or found nobody to take it. -/
def published (ending : Option Ending) (made : Nat) (s : σ) : Worker σ :=
  match ending with
  | some ending => .stopping ending s
  | none => .running made s

/-- One move. A worker before a full queue stays where it is. -/
def move (p : Procedure σ) (cancelled : σ → Nat → Bool) : Move → Detached σ → Detached σ
  | .work, ⟨.running made s, queue, received, listening, finished⟩ =>
    ⟨performBlock p cancelled made s, queue, received, listening, finished⟩
  | .work, ⟨.publishing event ending made s, queue, received, true, finished⟩ =>
    if queue.length < queueCapacity then
      ⟨published ending made s, queue ++ [event], received, true, finished⟩
    else ⟨.publishing event ending made s, queue, received, true, finished⟩
  | .work, ⟨.publishing _ ending made s, queue, received, false, finished⟩ =>
    ⟨published ending made s, queue, received, false, finished⟩
  | .work, ⟨.stopping ending s, queue, received, listening, _⟩ =>
    ⟨.leaving ending s, queue, received, listening, true⟩
  | .work, ⟨.leaving ending s, queue, received, listening, finished⟩ =>
    ⟨.gone ending s, queue, received, listening, finished⟩
  | .work, d@⟨.gone .., _, _, _, _⟩ => d
  | .receive, ⟨worker, event :: queue, received, true, finished⟩ =>
    ⟨worker, queue, event :: received, true, finished⟩
  | .receive, d => d
  | .leave, ⟨worker, _, received, _, finished⟩ => ⟨worker, [], received, false, finished⟩

/-- The worker is gone. The controller finds the queue cut off once it is empty too. -/
def isGone (d : Detached σ) : Bool :=
  match d.worker with
  | .gone .. => true
  | _ => false

/-- Lets worker and controller take turns until the worker is gone and the queue is empty. -/
def drain (p : Procedure σ) (cancelled : σ → Nat → Bool) : (turns : Nat) → Detached σ → Detached σ
  | 0, d => d
  | turns + 1, d =>
    if d.isGone && d.queue.isEmpty then d
    else drain p cancelled turns (move p cancelled .receive (move p cancelled .work d))

/-- Turns that suffice to drain a procedure: two for each block, and what its end takes. -/
def turnsFor (p : Procedure σ) (s : σ) : Nat := 2 * p.blocksLeft s + 6

def join? (d : Detached σ) : Option (Ending × σ) :=
  match d.worker with
  | .gone ending s => some (ending, s)
  | _ => none

end Detached

end DriveRescue
