import DriveRescue.Procedure.Detached
import DriveRescue.Proofs.Procedure.Looping

/-! A procedure driven by a worker of its own. Whatever the order in which worker and controller
move, the worker makes the calls of the loop, and the events that the controller has taken out,
those in the queue and the one about to be handed over are the events of these calls. -/
namespace DriveRescue

/-- Nothing but the stop flag stops the run. -/
def Control.flagged {σ : Type} (cancelled : σ → Nat → Bool) : Control σ :=
  ⟨none, cancelled, fun _ _ => false⟩

@[simp] theorem Control.stops_flagged {σ : Type} {cancelled : σ → Nat → Bool} {k : Nat} {s : σ} :
    (Control.flagged cancelled).Stops k s ↔ cancelled s k = true := by
  simp [Stops, flagged]

/-- In `n` turns the loop sees the events of `n` calls, if it comes to make as many. -/
theorem Procedure.events_loopFrom {σ : Type} {p : Procedure σ} {c : Control σ} {s : σ} {k n : Nat}
    (hgoing : ∀ i < k, p.GoesOn c s i) (hn : n = k ∨ ∃ e, p.EndsAt c s k n e) :
    (p.loopFrom c n 0 [] s).events = p.events s n := by
  have hle : k ≤ n := by
    rcases hn with rfl | ⟨e, hends⟩
    · exact Nat.le_refl _
    · exact hends.le
  obtain ⟨m, hgoing', ⟨hm, heq⟩ | ⟨n', e', hm, hends', heq⟩⟩ :=
    @loopFrom_cases σ p c s 0 n (by simp)
  · have hm : m = n := by omega
    rw [hm] at heq
    exact congrArg Run.events heq
  · have hends : ∃ e, p.EndsAt c s k n e := by
      rcases hn with rfl | hends
      · exact absurd (hgoing m (by omega)) hends'.not_goesOn
      · exact hends
    obtain ⟨e, hends⟩ := hends
    obtain ⟨-, rfl, -⟩ := hends.eq_of_going hgoing hends' hgoing'
    exact congrArg Run.events heq

namespace Worker

variable {σ : Type}

def pending : Worker σ → List Event
  | .publishing event .. => [event]
  | _ => []

def hasTold : Worker σ → Bool
  | .leaving .. | .gone .. => true
  | _ => false

/-- The worker has made `n` calls of the loop from `s₀` on, and is about to go on as the loop
does. -/
inductive Follows (p : Procedure σ) (c : Control σ) (s₀ : σ) : Nat → Worker σ → Prop
  | running {k} : (∀ i < k, p.GoesOn c s₀ i) → Follows p c s₀ k (.running k (p.stateAfter s₀ k))
  | handing {k event} : p.eventAt? s₀ k = some event → (∀ i < k + 1, p.GoesOn c s₀ i) →
      Follows p c s₀ (k + 1) (.publishing event none (k + 1) (p.stateAfter s₀ (k + 1)))
  | parting {k event e} : p.eventAt? s₀ k = some event → (∀ i < k, p.GoesOn c s₀ i) →
      p.EndsAt c s₀ k (k + 1) e →
      Follows p c s₀ (k + 1) (.publishing event (some e) (k + 1) (p.stateAfter s₀ (k + 1)))
  | stopping {k n e} : (∀ i < k, p.GoesOn c s₀ i) → p.EndsAt c s₀ k n e →
      Follows p c s₀ n (.stopping e (p.stateAfter s₀ n))
  | leaving {k n e} : (∀ i < k, p.GoesOn c s₀ i) → p.EndsAt c s₀ k n e →
      Follows p c s₀ n (.leaving e (p.stateAfter s₀ n))
  | gone {k n e} : (∀ i < k, p.GoesOn c s₀ i) → p.EndsAt c s₀ k n e →
      Follows p c s₀ n (.gone e (p.stateAfter s₀ n))

variable {p : Procedure σ} {c : Control σ} {s₀ s : σ} {k n : Nat} {w : Worker σ} {e : Ending}

theorem Follows.exists_calls (h : Follows p c s₀ n w) :
    ∃ k, (∀ i < k, p.GoesOn c s₀ i) ∧ (n = k ∨ ∃ e, p.EndsAt c s₀ k n e) := by
  cases h with
  | running hgoing => exact ⟨_, hgoing, .inl rfl⟩
  | handing _ hgoing => exact ⟨_, hgoing, .inl rfl⟩
  | parting _ hgoing hends => exact ⟨_, hgoing, .inr ⟨_, hends⟩⟩
  | stopping hgoing hends => exact ⟨_, hgoing, .inr ⟨_, hends⟩⟩
  | leaving hgoing hends => exact ⟨_, hgoing, .inr ⟨_, hends⟩⟩
  | gone hgoing hends => exact ⟨_, hgoing, .inr ⟨_, hends⟩⟩

theorem Follows.of_gone (h : Follows p c s₀ n (.gone e s)) :
    ∃ k, (∀ i < k, p.GoesOn c s₀ i) ∧ p.EndsAt c s₀ k n e ∧ s = p.stateAfter s₀ n := by
  cases h with
  | gone hgoing hends => exact ⟨_, hgoing, hends, rfl⟩

/-- How many more moves the worker makes at the most, if `m` calls go on in all. -/
def movesLeft (m : Nat) : Worker σ → Nat
  | .running made _ => 2 * (m - made) + 4
  | .publishing _ none made _ => 2 * (m - made) + 5
  | .publishing _ (some _) _ _ => 3
  | .stopping .. => 2
  | .leaving .. => 1
  | .gone .. => 0

/-- The worker's turn at a block is the call that the loop makes there. -/
theorem follows_performBlock {cancelled : σ → Nat → Bool} (hp : ∀ s, (p.perform s).1 ≠ .crash)
    (hgoing : ∀ i < k, p.GoesOn (.flagged cancelled) s₀ i) :
    let w := Detached.performBlock p cancelled k (p.stateAfter s₀ k)
    let n := if cancelled (p.stateAfter s₀ k) k then k else k + 1
    w.Follows p (.flagged cancelled) s₀ n ∧ p.events s₀ k ++ w.pending = p.events s₀ n ∧
      w.hasTold = false := by
  intro w n
  by_cases hcancelled : cancelled (p.stateAfter s₀ k) k = true
  · have hn : n = k := if_pos hcancelled
    have hw : w = .stopping (.outcome .interrupted) (p.stateAfter s₀ k) := if_pos hcancelled
    rw [hn, hw]
    have hends : p.EndsAt (.flagged cancelled) s₀ k k (.outcome .interrupted) := by
      apply Procedure.EndsAt.stopped
      rwa [Control.stops_flagged]
    exact ⟨.stopping hgoing hends, List.append_nil _, rfl⟩
  · have hn : n = k + 1 := if_neg hcancelled
    have hstop : ¬ (Control.flagged cancelled).Stops k (p.stateAfter s₀ k) := by
      rwa [Control.stops_flagged]
    have hw : w = Detached.performBlock p cancelled k (p.stateAfter s₀ k) := rfl
    rw [Detached.performBlock, if_neg hcancelled, p.perform_stateAfter] at hw
    rw [hn, p.events_succ]
    cases hstep : p.stepAt s₀ k with
    | proceed report =>
      have hevent : p.eventAt? s₀ k = some ⟨report, p.progress (p.stateAfter s₀ (k + 1))⟩ :=
        Procedure.eventAt?_of_report (by rw [hstep]; rfl)
      have hgoing' : ∀ i < k + 1, p.GoesOn (.flagged cancelled) s₀ i := by
        intro i hi
        rcases Nat.lt_succ_iff_lt_or_eq.mp hi with hlt | rfl
        · exact hgoing i hlt
        · exact ⟨hstop, report, hstep, rfl⟩
      rw [hstep] at hw
      rw [hw, hevent]
      exact ⟨.handing hevent hgoing', rfl, rfl⟩
    | abort report =>
      have hevent : p.eventAt? s₀ k = some ⟨report, p.progress (p.stateAfter s₀ (k + 1))⟩ :=
        Procedure.eventAt?_of_report (by rw [hstep]; rfl)
      rw [hstep] at hw
      rw [hw, hevent]
      exact ⟨.parting hevent hgoing (.aborted hstop hstep), rfl, rfl⟩
    | complete =>
      rw [hstep] at hw
      rw [hw, Procedure.eventAt?_of_none (by rw [hstep]; rfl)]
      exact ⟨.stopping hgoing (.completed hstop hstep), rfl, rfl⟩
    | fail e =>
      rw [hstep] at hw
      rw [hw, Procedure.eventAt?_of_none (by rw [hstep]; rfl)]
      exact ⟨.stopping hgoing (.failed hstop hstep), rfl, rfl⟩
    | crash => exact absurd hstep (hp _)

/-- With its event handed over the worker goes on as it would have without an observer. -/
theorem Follows.published {event : Event} {ending : Option Ending}
    (h : Follows p c s₀ n (.publishing event ending k s)) :
    let w := Detached.published ending k s
    w.Follows p c s₀ n ∧ w.pending = [] ∧ w.hasTold = false := by
  cases h with
  | handing _ hgoing => exact ⟨.running hgoing, rfl, rfl⟩
  | parting _ hgoing hends => exact ⟨.stopping hgoing hends, rfl, rfl⟩

theorem performBlock_cases (cancelled : σ → Nat → Bool) (k : Nat) (hp : (p.perform s).1 ≠ .crash) :
    (∃ event ending s',
      Detached.performBlock p cancelled k s = .publishing event ending (k + 1) s') ∨
      ∃ e s', Detached.performBlock p cancelled k s = .stopping e s' := by
  rw [Detached.performBlock]
  by_cases hcancelled : cancelled s k = true
  · rw [if_pos hcancelled]
    exact .inr ⟨_, _, rfl⟩
  · rw [if_neg hcancelled]
    generalize p.perform s = call at hp
    obtain ⟨step, s'⟩ := call
    cases step with
    | proceed _ => exact .inl ⟨_, _, _, rfl⟩
    | abort _ => exact .inl ⟨_, _, _, rfl⟩
    | complete => exact .inr ⟨_, _, rfl⟩
    | fail _ => exact .inr ⟨_, _, rfl⟩
    | crash => exact absurd rfl hp

theorem movesLeft_performBlock {m : Nat} {cancelled : σ → Nat → Bool}
    (hp : ∀ s, (p.perform s).1 ≠ .crash) (hgoing : ∀ i < k, p.GoesOn (.flagged cancelled) s₀ i)
    (hmost : ∀ i, (∀ j < i + 1, p.GoesOn (.flagged cancelled) s₀ j) → i < m) :
    (Detached.performBlock p cancelled k (p.stateAfter s₀ k)).movesLeft m < 2 * (m - k) + 4 := by
  obtain ⟨hfollows, -⟩ := follows_performBlock hp hgoing
  generalize (if cancelled (p.stateAfter s₀ k) k then k else k + 1) = n at hfollows
  rcases performBlock_cases cancelled k (hp (p.stateAfter s₀ k)) with
    ⟨event, ending, s', heq⟩ | ⟨e, s', heq⟩
  · rw [heq] at hfollows ⊢
    cases hfollows with
    | handing _ hgoing' =>
      have := hmost k hgoing'
      simp only [movesLeft]
      omega
    | parting _ _ _ =>
      simp only [movesLeft]
      omega
  · rw [heq]
    simp only [movesLeft]
    omega

theorem movesLeft_published (m : Nat) (event : Event) (ending : Option Ending) (k : Nat) (s : σ) :
    (Detached.published ending k s).movesLeft m <
      (Worker.publishing event ending k s).movesLeft m := by
  cases ending with
  | none => exact Nat.lt_succ_self _
  | some _ => exact Nat.lt_succ_self _

theorem eq_gone_of_movesLeft {m : Nat} (h : w.movesLeft m = 0) : ∃ e s, w = .gone e s := by
  cases w with
  | gone e s => exact ⟨e, s, rfl⟩
  | publishing _ ending _ _ => cases ending <;> simp [movesLeft] at h
  | _ => simp [movesLeft] at h

end Worker

namespace Detached

variable {σ : Type}

/-- The states that the worker performs a block in by a move: one state or none. -/
def performs (cancelled : σ → Nat → Bool) : Move → Detached σ → List σ
  | .work, ⟨.running made s, _, _, _, _⟩ => if cancelled s made then [] else [s]
  | _, _ => []

/-- What worker and controller come to by moves in any order, with the states that blocks were
performed in. -/
inductive Reaches (p : Procedure σ) (cancelled : σ → Nat → Bool) (s₀ : σ) :
    List σ → Detached σ → Prop
  | spawn : Reaches p cancelled s₀ [] (spawn s₀)
  | move {performed d} (m : Move) : Reaches p cancelled s₀ performed d →
      Reaches p cancelled s₀ (performed ++ d.performs cancelled m) (d.move p cancelled m)

structure Delivers (p : Procedure σ) (cancelled : σ → Nat → Bool) (s₀ : σ) (n : Nat)
    (d : Detached σ) : Prop where
  follows : d.worker.Follows p (.flagged cancelled) s₀ n
  within : d.queue.length ≤ queueCapacity
  seen : d.received.reverse <+: p.events s₀ n
  delivered : d.listening = true →
    d.received.reverse ++ d.queue ++ d.worker.pending = p.events s₀ n
  told : d.worker.hasTold = true → d.finished = true

variable {p : Procedure σ} {cancelled : σ → Nat → Bool} {s₀ : σ} {n : Nat} {d : Detached σ}
  {performed : List σ}

/-- The worker performs a block in the state that the calls made so far lead to. -/
theorem Delivers.performs (h : d.Delivers p cancelled s₀ n) (m : Move) :
    d.performs cancelled m = [] ∨ d.performs cancelled m = [p.stateAfter s₀ n] := by
  obtain ⟨worker, queue, received, listening, finished⟩ := d
  cases m with
  | receive => exact .inl rfl
  | leave => exact .inl rfl
  | work =>
    have hfollows := h.follows
    cases worker with
    | running made s =>
      cases hfollows with
      | running _ =>
        dsimp only [performs]
        split
        · exact .inl rfl
        · exact .inr rfl
    | publishing _ _ _ _ => exact .inl rfl
    | stopping _ _ => exact .inl rfl
    | leaving _ _ => exact .inl rfl
    | gone _ _ => exact .inl rfl

theorem Delivers.work (hp : ∀ s, (p.perform s).1 ≠ .crash) (h : d.Delivers p cancelled s₀ n) :
    (d.move p cancelled .work).Delivers p cancelled s₀
      (n + (d.performs cancelled .work).length) := by
  obtain ⟨worker, queue, received, listening, finished⟩ := d
  obtain ⟨hfollows, hwithin, hseen, hdelivered, htold⟩ := h
  dsimp only at hfollows hwithin hseen hdelivered htold
  cases worker with
  | running made s =>
    cases hfollows with
    | running hgoing =>
      obtain ⟨hnext, hevents, hquiet⟩ := Worker.follows_performBlock hp hgoing
      have hn : n + (Detached.performs cancelled .work
          ⟨.running n (p.stateAfter s₀ n), queue, received, listening, finished⟩).length =
          if cancelled (p.stateAfter s₀ n) n then n else n + 1 := by
        dsimp only [Detached.performs]
        split <;> rfl
      rw [hn]
      refine ⟨hnext, hwithin, ?_, fun hlistening => ?_, fun htells => ?_⟩
      · exact hseen.trans ⟨_, hevents⟩
      · rw [← hevents, ← hdelivered hlistening]
        simp [Worker.pending, move]
      · exact absurd (hquiet.symm.trans htells) (by decide)
  | publishing event ending made s =>
    obtain ⟨hnext, hpending, hquiet⟩ := hfollows.published
    have htells : (published ending made s).hasTold = true → finished = true :=
      fun h => absurd (hquiet.symm.trans h) (by decide)
    cases listening with
    | false => exact ⟨hnext, hwithin, hseen, (Bool.noConfusion ·), htells⟩
    | true =>
      dsimp only [move]
      split
      next hroom =>
        have hmoved : received.reverse ++ (queue ++ [event]) ++ (published ending made s).pending =
            p.events s₀ n := by
          rw [hpending, List.append_nil, ← List.append_assoc]
          exact hdelivered rfl
        refine ⟨hnext, ?_, hseen, fun _ => hmoved, htells⟩
        rw [List.length_append]
        exact hroom
      next => exact ⟨hfollows, hwithin, hseen, hdelivered, htold⟩
  | stopping ending s =>
    cases hfollows with
    | stopping hgoing hends =>
      exact ⟨.leaving hgoing hends, hwithin, hseen, hdelivered, fun _ => rfl⟩
  | leaving ending s =>
    cases hfollows with
    | leaving hgoing hends => exact ⟨.gone hgoing hends, hwithin, hseen, hdelivered, htold⟩
  | gone ending s => exact ⟨hfollows, hwithin, hseen, hdelivered, htold⟩

theorem Delivers.receive (h : d.Delivers p cancelled s₀ n) :
    (d.move p cancelled .receive).Delivers p cancelled s₀ n := by
  obtain ⟨worker, queue, received, listening, finished⟩ := d
  obtain ⟨hfollows, hwithin, hseen, hdelivered, htold⟩ := h
  dsimp only at hfollows hwithin hseen hdelivered htold
  cases queue with
  | nil => exact ⟨hfollows, hwithin, hseen, hdelivered, htold⟩
  | cons event queue =>
    cases listening with
    | false => exact ⟨hfollows, hwithin, hseen, hdelivered, htold⟩
    | true =>
      have hmoved : (event :: received).reverse ++ queue ++ worker.pending = p.events s₀ n := by
        rw [← hdelivered rfl]
        simp
      refine ⟨hfollows, ?_, ?_, fun _ => hmoved, htold⟩
      · exact Nat.le_of_succ_le hwithin
      · rw [← hmoved, List.append_assoc]
        exact List.prefix_append ..

theorem Delivers.leave (h : d.Delivers p cancelled s₀ n) :
    (d.move p cancelled .leave).Delivers p cancelled s₀ n :=
  ⟨h.follows, Nat.zero_le _, h.seen, (Bool.noConfusion ·), h.told⟩

/-- The step lemma. -/
theorem Delivers.move (hp : ∀ s, (p.perform s).1 ≠ .crash) (h : d.Delivers p cancelled s₀ n)
    (m : Move) :
    (d.move p cancelled m).Delivers p cancelled s₀ (n + (d.performs cancelled m).length) := by
  cases m with
  | work => exact h.work hp
  | receive => exact h.receive
  | leave => exact h.leave

/-- The run lemma: the calls made are those of the loop, in their order. -/
theorem Reaches.delivers (hp : ∀ s, (p.perform s).1 ≠ .crash)
    (h : Reaches p cancelled s₀ performed d) :
    performed = (List.range performed.length).map (p.stateAfter s₀) ∧
      d.Delivers p cancelled s₀ performed.length := by
  induction h with
  | spawn =>
    exact ⟨rfl, .running (by simp), Nat.zero_le _, List.nil_prefix, fun _ => rfl,
      (Bool.noConfusion ·)⟩
  | move m _ ih =>
    obtain ⟨hperformed, hdelivers⟩ := ih
    rw [List.length_append]
    refine ⟨?_, hdelivers.move hp m⟩
    rcases hdelivers.performs m with hnone | hone
    · rw [hnone]
      simpa using hperformed
    · rw [hone, List.length_singleton, List.range_succ, List.map_append, ← hperformed]
      rfl

/-- The worker gets on, is gone, or waits before a full queue. -/
theorem Delivers.work_cases {m : Nat} (hp : ∀ s, (p.perform s).1 ≠ .crash)
    (hmost : ∀ i, (∀ j < i + 1, p.GoesOn (.flagged cancelled) s₀ j) → i < m)
    (h : d.Delivers p cancelled s₀ n) :
    let d' := d.move p cancelled .work
    d'.listening = d.listening ∧
      ((d'.worker.movesLeft m < d.worker.movesLeft m ∧ d'.queue.length ≤ d.queue.length + 1) ∨
        (d' = d ∧ (d.isGone = true ∨ (d.listening = true ∧ queueCapacity ≤ d.queue.length)))) := by
  obtain ⟨worker, queue, received, listening, finished⟩ := d
  have hfollows := h.follows
  cases worker with
  | running made s =>
    cases hfollows with
    | running hgoing =>
      exact ⟨rfl, .inl ⟨Worker.movesLeft_performBlock hp hgoing hmost, Nat.le_succ _⟩⟩
  | publishing event ending made s =>
    have hless := Worker.movesLeft_published m event ending made s
    cases listening with
    | false => exact ⟨rfl, .inl ⟨hless, Nat.le_succ _⟩⟩
    | true =>
      dsimp only [Detached.move]
      split
      next =>
        refine ⟨rfl, .inl ⟨hless, ?_⟩⟩
        rw [List.length_append]
        exact Nat.le_refl _
      next hfull => exact ⟨rfl, .inr ⟨rfl, .inr ⟨rfl, Nat.le_of_not_lt hfull⟩⟩⟩
  | stopping ending s => exact ⟨rfl, .inl ⟨Nat.lt_succ_self _, Nat.le_succ _⟩⟩
  | leaving ending s => exact ⟨rfl, .inl ⟨Nat.lt_succ_self _, Nat.le_succ _⟩⟩
  | gone ending s => exact ⟨rfl, .inr ⟨rfl, .inl rfl⟩⟩

theorem receive_of_listening (p : Procedure σ) (cancelled : σ → Nat → Bool)
    (hlistening : d.listening = true) :
    let d' := d.move p cancelled .receive
    d'.worker = d.worker ∧ d'.listening = true ∧ d'.queue.length = d.queue.length - 1 := by
  obtain ⟨worker, queue, received, listening, finished⟩ := d
  obtain rfl : listening = true := hlistening
  cases queue with
  | nil => exact ⟨rfl, rfl, rfl⟩
  | cons event queue => exact ⟨rfl, rfl, rfl⟩

/-- What is to be done until the worker is gone and all is taken out. An event that is handed over
counts once more until it is taken out. -/
def toDo (m : Nat) (d : Detached σ) : Nat := 2 * d.worker.movesLeft m + d.queue.length

theorem isGone_iff : d.isGone = true ↔ ∃ e s, d.worker = .gone e s := by
  obtain ⟨worker, queue, received, listening, finished⟩ := d
  cases worker <;> simp [isGone]

/-- A turn of worker and controller leaves less to do. -/
theorem Delivers.toDo_turn {m : Nat} (hp : ∀ s, (p.perform s).1 ≠ .crash)
    (hmost : ∀ i, (∀ j < i + 1, p.GoesOn (.flagged cancelled) s₀ j) → i < m)
    (h : d.Delivers p cancelled s₀ n) (hlistening : d.listening = true)
    (hmore : (d.isGone && d.queue.isEmpty) = false) :
    let d' := (d.move p cancelled .work).move p cancelled .receive
    d'.listening = true ∧ d'.toDo m < d.toDo m := by
  obtain ⟨hstill, hcases⟩ := h.work_cases hp hmost
  obtain ⟨hworker, hlistening', hlength⟩ :=
    receive_of_listening p cancelled (hstill.trans hlistening)
  refine ⟨hlistening', ?_⟩
  rw [toDo, toDo, hworker, hlength]
  rcases hcases with ⟨hless, hone⟩ | ⟨hsame, hgone | ⟨-, hfull⟩⟩
  · omega
  · have hqueue : d.queue ≠ [] := by simpa [hgone] using hmore
    have := List.length_pos_iff.mpr hqueue
    rw [hsame]
    omega
  · rw [queueCapacity] at hfull
    rw [hsame]
    omega

/-- Turns enough drain the queue. -/
theorem Reaches.drain {m turns : Nat} (hp : ∀ s, (p.perform s).1 ≠ .crash)
    (hmost : ∀ i, (∀ j < i + 1, p.GoesOn (.flagged cancelled) s₀ j) → i < m)
    (h : Reaches p cancelled s₀ performed d) (hlistening : d.listening = true)
    (hturns : d.toDo m ≤ turns) :
    let d' := Detached.drain p cancelled turns d
    (∃ performed', Reaches p cancelled s₀ performed' d') ∧ d'.listening = true ∧
      d'.isGone = true ∧ d'.queue = [] := by
  induction turns generalizing performed d with
  | zero =>
    rw [toDo] at hturns
    have hdone : d.worker.movesLeft m = 0 := by omega
    have hempty : d.queue.length = 0 := by omega
    exact ⟨⟨performed, h⟩, hlistening, isGone_iff.mpr (Worker.eq_gone_of_movesLeft hdone),
      List.length_eq_zero_iff.mp hempty⟩
  | succ turns ih =>
    rw [Detached.drain]
    cases hmore : d.isGone && d.queue.isEmpty with
    | true =>
      rw [if_pos rfl]
      obtain ⟨hgone, hempty⟩ := (Bool.and_eq_true _ _).mp hmore
      exact ⟨⟨performed, h⟩, hlistening, hgone, List.isEmpty_iff.mp hempty⟩
    | false =>
      rw [if_neg (by decide)]
      obtain ⟨hlistening', hless⟩ := (h.delivers hp).2.toDo_turn hp hmost hlistening hmore
      exact ih ((h.move .work).move .receive) hlistening' (by omega)

/-- A worker that nobody listens to gets to its end all the same. -/
theorem Reaches.work {m turns : Nat} (hp : ∀ s, (p.perform s).1 ≠ .crash)
    (hmost : ∀ i, (∀ j < i + 1, p.GoesOn (.flagged cancelled) s₀ j) → i < m)
    (h : Reaches p cancelled s₀ performed d) (hleft : d.listening = false)
    (hturns : d.worker.movesLeft m ≤ turns) :
    let d' := (Detached.move p cancelled .work)^[turns] d
    (∃ performed', Reaches p cancelled s₀ performed' d') ∧ d'.isGone = true := by
  induction turns generalizing performed d with
  | zero =>
    exact ⟨⟨performed, h⟩, isGone_iff.mpr (Worker.eq_gone_of_movesLeft (Nat.le_zero.mp hturns))⟩
  | succ turns ih =>
    rw [Function.iterate_succ_apply]
    obtain ⟨hstill, hcases⟩ := (h.delivers hp).2.work_cases hp hmost
    apply ih (h.move .work) (hstill.trans hleft)
    rcases hcases with ⟨hless, -⟩ | ⟨hsame, hgone | ⟨hlistening, -⟩⟩
    · omega
    · obtain ⟨e, s, hworker⟩ := isGone_iff.mp hgone
      rw [hsame, hworker]
      exact Nat.zero_le _
    · exact absurd (hleft.symm.trans hlistening) (by decide)

/-- Once the worker is gone, the loop has come to its end, and the worker ended as it did. -/
theorem Reaches.of_isGone (hp : ∀ s, (p.perform s).1 ≠ .crash)
    (h : Reaches p cancelled s₀ performed d) (hgone : d.isGone = true) :
    d.finished = true ∧ ∃ k e, (∀ i < k, p.GoesOn (.flagged cancelled) s₀ i) ∧
      p.EndsAt (.flagged cancelled) s₀ k performed.length e ∧
      d.join? = some (e, p.stateAfter s₀ performed.length) := by
  obtain ⟨-, hdelivers⟩ := h.delivers hp
  obtain ⟨e, s, hworker⟩ := isGone_iff.mp hgone
  obtain ⟨k, hgoing, hends, rfl⟩ := (hworker ▸ hdelivers.follows).of_gone
  refine ⟨hdelivers.told ?_, k, e, hgoing, hends, ?_⟩
  · rw [hworker]
    rfl
  · rw [join?, hworker]

/-- All that worker and controller can come to ends in one way: the same blocks are performed in the
same states, and the controller is handed the same end. -/
theorem Reaches.eq_of_isGone {performed' : List σ} {d' : Detached σ}
    (hp : ∀ s, (p.perform s).1 ≠ .crash)
    (h : Reaches p cancelled s₀ performed d) (hgone : d.isGone = true)
    (h' : Reaches p cancelled s₀ performed' d') (hgone' : d'.isGone = true) :
    performed = performed' ∧ d.join? = d'.join? := by
  obtain ⟨-, k, e, hgoing, hends, hjoin⟩ := h.of_isGone hp hgone
  obtain ⟨-, k', e', hgoing', hends', hjoin'⟩ := h'.of_isGone hp hgone'
  obtain ⟨-, hn, he⟩ := hends.eq_of_going hgoing hends' hgoing'
  refine ⟨?_, ?_⟩
  · rw [(h.delivers hp).1, (h'.delivers hp).1, hn]
  · rw [hjoin, hjoin', hn, he]

/-- A controller that has drained the queue of a run that returns has seen what the loop shows. -/
theorem Reaches.of_returns {r : Run σ} (hp : ∀ s, (p.perform s).1 ≠ .crash)
    (hr : p.Returns (.flagged cancelled) s₀ r) (h : Reaches p cancelled s₀ performed d)
    (hgone : d.isGone = true) :
    d.finished = true ∧ d.join? = some (r.ending, r.state) ∧
      (d.listening = true → d.queue = [] → d.received.reverse = r.events) := by
  obtain ⟨hfinished, k, e, hgoing, hends, hjoin⟩ := h.of_isGone hp hgone
  obtain ⟨k', n, hgoing', hends', hevents, hstate⟩ := Procedure.returns_iff.mp hr
  obtain ⟨-, rfl, rfl⟩ := hends.eq_of_going hgoing hends' hgoing'
  refine ⟨hfinished, ?_, fun hlistening hqueue => ?_⟩
  · rw [hjoin, hstate]
  · have hdelivered := (h.delivers hp).2.delivered hlistening
    obtain ⟨e, s, hworker⟩ := isGone_iff.mp hgone
    have hpending : d.worker.pending = [] := by rw [hworker]; rfl
    rw [hevents, ← hdelivered, hqueue, hpending, List.append_nil, List.append_nil]

/-- Of a procedure whose calls return, whenever the stop flag is seen and in whatever order worker
and controller move: the worker makes the calls of the loop, in its order. The queue holds no more
than it has room for, and while the controller listens, what it took out, what is in the queue and
what is about to be handed over are the events that the loop has seen with as many calls. Once the
worker is gone it has told so, the loop has returned, and a controller that took out all has its
events. The calls and the end are the same whenever the controller leaves, if it does. If the loop
returns, then from wherever they are the controller comes to the end of the queue by taking out, and
to the end of the worker by leaving. -/
theorem detached_delivers_loop (p : Procedure σ) (cancelled : σ → Nat → Bool) (s₀ : σ)
    (hp : ∀ s, (p.perform s).1 ≠ .crash) :
    (∀ performed d, Reaches p cancelled s₀ performed d →
      let made := p.loopFrom (.flagged cancelled) performed.length 0 [] s₀
      performed = (List.range performed.length).map (p.stateAfter s₀) ∧
      d.queue.length ≤ queueCapacity ∧ d.received.reverse <+: made.events ∧
      (d.listening = true → d.received.reverse ++ d.queue ++ d.worker.pending = made.events) ∧
      (d.isGone = true → d.finished = true ∧ ∃ r, p.Returns (.flagged cancelled) s₀ r ∧
        d.join? = some (r.ending, r.state) ∧
        (d.listening = true → d.queue = [] → d.received.reverse = r.events))) ∧
    (∀ performed d performed' d', Reaches p cancelled s₀ performed d → d.isGone = true →
      Reaches p cancelled s₀ performed' d' → d'.isGone = true →
        performed = performed' ∧ d.join? = d'.join?) ∧
    ∀ r, p.Returns (.flagged cancelled) s₀ r → ∀ performed d, Reaches p cancelled s₀ performed d →
      (d.listening = true → ∃ turns, let d' := d.drain p cancelled turns
        d'.isGone = true ∧ d'.queue = [] ∧ d'.finished = true ∧ d'.received.reverse = r.events ∧
          d'.join? = some (r.ending, r.state)) ∧
      ∃ turns, ((move p cancelled .work)^[turns] (d.move p cancelled .leave)).join? =
        some (r.ending, r.state) := by
  constructor
  · intro performed d h made
    obtain ⟨hperformed, hdelivers⟩ := h.delivers hp
    have hevents : made.events = p.events s₀ performed.length := by
      obtain ⟨k, hgoing, hn⟩ := hdelivers.follows.exists_calls
      exact Procedure.events_loopFrom hgoing hn
    rw [hevents]
    refine ⟨hperformed, hdelivers.within, hdelivers.seen, hdelivers.delivered, fun hgone => ?_⟩
    obtain ⟨hfinished, k, e, hgoing, hends, -⟩ := h.of_isGone hp hgone
    have hr : p.Returns (.flagged cancelled) s₀
        ⟨e, p.events s₀ performed.length, p.stateAfter s₀ performed.length⟩ :=
      Procedure.returns_iff.mpr ⟨k, performed.length, hgoing, hends, rfl, rfl⟩
    exact ⟨hfinished, _, hr, (h.of_returns hp hr hgone).2⟩
  constructor
  · intro performed d performed' d' h hgone h' hgone'
    exact h.eq_of_isGone hp hgone h' hgone'
  · intro r hr performed d h
    obtain ⟨m, n, -, hends, -⟩ := Procedure.returns_iff.mp hr
    have hmost : ∀ i, (∀ j < i + 1, p.GoesOn (.flagged cancelled) s₀ j) → i < m := by
      intro i hgoing
      by_contra hge
      exact hends.not_goesOn (hgoing m (by omega))
    constructor
    · intro hlistening
      obtain ⟨⟨performed', h'⟩, hlistening', hgone, hqueue⟩ :=
        h.drain hp hmost hlistening (Nat.le_refl _)
      obtain ⟨hfinished, hjoin, hreceived⟩ := h'.of_returns hp hr hgone
      exact ⟨_, hgone, hqueue, hfinished, hreceived hlistening' hqueue, hjoin⟩
    · obtain ⟨⟨performed', h'⟩, hgone⟩ := (h.move .leave).work hp hmost rfl (Nat.le_refl _)
      exact ⟨_, (h'.of_returns hp hr hgone).2.1⟩

/-- Three sectors. The controller takes all out, or leaves when the first report waits for it. -/
theorem detached_delivers_loop_of_countdown :
    let seen := fun n => (⟨⟨n, 1, .ok, 0, false⟩, ⟨0, n⟩⟩ : Event)
    let never := fun (_ _ : Nat) => false
    (∀ s, (Procedure.countdown.perform s).1 ≠ .crash) ∧
      (∃ turns, let d := (spawn 3).drain Procedure.countdown never turns
        d.isGone = true ∧ d.finished = true ∧ d.received.reverse = [seen 2, seen 1, seen 0] ∧
          d.join? = some (.outcome .completed, 0)) ∧
      ∃ turns, ((move Procedure.countdown never .work)^[turns]
        (⟨.publishing (seen 2) none 1 2, [], [], false, false⟩ : Detached Nat)).join? =
          some (.outcome .completed, 0) := by
  intro seen never
  have hp : ∀ s, (Procedure.countdown.perform s).1 ≠ .crash := by
    intro s
    cases s <;> exact Step.noConfusion
  have hr : Procedure.countdown.Returns (.flagged never) 3
      ⟨.outcome .completed, [seen 2, seen 1, seen 0], 0⟩ := ⟨4, rfl, by decide⟩
  obtain ⟨-, -, hends⟩ := detached_delivers_loop Procedure.countdown never 3 hp
  obtain ⟨hdrained, -⟩ := hends _ hr _ _ .spawn
  obtain ⟨turns, hgone, -, hfinished, hreceived, hjoin⟩ := hdrained rfl
  obtain ⟨-, hleft⟩ := hends _ hr _ _ (Reaches.spawn.move .work)
  exact ⟨hp, ⟨turns, hgone, hfinished, hreceived, hjoin⟩, hleft⟩

end Detached

end DriveRescue
