import DriveRescue.Procedure.Loop
import DriveRescue.Sector
import Mathlib.Data.List.Range
import Mathlib.Logic.Function.Iterate

/-! Runs of any procedure. A run makes one call after the other up to the first that it does not go
on after, or to where it is stopped, and the observer sees the report of each call in turn. So a run
that was cut short by its limit and is taken up again is one run. -/
namespace DriveRescue

def Step.report? : Step → Option BlockReport
  | .proceed report | .abort report => some report
  | _ => none

namespace Control

variable {σ : Type}

/-- The run is stopped from outside when it has made `k` calls and come to the state `s`. -/
def Stops (c : Control σ) (k : Nat) (s : σ) : Prop :=
  c.cancelled s k = true ∨ ∃ most, c.limit = some most ∧ most ≤ k

/-- Nothing but a limit stops the run. -/
def upTo (σ : Type) (most : Nat) : Control σ := ⟨some most, fun _ _ => false, fun _ _ => false⟩

@[simp] theorem stops_upTo {most k : Nat} {s : σ} : (upTo σ most).Stops k s ↔ most ≤ k := by
  simp [Stops, upTo]

theorem not_stops_free {k : Nat} {s : σ} : ¬ (free σ).Stops k s := by
  simp [Stops, free]

theorem cancelled_or_limit_iff {c : Control σ} {k : Nat} {s : σ} :
    (c.cancelled s k || c.limit.any (· ≤ k)) = true ↔ c.Stops k s := by
  simp [Stops, Option.any_eq_true]

end Control

namespace Procedure

variable {σ : Type}

/-- The state that `k` calls in a row lead to. -/
def stateAfter (p : Procedure σ) (s : σ) (k : Nat) : σ := (fun s => (p.perform s).2)^[k] s

/-- What call number `k` comes to, counted from 0. -/
def stepAt (p : Procedure σ) (s : σ) (k : Nat) : Step := (p.perform (p.stateAfter s k)).1

/-- The report of call number `k`, if it has one, with the progress after it. -/
def eventAt? (p : Procedure σ) (s : σ) (k : Nat) : Option Event :=
  (p.stepAt s k).report?.map (⟨·, p.progress (p.stateAfter s (k + 1))⟩)

def events (p : Procedure σ) (s : σ) (n : Nat) : List Event :=
  (List.range n).filterMap (p.eventAt? s)

/-- Call number `k` is made, and the run goes on after it. -/
def GoesOn (p : Procedure σ) (c : Control σ) (s : σ) (k : Nat) : Prop :=
  ¬ c.Stops k (p.stateAfter s k) ∧ ∃ report, p.stepAt s k = .proceed report ∧
    c.breaks k ⟨report, p.progress (p.stateAfter s (k + 1))⟩ = false

/-- How a run ends that goes on after `k` calls, and with how many calls in all: before another one,
or with it. -/
inductive EndsAt (p : Procedure σ) (c : Control σ) (s : σ) (k : Nat) : Nat → Ending → Prop
  | stopped : c.Stops k (p.stateAfter s k) → EndsAt p c s k k (.outcome .interrupted)
  | broken {report} : ¬ c.Stops k (p.stateAfter s k) → p.stepAt s k = .proceed report →
      c.breaks k ⟨report, p.progress (p.stateAfter s (k + 1))⟩ = true →
      EndsAt p c s k (k + 1) (.outcome .interrupted)
  | aborted {report} : ¬ c.Stops k (p.stateAfter s k) → p.stepAt s k = .abort report →
      EndsAt p c s k (k + 1) (.outcome .aborted)
  | completed : ¬ c.Stops k (p.stateAfter s k) → p.stepAt s k = .complete →
      EndsAt p c s k (k + 1) (.outcome .completed)
  | failed {e} : ¬ c.Stops k (p.stateAfter s k) → p.stepAt s k = .fail e →
      EndsAt p c s k (k + 1) (.failed e)
  | crashed : ¬ c.Stops k (p.stateAfter s k) → p.stepAt s k = .crash →
      EndsAt p c s k (k + 1) .crashed

/-- The loop comes to its end with `r`, if it is given the turns that it takes. -/
def Returns (p : Procedure σ) (c : Control σ) (s : σ) (r : Run σ) : Prop :=
  ∃ turns, p.loopFrom c turns 0 [] s = r ∧ r.ending ≠ .unfinished

variable {p : Procedure σ} {c : Control σ} {s : σ} {k m n : Nat} {e : Ending} {r : Run σ}

theorem stateAfter_succ (p : Procedure σ) (s : σ) (k : Nat) :
    p.stateAfter s (k + 1) = (p.perform (p.stateAfter s k)).2 :=
  Function.iterate_succ_apply' ..

theorem stateAfter_add (p : Procedure σ) (s : σ) (a k : Nat) :
    p.stateAfter s (a + k) = p.stateAfter (p.stateAfter s a) k := by
  rw [Nat.add_comm]
  exact Function.iterate_add_apply ..

theorem stepAt_add (p : Procedure σ) (s : σ) (a k : Nat) :
    p.stepAt s (a + k) = p.stepAt (p.stateAfter s a) k := by
  simp only [stepAt, stateAfter_add]

theorem eventAt?_add (p : Procedure σ) (s : σ) (a k : Nat) :
    p.eventAt? s (a + k) = p.eventAt? (p.stateAfter s a) k := by
  simp only [eventAt?, stepAt_add, Nat.add_assoc, stateAfter_add p s a]

theorem events_succ (p : Procedure σ) (s : σ) (n : Nat) :
    p.events s (n + 1) = p.events s n ++ (p.eventAt? s n).toList := by
  rw [events, List.range_succ, List.filterMap_append]
  cases h : p.eventAt? s n <;> simp [events, h]

theorem events_add (p : Procedure σ) (s : σ) (a n : Nat) :
    p.events s (a + n) = p.events s a ++ p.events (p.stateAfter s a) n := by
  simp only [events, List.range_add, List.filterMap_append, List.filterMap_map]
  congr 1
  apply List.filterMap_congr
  intro k _
  exact p.eventAt?_add s a k

theorem perform_stateAfter (p : Procedure σ) (s : σ) (k : Nat) :
    p.perform (p.stateAfter s k) = (p.stepAt s k, p.stateAfter s (k + 1)) := by
  rw [stateAfter_succ]
  rfl

theorem eventAt?_of_report {report : BlockReport} (h : (p.stepAt s k).report? = some report) :
    p.eventAt? s k = some ⟨report, p.progress (p.stateAfter s (k + 1))⟩ := by
  simp [eventAt?, h]

theorem eventAt?_of_none (h : (p.stepAt s k).report? = none) : p.eventAt? s k = none := by
  simp [eventAt?, h]

theorem events_succ_of_report {report : BlockReport}
    (h : (p.stepAt s k).report? = some report) :
    (p.events s (k + 1)).reverse =
      ⟨report, p.progress (p.stateAfter s (k + 1))⟩ :: (p.events s k).reverse := by
  simp [events_succ, eventAt?_of_report h]

theorem events_succ_of_none (h : (p.stepAt s k).report? = none) :
    p.events s (k + 1) = p.events s k := by
  simp [events_succ, eventAt?_of_none h]

/-- A turn of the loop makes a call and goes on, or is the last. -/
theorem loopFrom_succ (p : Procedure σ) (c : Control σ) (s : σ) (turns k : Nat) :
    (p.GoesOn c s k ∧
      p.loopFrom c (turns + 1) k (p.events s k).reverse (p.stateAfter s k) =
        p.loopFrom c turns (k + 1) (p.events s (k + 1)).reverse (p.stateAfter s (k + 1))) ∨
    ∃ n e, p.EndsAt c s k n e ∧
      p.loopFrom c (turns + 1) k (p.events s k).reverse (p.stateAfter s k) =
        ⟨e, p.events s n, p.stateAfter s n⟩ := by
  rw [loopFrom]
  by_cases hstop : c.Stops k (p.stateAfter s k)
  · rw [if_pos (Control.cancelled_or_limit_iff.mpr hstop), List.reverse_reverse]
    exact .inr ⟨k, _, .stopped hstop, rfl⟩
  · rw [if_neg (mt Control.cancelled_or_limit_iff.mp hstop), perform_stateAfter]
    cases hstep : p.stepAt s k with
    | proceed report =>
      have hseen := @events_succ_of_report σ p s k report (by rw [hstep]; rfl)
      dsimp only
      rw [← hseen]
      cases hbreak : c.breaks k ⟨report, p.progress (p.stateAfter s (k + 1))⟩ with
      | true =>
        rw [if_pos rfl, List.reverse_reverse]
        exact .inr ⟨k + 1, _, .broken hstop hstep hbreak, rfl⟩
      | false =>
        rw [if_neg (by decide)]
        exact .inl ⟨⟨hstop, report, hstep, hbreak⟩, rfl⟩
    | abort report =>
      have hseen := @events_succ_of_report σ p s k report (by rw [hstep]; rfl)
      dsimp only
      rw [← hseen, List.reverse_reverse]
      exact .inr ⟨k + 1, _, .aborted hstop hstep, rfl⟩
    | complete =>
      have hseen := @events_succ_of_none σ p s k (by rw [hstep]; rfl)
      dsimp only
      rw [List.reverse_reverse, ← hseen]
      exact .inr ⟨k + 1, _, .completed hstop hstep, rfl⟩
    | fail e =>
      have hseen := @events_succ_of_none σ p s k (by rw [hstep]; rfl)
      dsimp only
      rw [List.reverse_reverse, ← hseen]
      exact .inr ⟨k + 1, _, .failed hstop hstep, rfl⟩
    | crash =>
      have hseen := @events_succ_of_none σ p s k (by rw [hstep]; rfl)
      dsimp only
      rw [List.reverse_reverse, ← hseen]
      exact .inr ⟨k + 1, _, .crashed hstop hstep, rfl⟩

/-- The run lemma: so many calls go on, and then the turns are used up or the run ends. -/
theorem loopFrom_cases (turns : Nat) (hmade : ∀ i < k, p.GoesOn c s i) :
    ∃ m, (∀ i < m, p.GoesOn c s i) ∧
      ((m = k + turns ∧ p.loopFrom c turns k (p.events s k).reverse (p.stateAfter s k) =
          ⟨.unfinished, p.events s m, p.stateAfter s m⟩) ∨
        ∃ n e, m < k + turns ∧ p.EndsAt c s m n e ∧
          p.loopFrom c turns k (p.events s k).reverse (p.stateAfter s k) =
            ⟨e, p.events s n, p.stateAfter s n⟩) := by
  induction turns generalizing k with
  | zero =>
    refine ⟨k, hmade, .inl ⟨rfl, ?_⟩⟩
    rw [loopFrom, List.reverse_reverse]
  | succ turns ih =>
    rcases p.loopFrom_succ c s turns k with ⟨hgoes, hloop⟩ | ⟨n, e, hends, hloop⟩
    · have hnext : ∀ i < k + 1, p.GoesOn c s i := by
        intro i hi
        rcases Nat.lt_succ_iff_lt_or_eq.mp hi with hlt | rfl
        · exact hmade i hlt
        · exact hgoes
      obtain ⟨m, hgoing, hcases⟩ := ih hnext
      refine ⟨m, hgoing, ?_⟩
      rw [hloop]
      rcases hcases with ⟨hm, heq⟩ | ⟨n, e, hm, hends⟩
      · exact .inl ⟨by omega, heq⟩
      · exact .inr ⟨n, e, by omega, hends⟩
    · exact ⟨k, hmade, .inr ⟨n, e, by omega, hends, hloop⟩⟩

theorem EndsAt.not_goesOn (h : p.EndsAt c s k n e) : ¬ p.GoesOn c s k := by
  rintro ⟨hstop, report, hstep, hbreak⟩
  cases h with
  | stopped hs => exact hstop hs
  | broken _ hs hb =>
    obtain rfl := Step.proceed.inj (hs.symm.trans hstep)
    simp [hb] at hbreak
  | aborted _ hs => simp [hs] at hstep
  | completed _ hs => simp [hs] at hstep
  | failed _ hs => simp [hs] at hstep
  | crashed _ hs => simp [hs] at hstep

/-- A run ends in one way only. -/
theorem EndsAt.unique {n' : Nat} {e' : Ending} (h : p.EndsAt c s k n e)
    (h' : p.EndsAt c s k n' e') : n = n' ∧ e = e' := by
  cases h <;> cases h' <;> simp_all

/-- Where a run ends is where no call goes on for the first time. -/
theorem EndsAt.eq_of_going {k' n' : Nat} {e' : Ending} (h : p.EndsAt c s k n e)
    (hgoing : ∀ i < k, p.GoesOn c s i) (h' : p.EndsAt c s k' n' e')
    (hgoing' : ∀ i < k', p.GoesOn c s i) : k = k' ∧ n = n' ∧ e = e' := by
  have hk : k = k' := by
    rcases Nat.lt_trichotomy k k' with hlt | heq | hlt
    · exact absurd (hgoing' k hlt) h.not_goesOn
    · exact heq
    · exact absurd (hgoing k' hlt) h'.not_goesOn
  subst hk
  exact ⟨rfl, h.unique h'⟩

theorem EndsAt.le (h : p.EndsAt c s k n e) : k ≤ n := by
  cases h <;> omega

theorem EndsAt.ne_unfinished (h : p.EndsAt c s k n e) : e ≠ .unfinished := by
  cases h <;> simp

/-- A run that returns ends somewhere, and one that ends somewhere returns. -/
theorem returns_iff : p.Returns c s r ↔ ∃ m n, (∀ i < m, p.GoesOn c s i) ∧
    p.EndsAt c s m n r.ending ∧ r.events = p.events s n ∧ r.state = p.stateAfter s n := by
  have hcases (turns : Nat) := @loopFrom_cases σ p c s 0 turns (by simp)
  constructor
  · rintro ⟨turns, rfl, hfinished⟩
    obtain ⟨m, hgoing, ⟨-, heq⟩ | ⟨n, e, -, hends, heq⟩⟩ := hcases turns
    · exact absurd (congrArg Run.ending heq) hfinished
    · refine ⟨m, n, hgoing, ?_⟩
      have heq : p.loopFrom c turns 0 [] s = ⟨e, p.events s n, p.stateAfter s n⟩ := heq
      rw [heq]
      exact ⟨hends, rfl, rfl⟩
  · rintro ⟨m, n, hgoing, hends, hevents, hstate⟩
    refine ⟨m + 1, ?_, hends.ne_unfinished⟩
    obtain ⟨m', hgoing', ⟨rfl, -⟩ | ⟨n', e', -, hends', heq⟩⟩ := hcases (m + 1)
    · exact absurd (hgoing' m (by omega)) hends.not_goesOn
    · obtain ⟨-, rfl, rfl⟩ := hends.eq_of_going hgoing hends' hgoing'
      have heq : p.loopFrom c (m + 1) 0 [] s = ⟨r.ending, p.events s n, p.stateAfter s n⟩ := heq
      rw [heq, ← hevents, ← hstate]

theorem Returns.unique {r' : Run σ} (h : p.Returns c s r) (h' : p.Returns c s r') : r = r' := by
  obtain ⟨m, n, hgoing, hends, hevents, hstate⟩ := returns_iff.mp h
  obtain ⟨m', n', hgoing', hends', hevents', hstate'⟩ := returns_iff.mp h'
  obtain ⟨-, rfl, hending⟩ := hends.eq_of_going hgoing hends' hgoing'
  obtain ⟨ending, events, state⟩ := r
  obtain ⟨ending', events', state'⟩ := r'
  dsimp only at hending hevents hevents' hstate hstate'
  rw [hending, hevents, hevents', hstate, hstate']

/-- Each call that goes on leaves fewer blocks, as a procedure promises by `blocksLeft`. -/
def Diminishes (p : Procedure σ) (s : σ) : Prop :=
  ∀ k report, p.stepAt s k = .proceed report →
    p.blocksLeft (p.stateAfter s (k + 1)) < p.blocksLeft (p.stateAfter s k)

theorem Diminishes.blocksLeft_le (h : p.Diminishes s) (hgoing : ∀ i < m, p.GoesOn c s i) :
    p.blocksLeft (p.stateAfter s m) + m ≤ p.blocksLeft s := by
  induction m with
  | zero => exact Nat.le_refl _
  | succ m ih =>
    have hbefore := ih fun i hi => hgoing i (by omega)
    obtain ⟨-, report, hstep, -⟩ := hgoing m (by omega)
    have := h m report hstep
    omega

/-- The turns that are reckoned by the blocks left suffice. -/
theorem Diminishes.returns_loop (h : p.Diminishes s) (c : Control σ) :
    p.Returns c s (p.loop c s) := by
  obtain ⟨m, hgoing, ⟨rfl, -⟩ | ⟨n, e, -, hends, heq⟩⟩ :=
    @loopFrom_cases σ p c s 0 (p.blocksLeft s + 2) (by simp)
  · have := h.blocksLeft_le hgoing
    omega
  · have heq : p.loop c s = ⟨e, p.events s n, p.stateAfter s n⟩ := heq
    exact returns_iff.mpr ⟨m, n, hgoing, heq ▸ hends, by rw [heq], by rw [heq]⟩

/-- A run that nothing stops from outside ends with the first call that it does not go on after. -/
theorem Diminishes.loop_free (h : p.Diminishes s)
    (hgoing : ∀ i < k, ∃ report, p.stepAt s i = .proceed report)
    (hends : p.EndsAt (.free σ) s k n e) :
    p.loop (.free σ) s = ⟨e, p.events s n, p.stateAfter s n⟩ := by
  have hgoes : ∀ i < k, p.GoesOn (.free σ) s i := by
    intro i hi
    obtain ⟨report, hstep⟩ := hgoing i hi
    exact ⟨Control.not_stops_free, report, hstep, rfl⟩
  have hreturns : p.Returns (.free σ) s ⟨e, p.events s n, p.stateAfter s n⟩ :=
    returns_iff.mpr ⟨k, n, hgoes, hends, rfl, rfl⟩
  exact (h.returns_loop _).unique hreturns

/-- A limit is an end. -/
theorem exists_returns_upTo (p : Procedure σ) (s : σ) (most : Nat) :
    ∃ r, p.Returns (.upTo σ most) s r := by
  obtain ⟨m, hgoing, ⟨rfl, -⟩ | ⟨n, e, -, hends, -⟩⟩ :=
    @loopFrom_cases σ p (.upTo σ most) s 0 (most + 1) (by simp)
  · have hlast := (hgoing most (by omega)).1
    rw [Control.stops_upTo] at hlast
    exact absurd (Nat.le_refl most) hlast
  · exact ⟨⟨e, _, _⟩, returns_iff.mpr ⟨m, n, hgoing, hends, rfl, rfl⟩⟩

/-- A run with a limit alone is interrupted by its limit only. -/
theorem EndsAt.eq_limit {most : Nat} (h : p.EndsAt (.upTo σ most) s k n (.outcome .interrupted))
    (hgoing : ∀ i < k, p.GoesOn (.upTo σ most) s i) : k = most ∧ n = most := by
  have hle : k ≤ most := by
    rcases Nat.eq_zero_or_pos k with rfl | hpos
    · exact Nat.zero_le _
    · have hlast := (hgoing (k - 1) (by omega)).1
      rw [Control.stops_upTo] at hlast
      omega
  cases h with
  | stopped hs =>
    rw [Control.stops_upTo] at hs
    exact ⟨by omega, by omega⟩
  | broken _ _ hb => simp [Control.upTo] at hb

theorem goesOn_upTo_add {a b : Nat} :
    p.GoesOn (.upTo σ (a + b)) s (a + k) ↔ p.GoesOn (.upTo σ b) (p.stateAfter s a) k := by
  simp only [GoesOn, Control.stops_upTo, stepAt_add, Nat.add_assoc, stateAfter_add p s a,
    Nat.add_le_add_iff_left]
  rfl

theorem goesOn_upTo_mono {a b : Nat} (h : p.GoesOn (.upTo σ a) s k) (hab : a ≤ b) :
    p.GoesOn (.upTo σ b) s k := by
  obtain ⟨hstop, hstep⟩ := h
  rw [Control.stops_upTo] at hstop
  refine ⟨?_, hstep⟩
  rw [Control.stops_upTo]
  omega

theorem EndsAt.upTo_add {a b : Nat} (h : p.EndsAt (.upTo σ b) (p.stateAfter s a) k n e) :
    p.EndsAt (.upTo σ (a + b)) s (a + k) (a + n) e := by
  have hgo (hs : ¬ (Control.upTo σ b).Stops k (p.stateAfter (p.stateAfter s a) k)) :
      ¬ (Control.upTo σ (a + b)).Stops (a + k) (p.stateAfter s (a + k)) := by
    simpa only [Control.stops_upTo, Nat.add_le_add_iff_left] using hs
  cases h with
  | stopped hs =>
    apply EndsAt.stopped
    rw [Control.stops_upTo] at hs ⊢
    omega
  | broken _ _ hb => simp [Control.upTo] at hb
  | aborted hs hstep => exact .aborted (hgo hs) ((p.stepAt_add s a k).trans hstep)
  | completed hs hstep => exact .completed (hgo hs) ((p.stepAt_add s a k).trans hstep)
  | failed hs hstep => exact .failed (hgo hs) ((p.stepAt_add s a k).trans hstep)
  | crashed hs hstep => exact .crashed (hgo hs) ((p.stepAt_add s a k).trans hstep)

/-- A run that its limit has cut short, and the run that takes it up, make one run. -/
theorem Returns.append {a b : Nat} {r' : Run σ} (h : p.Returns (.upTo σ a) s r)
    (hcut : r.ending = .outcome .interrupted) (h' : p.Returns (.upTo σ b) r.state r') :
    p.Returns (.upTo σ (a + b)) s ⟨r'.ending, r.events ++ r'.events, r'.state⟩ := by
  obtain ⟨m, n, hgoing, hends, hevents, hstate⟩ := returns_iff.mp h
  rw [hcut] at hends
  obtain ⟨rfl, rfl⟩ := hends.eq_limit hgoing
  rw [hstate] at h'
  obtain ⟨m', n', hgoing', hends', hevents', hstate'⟩ := returns_iff.mp h'
  refine returns_iff.mpr ⟨n + m', n + n', fun i hi => ?_, hends'.upTo_add, ?_, ?_⟩
  · rcases Nat.lt_or_ge i n with hlt | hge
    · exact goesOn_upTo_mono (hgoing i hlt) (Nat.le_add_right ..)
    · obtain ⟨j, rfl⟩ := Nat.exists_eq_add_of_le hge
      exact goesOn_upTo_add.mpr (hgoing' j (by omega))
  · rw [hevents, hevents', events_add]
  · rw [hstate', stateAfter_add]

/-- However a procedure goes and whatever stops its run, in any number of turns the loop makes `n`
calls: so many that go on, and one that does not unless the run is stopped before it or its turns
are used up, which they are not if `blocksLeft` is right. The observer sees the reports of these
calls in their order, each once, and nothing else, and the state left is the one after them. A run
with a limit always comes to an end; cut short by it and taken up again with another limit it ends
as the one run with the sum of both does, with the reports of the second behind those of the
first. -/
theorem loop_reports_calls (p : Procedure σ) (s : σ) :
    (∀ (c : Control σ) turns, ∃ m n,
      let r := p.loopFrom c turns 0 [] s
      (∀ k < m, p.GoesOn c s k) ∧
      (p.EndsAt c s m n r.ending ∨ (m = turns ∧ n = turns ∧ r.ending = .unfinished)) ∧
      r.events = p.events s n ∧ r.state = p.stateAfter s n) ∧
    (p.Diminishes s → ∀ c : Control σ, p.Returns c s (p.loop c s)) ∧
    ∀ a b, ∃ r, p.Returns (.upTo σ a) s r ∧
      (r.ending = .outcome .interrupted →
        ∃ r', p.Returns (.upTo σ b) r.state r' ∧
          ∀ whole, p.Returns (.upTo σ (a + b)) s whole ↔
            whole = ⟨r'.ending, r.events ++ r'.events, r'.state⟩) := by
  refine ⟨fun c turns => ?_, fun h c => h.returns_loop c, fun a b => ?_⟩
  · obtain ⟨m, hgoing, ⟨hm, heq⟩ | ⟨n, e, -, hends, heq⟩⟩ :=
      @loopFrom_cases σ p c s 0 turns (by simp)
    · have heq : p.loopFrom c turns 0 [] s = ⟨.unfinished, p.events s m, p.stateAfter s m⟩ := heq
      obtain rfl : m = turns := by omega
      refine ⟨m, m, hgoing, ?_⟩
      rw [heq]
      exact ⟨.inr ⟨rfl, rfl, rfl⟩, rfl, rfl⟩
    · have heq : p.loopFrom c turns 0 [] s = ⟨e, p.events s n, p.stateAfter s n⟩ := heq
      refine ⟨m, n, hgoing, ?_⟩
      rw [heq]
      exact ⟨.inl hends, rfl, rfl⟩
  · obtain ⟨r, hr⟩ := p.exists_returns_upTo s a
    refine ⟨r, hr, fun hcut => ?_⟩
    obtain ⟨r', hr'⟩ := p.exists_returns_upTo r.state b
    refine ⟨r', hr', fun whole => ⟨fun hwhole => ?_, ?_⟩⟩
    · exact hwhole.unique (hr.append hcut hr')
    · rintro rfl
      exact hr.append hcut hr'

def countdown : Procedure Nat where
  name := "countdown"
  blockBytes := sectorBytes
  perform
    | 0 => (.complete, 0)
    | n + 1 => (.proceed ⟨n, 1, .ok, 0, false⟩, n)
  progress n := ⟨0, n⟩
  close n := (.ok (), n)
  blocksLeft n := n

theorem countdown_diminishes (n : Nat) : countdown.Diminishes n := by
  intro k report hstep
  have hcall := countdown.perform_stateAfter n k
  rw [hstep] at hcall
  show countdown.stateAfter n (k + 1) < countdown.stateAfter n k
  cases hstate : countdown.stateAfter n k with
  | zero =>
    rw [hstate] at hcall
    exact absurd (congrArg Prod.fst hcall) (by simp [countdown])
  | succ left =>
    rw [hstate] at hcall
    have hleft : left = countdown.stateAfter n (k + 1) := congrArg Prod.snd hcall
    omega

/-- Three sectors in runs of two calls and of five: the second run finds one sector more and then
nothing. -/
theorem loop_reports_calls_of_two_runs :
    let seen := fun n => (⟨⟨n, 1, .ok, 0, false⟩, ⟨0, n⟩⟩ : Event)
    countdown.Returns (.upTo Nat 2) 3 ⟨.outcome .interrupted, [seen 2, seen 1], 1⟩ ∧
      countdown.Returns (.upTo Nat 5) 1 ⟨.outcome .completed, [seen 0], 0⟩ ∧
      countdown.Returns (.upTo Nat (2 + 5)) 3
        ⟨.outcome .completed, [seen 2, seen 1, seen 0], 0⟩ ∧
      countdown.Diminishes 3 ∧
        countdown.Returns (.upTo Nat 1) 3 (countdown.loop (.upTo Nat 1) 3) := by
  intro seen
  have hfirst : countdown.Returns (.upTo Nat 2) 3
      ⟨.outcome .interrupted, [seen 2, seen 1], 1⟩ := ⟨3, rfl, by decide⟩
  have hsecond : countdown.Returns (.upTo Nat 5) 1 ⟨.outcome .completed, [seen 0], 0⟩ :=
    ⟨3, rfl, by decide⟩
  obtain ⟨-, hloop, hlimits⟩ := loop_reports_calls countdown 3
  obtain ⟨r, hr, hresume⟩ := hlimits 2 5
  obtain rfl := hr.unique hfirst
  obtain ⟨r', hr', hwhole⟩ := hresume rfl
  obtain rfl := hr'.unique hsecond
  have hless := countdown_diminishes 3
  exact ⟨hfirst, hsecond, (hwhole _).mpr rfl, hless, hloop hless _⟩

end Procedure

end DriveRescue
