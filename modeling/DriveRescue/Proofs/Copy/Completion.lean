import DriveRescue.Proofs.Copy.InWords

/-! Completion is final. A copy completes when its strategy has nothing more to read, and being
asked again changes nothing that the strategy decides by, so that it has nothing more to read for
good. -/
namespace DriveRescue

/-- A strategy that comes to no task is as it was, and so is the table: it is done if no zone is
left, and has given up if there are some. -/
theorem Strategy.next_of_no_task {s : Strategy} {t : ZoneTable}
    (h : ∀ task, (s.next t).1 ≠ .read task) :
    s.next t = (if t.isEmpty then .done else .unresolved, s, t) := by
  have hsame : (s.next t).2 = (s, t) := by
    rcases s.next_cases t with ⟨hsame, -⟩ | ⟨l, z, r, d, hread, -⟩
    · exact hsame
    · exact absurd hread (h _)
  have hfound : (s.next t).1 = if t.isEmpty then .done else .unresolved := by
    cases htask : t.currentTask? with
    | some task =>
      have hread : (s.next t).1 = .read task := by simp only [next, htask]
      exact absurd hread (h task)
    | none =>
      by_cases hempty : t.isEmpty = true
      · simp only [next, htask, hempty, ↓reduceIte]
      · rw [if_neg hempty]
        cases hfound : (s.next t).1 with
        | read task => exact absurd hfound (h task)
        | unresolved => rfl
        | done =>
          simp only [next, htask, hempty] at hfound
          cases hchosen : (s.choose t).2.currentTask? <;> simp [hchosen] at hfound
  exact Prod.ext hfound hsame

namespace CopySession

variable {s s₀ : CopySession}

/-- A perform that completes leaves the session as it was. -/
theorem perform_of_complete (h : s.perform.1 = .complete) : s.perform = (.complete, s) := by
  cases hclosed : s.copy.closed with
  | true =>
    apply perform_of_none
    simp [nextRead?, hclosed]
  | false => exact perform_of_none (nextRead?_of_complete hclosed h)

theorem next_of_complete (hopen : s.copy.closed = false) (h : s.perform.1 = .complete) :
    s.copy.strategy.next s.copy.table =
      (if s.copy.table.isEmpty then .done else .unresolved, s.copy.strategy, s.copy.table) := by
  apply Strategy.next_of_no_task
  intro task hread
  have hnext := (nextRead?_eq_some_iff hopen).mpr hread
  rw [nextRead?_of_complete hopen h] at hnext
  simp at hnext

structure Keeps (s₀ s : CopySession) : Prop where
  strategy : s.copy.strategy = s₀.copy.strategy
  table : s.copy.table = s₀.copy.table
  tally : s.copy.tally = s₀.copy.tally
  progress : s.copy.progress = s₀.copy.progress
  reads : s.source.calls.reads = s₀.source.calls.reads
  target : s.target = s₀.target
  journal : s.journal = s₀.journal

theorem Keeps.close (h : s₀.Keeps s) : s₀.Keeps s.close.2 := by
  unfold CopySession.close
  split
  · exact h
  · exact ⟨h.strategy, h.table, h.tally, h.progress, h.reads, h.target, h.journal⟩

theorem perform_close (s : CopySession) : s.close.2.perform.1 = .complete := by
  have hclosed : s.close.2.copy.closed = true := by
    unfold CopySession.close
    split
    · assumption
    · rfl
  rw [perform_of_none (by simp [nextRead?, hclosed])]

theorem Leads.keeps (h : Leads s₀ s) (hdone : s₀.perform.1 = .complete) :
    s₀.Keeps s ∧ s.perform.1 = .complete := by
  induction h with
  | start => exact ⟨⟨rfl, rfl, rfl, rfl, rfl, rfl, rfl⟩, hdone⟩
  | perform _ ih =>
    rw [perform_of_complete ih.2]
    exact ih
  | close _ ih => exact ⟨ih.1.close, perform_close _⟩

/-- Once a perform has completed, which it does on a closed session, where no zone is left, and
where the strategy gives up on those that are left, every later one completes as well, with calls to
close anywhere between them. None of them reads, writes or records anything, and the zones with
their selection, the state of the strategy, the tally and the progress stay as they were. -/
theorem completion_is_final (h : s.perform.1 = .complete) :
    (s.copy.closed = true ∨ s.copy.strategy.next s.copy.table =
      (if s.copy.table.isEmpty then .done else .unresolved, s.copy.strategy, s.copy.table)) ∧
    s.perform.2 = s ∧ (∀ n, s.after n = s) ∧
    ∀ s', Leads s s' → s'.perform = (.complete, s') ∧ s.Keeps s' := by
  have hsame : s.perform.2 = s := congrArg Prod.snd (perform_of_complete h)
  refine ⟨?_, hsame, fun n => Function.iterate_fixed hsame n, fun s' hs' => ?_⟩
  · cases hclosed : s.copy.closed with
    | true => exact .inl rfl
    | false => exact .inr (next_of_complete hclosed h)
  · obtain ⟨hkeeps, hdone⟩ := hs'.keeps h
    exact ⟨perform_of_complete hdone, hkeeps⟩

/-- The first block fails, and the rest is within a leap of it, so that it is given up unread. -/
theorem completion_is_final_with_zones_left :
    let options : CopyOptions := { CopyOptions.default with strategy := .skipFailForward }
    let s := (fresh (onesSourceBut (fun _ => true) 600) emptyImage none options).after 1
    s.copy.table.zones = [⟨256, 600, true, false⟩] ∧
      s.copy.strategy.next s.copy.table = (.unresolved, s.copy.strategy, s.copy.table) ∧
      s.perform.1 = .complete ∧ s.perform.2.close.2.perform.1 = .complete ∧
      s.Keeps s.perform.2.close.2.perform.2 := by
  intro options s
  let begun := fresh (onesSourceBut (fun _ => true) 600) emptyImage none options
  have hfails := onesSourceBut_failsAt (fun _ => true) 600
  have hturn : begun.copy.strategy.next begun.copy.table = (.read ⟨0, 256, .forward⟩,
      .skipFail false 5000, ⟨[.clean 0 600], some ⟨0, .forward⟩⟩) := by decide +kernel
  obtain ⟨-, hstrategy, htable⟩ := perform_of_turn rfl hfails hturn
  have hzones : s.copy.table = ⟨[⟨256, 600, true, false⟩], none⟩ := htable.trans (by decide +kernel)
  have hgive : (s.copy.strategy.next s.copy.table).1 = .unresolved := by
    show (begun.perform.2.copy.strategy.next s.copy.table).1 = .unresolved
    rw [hstrategy, hzones]
    decide +kernel
  have hopen : s.copy.closed = false := after_closed 1 begun
  have hdone : s.perform.1 = .complete := by
    rcases hn : s.nextRead? with _ | task
    · rw [perform_of_none hn]
    · rw [nextRead?_eq_some_iff hopen, hgive] at hn
      simp at hn
  obtain ⟨hnext, -, -, hlater⟩ := completion_is_final hdone
  have hleft : s.copy.table.isEmpty = false := by rw [hzones]; rfl
  rw [hopen, hleft] at hnext
  obtain ⟨hagain, -⟩ := hlater _ (.close (.perform .start))
  exact ⟨congrArg ZoneTable.zones hzones, hnext.resolve_left (by simp), hdone,
    congrArg Prod.fst hagain, (hlater _ (.perform (.close (.perform .start)))).2⟩

end CopySession

end DriveRescue
