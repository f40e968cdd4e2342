import DriveRescue.Proofs.Copy.Agreement

/-! The lifetime of a journal, over as many sessions as are opened on it. However each of them
chooses its tasks and wherever it is left, no sector is read twice. -/
namespace DriveRescue

/-- A read fills a buffer of the length asked for, so that a good one brings just as many bytes. -/
def Source.Fills (s : Source) : Prop :=
  ∀ k lba count, (s.reading k lba count).status.isFailure = false →
    (s.reading k lba count).data.size = count

namespace Bytes

/-- No byte of `before` but a zero is another one in `after`. -/
def Keeps (before after : Bytes) : Prop :=
  ∀ (x : Nat) (v : UInt8), v ≠ 0 → before[x]? = some v → after[x]? = some v

theorem keeps_refl (b : Bytes) : b.Keeps b := fun _ _ _ h => h

theorem Keeps.trans {first second third : Bytes} (h : first.Keeps second)
    (hnext : second.Keeps third) : first.Keeps third :=
  fun x v hv hx => hnext x v hv (h x v hv hx)

end Bytes

namespace CopySession

/-- The session is opened over a journal of the given bytes, which were there before unless all of
them are zero. The journal lies in no file with the image. -/
inductive OpensOver (bytes : Bytes) (options : CopyOptions) (s : CopySession) : Prop
  | intro {memory : Memory} {source : Source} {target : Target} {j : Journal} : source.Fills →
      j.bytes = bytes → (j.restored = false → bytes = Bytes.zeros bytes.size) →
      sharesFile target j = false → ofParts memory source target (some j) options = .ok s →
      OpensOver bytes options s

/-- Lifetimes of a journal that begins with the bytes `initial`: the reads that were made and the
bytes that the journal held, in their order, and the session now open with its options. -/
inductive Lifetime (initial : Bytes) : List Task → List Bytes → CopyOptions → CopySession → Prop
  | opened {options s} : OpensOver initial options s → Lifetime initial [] [initial] options s
  | performed {reads held options s j} : Lifetime initial reads held options s →
      s.perform.2.journal = some j →
      Lifetime initial (reads ++ s.nextRead?.toList) (held ++ [j.bytes]) options s.perform.2
  | reopened {reads held options s j options' s'} : Lifetime initial reads held options s →
      s.journal = some j → OpensOver j.bytes options' s' → Lifetime initial reads held options' s'

variable {s : CopySession} {j : Journal} {task : Task} {options : CopyOptions} {initial : Bytes}

/-- What one perform may touch: the sectors of its task, and no others. -/
theorem Agrees.perform_frame (h : s.Agrees j) (hfills : s.source.Fills) {x : Nat}
    (hx : ∀ task, s.nextRead? = some task → ¬ task.Spans x) :
    s.perform.2.journal.map (·.bytes[x]?) = s.journal.map (·.bytes[x]?) ∧
      ∀ i < sectorBytes, s.perform.2.target.contents.getD (x * sectorBytes + i) 0 =
        s.target.contents.getD (x * sectorBytes + i) 0 := by
  rcases hn : s.nextRead? with _ | task
  · rw [perform_of_none hn]
    exact ⟨rfl, fun i _ => rfl⟩
  · have hout := hx task hn
    refine ⟨?_, fun i hi => ?_⟩
    · rw [(h.perform_noted hn).journal, h.journal, Option.map_some, Option.map_some, noted,
        Journal.getElem?_record, if_neg fun hin => hout ⟨hin.1, hin.2.1⟩]
    · obtain ⟨hopen, copy, hnext⟩ := exists_next_of_nextRead? hn
      rw [perform_of_some hopen hnext, enter_target]
      exact getD_store hi hout fun hf => hfills _ _ _ hf

theorem perform_capacity (s : CopySession) : s.perform.2.source.capacity = s.source.capacity := by
  rw [perform_source]
  cases s.nextRead? <;> rfl

theorem perform_fills (h : s.source.Fills) : s.perform.2.source.Fills := by
  rw [perform_source]
  cases s.nextRead? <;> exact h

theorem keeps_noted (h : s.Agrees j) (hn : s.nextRead? = some task) :
    j.bytes.Keeps (s.noted task j).bytes := by
  intro x v hv hx
  obtain ⟨-, copy, hnext⟩ := exists_next_of_nextRead? hn
  rw [noted, Journal.getElem?_record, if_neg, hx]
  intro hin
  have := ((h.awaits hnext).unread (x := x) ⟨hin.1, hin.2.1⟩).2
  simp_all

structure Accounts (initial : Bytes) (reads : List Task) (held : List Bytes)
    (options : CopyOptions) (s : CopySession) (j : Journal) : Prop where
  agrees : s.Agrees j
  fills : s.source.Fills
  start : s.copy.start = options.startLba
  stop : s.copy.stop = s.source.capacity
  unread : ∀ x : Nat, j.bytes[x]? = some 0 →
    initial[x]? = some 0 ∧ ∀ task ∈ reads, ¬ task.Spans x
  kept : ∀ b ∈ held, b.Keeps j.bytes

theorem OpensOver.accounts {bytes : Bytes} {reads : List Task} {held : List Bytes}
    (h : OpensOver bytes options s)
    (hunread : ∀ x : Nat, bytes[x]? = some 0 →
      initial[x]? = some 0 ∧ ∀ task ∈ reads, ¬ task.Spans x)
    (hkept : ∀ b ∈ held, b.Keeps bytes) : ∃ j, Accounts initial reads held options s j := by
  obtain @⟨memory, source, target, j, hfills, rfl, hfresh, hsep, hopen⟩ := h
  obtain ⟨-, -, hsource⟩ := ofParts_parts hopen
  obtain ⟨-, -, hstart, hstop, -⟩ := ofParts_eq_ok hopen
  exact ⟨j, agrees_ofParts hopen hfresh hsep, by rw [hsource]; exact hfills, hstart,
    by rw [hstop, hsource]; rfl, hunread, hkept⟩

theorem Accounts.perform {reads : List Task} {held : List Bytes}
    (h : Accounts initial reads held options s j) :
    ∃ k, Accounts initial (reads ++ s.nextRead?.toList) (held ++ [k.bytes]) options
      s.perform.2 k := by
  have hstart := (perform_range s).1.trans h.start
  have hstop := (perform_range s).2.trans (h.stop.trans s.perform_capacity.symm)
  have hfills := perform_fills h.fills
  rcases hn : s.nextRead? with _ | task
  · refine ⟨j, by rw [perform_of_none hn]; exact h.agrees, hfills, hstart, hstop, ?_, ?_⟩
    · simpa using h.unread
    · simpa [or_imp, forall_and, Bytes.keeps_refl] using h.kept
  · have hkeeps := keeps_noted h.agrees hn
    refine ⟨_, h.agrees.perform_noted hn, hfills, hstart, hstop, fun x hx => ?_, fun b hb => ?_⟩
    · obtain ⟨hzero, hnew⟩ := Journal.getElem?_record_eq_zero_iff.mp hx
      obtain ⟨hinitial, hreads⟩ := h.unread x hzero
      refine ⟨hinitial, fun t ht => ?_⟩
      rcases List.mem_append.mp ht with ht | ht
      · exact hreads t ht
      · obtain rfl : t = task := by simpa using ht
        exact hnew
    · rcases List.mem_append.mp hb with hb | hb
      · exact (h.kept b hb).trans hkeeps
      · rw [List.mem_singleton.mp hb]
        exact Bytes.keeps_refl _

variable {reads : List Task} {held : List Bytes}

theorem Lifetime.accounts (h : Lifetime initial reads held options s) :
    ∃ j, Accounts initial reads held options s j := by
  induction h with
  | opened hopen => exact hopen.accounts (by simp) (by simp [Bytes.keeps_refl])
  | performed _ hj ih =>
    obtain ⟨j, hj'⟩ := ih
    obtain ⟨k, hk⟩ := hj'.perform
    obtain rfl := Option.some.inj (hj.symm.trans hk.agrees.journal)
    exact ⟨_, hk⟩
  | reopened _ hj hopen ih =>
    obtain ⟨k, hk⟩ := ih
    obtain rfl := Option.some.inj (hj.symm.trans hk.agrees.journal)
    exact hopen.accounts hk.unread hk.kept

/-- What is read next was unread at first and has not been read since. -/
theorem Accounts.nextRead (h : Accounts initial reads held options s j)
    (hn : s.nextRead? = some task) {x : Nat} (hx : task.Spans x) :
    (options.startLba ≤ x ∧ x < s.source.capacity) ∧ initial[x]? = some 0 ∧
      ∀ t ∈ reads, ¬ t.Spans x := by
  obtain ⟨-, copy, hnext⟩ := exists_next_of_nextRead? hn
  have hawaits := h.agrees.awaits hnext
  obtain ⟨strategy, table, -, rfl⟩ := Copy.next_some hnext
  have hunread := hawaits.unread hx
  refine ⟨⟨h.start ▸ hunread.1, h.stop ▸ hawaits.lt_stop hx⟩, h.unread x hunread.2⟩

theorem Lifetime.reads_pairwise_disjoint (h : Lifetime initial reads held options s) :
    reads.Pairwise Task.Disjoint := by
  induction h with
  | opened => exact .nil
  | reopened _ _ _ ih => exact ih
  | @performed reads held options s j hlife hj ih =>
    obtain ⟨k, hk⟩ := hlife.accounts
    refine List.pairwise_append.mpr ⟨ih, ?_, fun a ha b hb x hax hbx => ?_⟩
    · cases s.nextRead? <;> simp
    · exact (hk.nextRead (Option.mem_toList.mp hb) hbx).2.2 a ha hax

theorem Lifetime.initial_of_spans (h : Lifetime initial reads held options s) :
    ∀ task ∈ reads, ∀ x, task.Spans x → initial[x]? = some 0 := by
  induction h with
  | opened => simp
  | reopened _ _ _ ih => exact ih
  | @performed reads held options s j hlife hj ih =>
    obtain ⟨k, hk⟩ := hlife.accounts
    intro task htask x hx
    rcases List.mem_append.mp htask with htask | htask
    · exact ih task htask x hx
    · exact (hk.nextRead (Option.mem_toList.mp htask) hx).2.1

theorem Lifetime.held_pairwise_keeps (h : Lifetime initial reads held options s) :
    held.Pairwise Bytes.Keeps := by
  induction h with
  | opened => exact List.pairwise_singleton ..
  | reopened _ _ _ ih => exact ih
  | performed hlife hj ih =>
    obtain ⟨k, hk⟩ := (hlife.performed hj).accounts
    obtain rfl := Option.some.inj (hj.symm.trans hk.agrees.journal)
    refine List.pairwise_append.mpr ⟨ih, List.pairwise_singleton .., fun b hb c hc => ?_⟩
    obtain rfl := List.mem_singleton.mp hc
    exact hk.kept b (List.mem_append_left _ hb)

/-- Over a whole lifetime no two reads have a sector in common, every sector read was unread at
first, and a byte of the journal that is not zero stays. Whatever the next perform brings, it reads,
notes and writes nothing outside the session's range. -/
theorem reads_once (h : Lifetime initial reads held options s) :
    reads.Pairwise Task.Disjoint ∧
    (∀ task ∈ reads, ∀ x, task.Spans x → initial[x]? = some 0) ∧
    held.Pairwise Bytes.Keeps ∧
    (∀ task, s.nextRead? = some task → ∀ x, task.Spans x →
      options.startLba ≤ x ∧ x < s.source.capacity) ∧
    ∀ x, ¬ (options.startLba ≤ x ∧ x < s.source.capacity) →
      s.perform.2.journal.map (·.bytes[x]?) = s.journal.map (·.bytes[x]?) ∧
      ∀ i < sectorBytes, s.perform.2.target.contents.getD (x * sectorBytes + i) 0 =
        s.target.contents.getD (x * sectorBytes + i) 0 := by
  obtain ⟨j, hj⟩ := h.accounts
  refine ⟨h.reads_pairwise_disjoint, h.initial_of_spans, h.held_pairwise_keeps,
    fun task hn x hx => (hj.nextRead hn hx).1, fun x hx => ?_⟩
  exact hj.agrees.perform_frame hj.fills fun task hn hspans => hx (hj.nextRead hn hspans).1

/-- A session is left after a failed read, and the next one begins further up with another strategy.
-/
theorem reads_once_reopened :
    let source : Source := ⟨.posix, 4, fun _ _ _ => ⟨.uncorrectable, 0, #[]⟩, none, none,
      ⟨0, 0, 0, 0⟩⟩
    let options : CopyOptions := { CopyOptions.default with strategy := .plain, startLba := 3 }
    let reads : List Task := [⟨0, 1, .forward⟩, ⟨3, 1, .forward⟩]
    let held : List Bytes := [#[0, 2, 0, 0], #[3, 2, 0, 0], #[3, 2, 0, 3]]
    ∃ s, s.source.capacity = source.capacity ∧ Lifetime #[0, 2, 0, 0] reads held options s ∧
      reads.Pairwise Task.Disjoint ∧ held.Pairwise Bytes.Keeps := by
  intro source options reads held
  let target : Target := ⟨#[], none, fun _ _ count => some count, 0⟩
  have hfills : source.Fills := fun _ _ _ h => absurd (show true = false from h) (by decide)
  have hopened : Lifetime #[0, 2, 0, 0] [] [#[0, 2, 0, 0]] .default _ :=
    .opened (@OpensOver.intro _ _ _ .ofProcess source target ⟨#[0, 2, 0, 0], none, true⟩ hfills rfl
      (by simp) rfl rfl)
  have hleft : Lifetime #[0, 2, 0, 0] [⟨0, 1, .forward⟩] [#[0, 2, 0, 0], #[3, 2, 0, 0]] _ _ :=
    @Lifetime.performed _ _ _ _ _ ⟨#[3, 2, 0, 0], none, true⟩ hopened rfl
  have hreopened :
      Lifetime #[0, 2, 0, 0] [⟨0, 1, .forward⟩] [#[0, 2, 0, 0], #[3, 2, 0, 0]] options _ :=
    hleft.reopened rfl (@OpensOver.intro _ _ _ .ofProcess source target
      ⟨#[3, 2, 0, 0], none, true⟩ hfills rfl (by simp) rfl rfl)
  have h : Lifetime #[0, 2, 0, 0] reads held options _ :=
    @Lifetime.performed _ _ _ _ _ ⟨#[3, 2, 0, 3], none, true⟩ hreopened rfl
  exact ⟨_, rfl, h, (reads_once h).1, (reads_once h).2.2.1⟩

/-- In a file that is the image too, the first block goes over what was known of another sector. -/
theorem held_changes_in_shared_file :
    ∃ s k, ofParts .ofProcess (onesSource 3) (sharedTarget #[0, 2, 0])
        (some (sharedJournal #[0, 2, 0] true)) .default = .ok s ∧
      (sharedJournal #[0, 2, 0] true).bytes[1]? = some 2 ∧ s.perform.2.journal = some k ∧
      k.bytes[1]? = some 1 := by
  obtain ⟨s, hopen, -, k, hk, hbytes⟩ := sharedJournal_perform
  exact ⟨s, k, hopen, rfl, hk, hbytes 1 (by decide)⟩

end CopySession

end DriveRescue
