import DriveRescue.Proofs.Copy.Completion
import DriveRescue.Proofs.Surface.Filling
import DriveRescue.Proofs.Surface.Scanning

/-! What procedures do once they are closed. A copy and a read test know that they were: they
complete whenever they are asked for a block, and touch nothing any more. A zero fill does not know:
a close syncs what it has written, and it writes on as if no one had closed it. -/
namespace DriveRescue

inductive Call where
  | perform
  | close
  deriving DecidableEq

namespace Procedure

variable {σ : Type} {p : Procedure σ} {closed : σ → Bool} {closings : σ → Nat}

def afterCall (p : Procedure σ) (s : σ) : Call → σ
  | .perform => (p.perform s).2
  | .close => (p.close s).2

/-- The state that the calls lead to, the first one made first. -/
def afterCalls (p : Procedure σ) (s : σ) (calls : List Call) : σ := calls.foldl p.afterCall s

theorem afterCalls_append (p : Procedure σ) (s : σ) (calls later : List Call) :
    p.afterCalls s (calls ++ later) = p.afterCalls (p.afterCalls s calls) later :=
  List.foldl_append

theorem afterCalls_concat (p : Procedure σ) (s : σ) (calls : List Call) (call : Call) :
    p.afterCalls s (calls ++ [call]) = p.afterCall (p.afterCalls s calls) call :=
  p.afterCalls_append s calls [call]

/-- The state tells whether it was closed, and a closed state is not left. Only the close of an open
one closes the source. -/
structure KnowsClosed (p : Procedure σ) (closed : σ → Bool) (closings : σ → Nat) : Prop where
  perform : ∀ s, closed (p.perform s).2 = closed s ∧ closings (p.perform s).2 = closings s
  close : ∀ s, closed s = false →
    closed (p.close s).2 = true ∧ closings (p.close s).2 = closings s + 1
  performAgain : ∀ s, closed s = true → p.perform s = (.complete, s)
  closeAgain : ∀ s, closed s = true → p.close s = (.ok (), s)

/-- With the calls made the procedure is over: a call for a block completes, and no call leads out
of the state. -/
structure EndedBy (p : Procedure σ) (s : σ) (calls : List Call) : Prop where
  perform : p.perform (p.afterCalls s calls) = (.complete, p.afterCalls s calls)
  close : p.close (p.afterCalls s calls) = (.ok (), p.afterCalls s calls)
  later : ∀ later, p.afterCalls s (calls ++ later) = p.afterCalls s calls

namespace KnowsClosed

theorem afterCalls_of_closed (h : p.KnowsClosed closed closings) {s : σ} (hs : closed s = true)
    (calls : List Call) : p.afterCalls s calls = s := by
  induction calls with
  | nil => rfl
  | cons call later ih =>
    have hsame : p.afterCall s call = s := by
      cases call with
      | perform => exact congrArg Prod.snd (h.performAgain s hs)
      | close => exact congrArg Prod.snd (h.closeAgain s hs)
    show p.afterCalls (p.afterCall s call) later = s
    rw [hsame]
    exact ih

/-- The step lemma: what is still to be closed is closed at most once. -/
theorem afterCall (h : p.KnowsClosed closed closings) (s : σ) (call : Call) :
    closed (p.afterCall s call) = (closed s || decide (call = .close)) ∧
      closings (p.afterCall s call) + (!closed (p.afterCall s call)).toNat =
        closings s + (!closed s).toNat := by
  cases call with
  | perform =>
    obtain ⟨hclosed, hclosings⟩ := h.perform s
    show closed (p.perform s).2 = _ ∧ closings (p.perform s).2 + (!closed (p.perform s).2).toNat = _
    rw [hclosed, hclosings]
    exact ⟨by simp, rfl⟩
  | close =>
    show closed (p.close s).2 = _ ∧ closings (p.close s).2 + (!closed (p.close s).2).toNat = _
    cases hs : closed s with
    | false =>
      obtain ⟨hclosed, hclosings⟩ := h.close s hs
      rw [hclosed, hclosings]
      exact ⟨rfl, rfl⟩
    | true =>
      rw [h.closeAgain s hs, hs]
      exact ⟨rfl, rfl⟩

/-- The run lemma. -/
theorem afterCalls (h : p.KnowsClosed closed closings) (s : σ) (calls : List Call) :
    closed (p.afterCalls s calls) = (closed s || decide (.close ∈ calls)) ∧
      closings (p.afterCalls s calls) + (!closed (p.afterCalls s calls)).toNat =
        closings s + (!closed s).toNat := by
  induction calls using List.reverseRecOn with
  | nil => exact ⟨by simp [Procedure.afterCalls], rfl⟩
  | append_singleton calls call ih =>
    obtain ⟨hclosed, hclosings⟩ := h.afterCall (p.afterCalls s calls) call
    rw [afterCalls_concat]
    constructor
    · rw [hclosed, ih.1]
      simp [Bool.or_assoc, eq_comm]
    · rw [hclosings, ih.2]

theorem endedBy (h : p.KnowsClosed closed closings) (s : σ) {calls : List Call}
    (hclose : .close ∈ calls) :
    p.EndedBy s calls ∧ closings (p.afterCalls s calls) = closings s + (!closed s).toNat := by
  obtain ⟨hclosed, hclosings⟩ := h.afterCalls s calls
  have hleft : closed (p.afterCalls s calls) = true := by
    rw [hclosed]
    simp [hclose]
  constructor
  · refine ⟨h.performAgain _ hleft, h.closeAgain _ hleft, fun later => ?_⟩
    rw [afterCalls_append]
    exact h.afterCalls_of_closed hleft later
  · rw [hleft] at hclosings
    exact hclosings

end KnowsClosed

end Procedure

theorem CopySession.knowsClosed :
    procedure.KnowsClosed (fun s => s.copy.closed) fun s => s.source.calls.closed := by
  constructor
  · intro s
    refine ⟨s.perform_closed, ?_⟩
    show s.perform.2.source.calls.closed = _
    rw [perform_source]
    cases s.nextRead? <;> rfl
  · intro s hopen
    show s.close.2.copy.closed = true ∧ s.close.2.source.calls.closed = _
    rw [close, hopen]
    exact ⟨rfl, rfl⟩
  · intro s hclosed
    exact perform_of_none (by rw [nextRead?, if_pos hclosed])
  · intro s hclosed
    exact if_pos hclosed

theorem Source.verify_closed (s : Source) (lba sectors scratch : Nat) :
    (s.verify lba sectors scratch).2.calls.closed = s.calls.closed := by
  unfold verify
  split <;> rfl

theorem ReadTest.knowsClosed :
    procedure.KnowsClosed (fun t => t.closed) fun t => t.source.calls.closed := by
  constructor
  · intro t
    show t.perform.2.closed = _ ∧ t.perform.2.source.calls.closed = _
    unfold perform
    split
    · exact ⟨rfl, rfl⟩
    · exact ⟨rfl, t.source.verify_closed ..⟩
  · intro t hopen
    show t.close.2.closed = true ∧ t.close.2.source.calls.closed = _
    rw [close, hopen]
    exact ⟨rfl, rfl⟩
  · intro t hclosed
    exact perform_of_closed hclosed
  · intro t hclosed
    exact if_pos hclosed

namespace ZeroFill

/-- A perform neither sees nor changes how often the target was synced. -/
theorem perform_synced (z : ZeroFill) (n : Nat) :
    perform { z with syncs := n } = (z.perform.1, { z.perform.2 with syncs := n }) := by
  rcases Nat.lt_or_ge z.position z.stop with hlt | hle
  · rw [perform_of_lt hlt]
    exact perform_of_lt (z := { z with syncs := n }) hlt
  · rw [perform_of_le hle]
    exact perform_of_le hle

theorem stateAfter_syncing (z : ZeroFill) (k : Nat) :
    (procedure.stateAfter z k).syncing = z.syncing := by
  induction k with
  | zero => rfl
  | succ k ih =>
    rw [Procedure.stateAfter_succ, ← ih]
    show (procedure.stateAfter z k).perform.2.syncing = _
    rcases Nat.lt_or_ge (procedure.stateAfter z k).position (procedure.stateAfter z k).stop with
      hlt | hle
    · rw [perform_of_lt hlt]
    · rw [perform_of_le hle]

/-- A zero fill is where its performs alone lead to. All that its closes leave are the syncs. -/
theorem afterCalls_eq (z : ZeroFill) (calls : List Call) :
    procedure.afterCalls z calls =
      { procedure.stateAfter z (calls.count .perform) with
        syncs := z.syncs + calls.count .close } := by
  induction calls using List.reverseRecOn with
  | nil =>
    show z = { z with syncs := z.syncs + 0 }
    rw [Nat.add_zero]
  | append_singleton calls call ih =>
    rw [Procedure.afterCalls_concat, List.count_append, List.count_append, ih]
    cases call with
    | perform =>
      refine (congrArg Prod.snd (perform_synced _ _)).trans ?_
      rw [List.count_singleton_self, Procedure.stateAfter_succ]
      rfl
    | close => rfl

/-- A zero fill completes once it was asked for all its blocks, closed or not. -/
theorem perform_afterCalls_iff (z : ZeroFill) (calls : List Call) :
    let left := procedure.afterCalls z calls
    procedure.perform left = (.complete, left) ↔
      (z.stop - z.position) ⌈/⌉ 256 ≤ calls.count .perform := by
  intro left
  have hcourse := inOrder z.stop
  have hperform : procedure.perform left = _ :=
    (congrArg perform (z.afterCalls_eq calls)).trans (perform_synced _ _)
  constructor
  · intro hcomplete
    apply (hcourse.stepAt_eq_complete_iff rfl).mp
    exact congrArg Prod.fst (hperform.symm.trans hcomplete)
  · intro henough
    have hdone := hcourse.perform_of_le rfl henough
    have hleft : left = _ := z.afterCalls_eq calls
    refine hperform.trans ?_
    rw [hleft]
    exact congrArg (fun r : Step × ZeroFill =>
      (r.1, { r.2 with syncs := z.syncs + calls.count Call.close })) hdone

theorem close_afterCalls (z : ZeroFill) (calls : List Call) :
    (procedure.close (procedure.afterCalls z calls)).1 =
      match z.syncing (z.syncs + calls.count .close) with
      | some fault => .error (.file fault)
      | none => .ok () := by
  rw [afterCalls_eq, ← z.stateAfter_syncing (calls.count .perform)]
  rfl

end ZeroFill

/-- By calls with a close among them a copy and a read test are over: whatever is called later, they
complete and touch nothing, and their source was closed once, if they were open. A zero fill is
where its calls for blocks alone lead to, but for the number of its syncs. It completes only if
these have been enough for all its blocks, and closing it again goes as the sync does. -/
theorem Procedure.closing_ends_all_but_zero_fill (s : CopySession) (t : ReadTest) (z : ZeroFill)
    {calls : List Call} (hclose : .close ∈ calls) :
    (CopySession.procedure.EndedBy s calls ∧
      (CopySession.procedure.afterCalls s calls).source.calls.closed =
        s.source.calls.closed + (!s.copy.closed).toNat) ∧
    (ReadTest.procedure.EndedBy t calls ∧
      (ReadTest.procedure.afterCalls t calls).source.calls.closed =
        t.source.calls.closed + (!t.closed).toNat) ∧
    let left := ZeroFill.procedure.afterCalls z calls
    left = { ZeroFill.procedure.stateAfter z (calls.count .perform) with
      syncs := z.syncs + calls.count .close } ∧
    (ZeroFill.procedure.perform left = (.complete, left) ↔
      (z.stop - z.position) ⌈/⌉ 256 ≤ calls.count .perform) ∧
    (ZeroFill.procedure.close left).1 =
      match z.syncing (z.syncs + calls.count .close) with
      | some fault => .error (.file fault)
      | none => .ok () := by
  refine ⟨?_, ?_, z.afterCalls_eq calls, z.perform_afterCalls_iff calls, z.close_afterCalls calls⟩
  · exact CopySession.knowsClosed.endedBy s hclose
  · exact ReadTest.knowsClosed.endedBy t hclose

/-- All three over 600 sectors, asked for blocks and closed by turns. The zero fill has a block left
after the second close, and none after one more call; its third sync fails. -/
theorem Procedure.closing_ends_all_but_zero_fill_by_turns :
    let source : Source := ⟨.posix, 600, fun _ _ _ => ⟨.ok, 5, #[]⟩, none, none, ⟨0, 0, 0, 0⟩⟩
    let s := CopySession.fresh source CopySession.emptyImage none CopyOptions.default
    let t : ReadTest := ⟨source, 0, 600, ⟨0, 600⟩, false⟩
    let fault : FileFault := .other "Input/output error (os error 5)"
    let z : ZeroFill := ⟨CopySession.emptyImage, 0, 600, ⟨0, 600⟩,
      fun k => if k = 2 then some fault else none, 0⟩
    let calls : List Call := [.perform, .close, .perform, .close]
    let left := ZeroFill.procedure.afterCalls z calls
    let last := ZeroFill.procedure.afterCalls z (calls ++ [.perform])
    Call.close ∈ calls ∧
      CopySession.procedure.EndedBy s calls ∧
      (CopySession.procedure.afterCalls s calls).source.calls = ⟨1, 0, 1, 1⟩ ∧
      ReadTest.procedure.EndedBy t calls ∧
      (ReadTest.procedure.afterCalls t calls).source.calls = ⟨1, 0, 0, 1⟩ ∧
      ZeroFill.procedure.perform left ≠ (.complete, left) ∧
      ZeroFill.procedure.perform last = (.complete, last) ∧
      (ZeroFill.procedure.close last).1 = .error (.file fault) := by
  intro source s t fault z calls left last
  have hclose : Call.close ∈ calls := by decide
  have hclose' : Call.close ∈ calls ++ [.perform] := by decide
  obtain ⟨⟨hcopy, -⟩, ⟨htest, -⟩, -, hleft, -⟩ := closing_ends_all_but_zero_fill s t z hclose
  obtain ⟨-, -, -, hlast, hsync⟩ := closing_ends_all_but_zero_fill s t z hclose'
  refine ⟨hclose, hcopy, ?_, htest, rfl, ?_, hlast.mpr (by decide), hsync.trans rfl⟩
  · decide +kernel
  · rw [Ne, hleft]
    decide

/-- Closed before its first block, a zero fill of a sector of ones writes to the sector. -/
theorem Procedure.closed_zero_fill_writes :
    let files : FileTree := ⟨[], [(["d"], .file (Array.replicate 512 1))]⟩
    ∃ z, ZeroFill.openPath .ofProcess files "d" = .ok z ∧
      let closed := ZeroFill.procedure.afterCalls z [.close]
      (ZeroFill.procedure.perform closed).1 = .proceed ⟨0, 1, .ok, 0, false⟩ ∧
      closed.target.contents[0]? = some 1 ∧
      (ZeroFill.procedure.perform closed).2.target.contents[0]? = some 0 := by
  have hstat (contents : Bytes) : (⟨[], [(["d"], .file contents)]⟩ : FileTree).stat "d" =
      .ok (["d"], .file contents) := rfl
  have hsize : (Array.replicate 512 (1 : UInt8)).size = 512 := Array.size_replicate
  have hfirst : (Array.replicate 512 (1 : UInt8))[0]? = some 1 := by
    rw [Array.getElem?_replicate, if_pos (by decide)]
  -- What follows depends on nothing else of the contents, which are long to compute with.
  generalize Array.replicate 512 (1 : UInt8) = contents at hsize hfirst ⊢
  intro files
  let answers := (Target.ofNode ["d"] (.file contents) true).accepts
  have hbegun := ZeroFill.hasFilled_zero answers ["d"] contents
  have hlt : 256 * 0 < contents.size / 512 := by
    rw [hsize]
    decide
  have hfilled : ZeroFill.filled answers (contents.size / 512) 0 =
      ZeroFill.blockLength (contents.size / 512) 0 :=
    ZeroFill.filled_of_file (by rw [hsize]; decide) 0
  obtain ⟨-, -, -, hstep⟩ := hbegun.perform_eq hlt
  obtain ⟨-, hbyte⟩ := hbegun.getElem?_perform hlt
  let z : ZeroFill := ⟨.ofNode ["d"] (.file contents) true, 0, contents.size / 512,
    ⟨0, contents.size / 512⟩, fun _ => none, 0⟩
  have hclosed := z.perform_synced 1
  refine ⟨z, ZeroFill.openPath_of_file (hstat contents) .ofProcess (Nat.le_of_eq hsize.symm), ?_,
    hfirst, ?_⟩
  · refine (congrArg Prod.fst hclosed).trans (Eq.trans hstep ?_)
    rw [if_pos hfilled, hsize]
    rfl
  · refine (congrArg (fun r => r.2.target.contents[0]?) hclosed).trans ((hbyte 0).trans ?_)
    rw [hfilled, hsize]
    rfl

end DriveRescue
