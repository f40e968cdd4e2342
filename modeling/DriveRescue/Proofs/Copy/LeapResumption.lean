import DriveRescue.Proofs.Copy.Resumption

/-! Copies that read gaps downwards after a leap. When the first read after a leap fails, the zone
above the cut begins beside a failed sector. The live table knows its start as clean and reads on
there, the journal has it as defective. A copy that is left right then need not go on as it would
have; left at any other time it does. -/
namespace DriveRescue

namespace Strategy

variable {s' : Strategy} {t t' : ZoneTable} {task : Task} {skipBlocks : Nat}

/-- A table is cut only by a leap, and then the lower part is read downwards. -/
theorem next_skipFail_cases (hn : (skipFail true skipBlocks).next t = (.read task, s', t')) :
    s' = skipFail true skipBlocks ∧ (t'.zones = t.zones ∨
      ∃ l z r, t.zones = l ++ z :: r ∧ (∀ w ∈ l, w.Stuck true false (skipSectors skipBlocks)) ∧
        z.startDefective = true ∧
        t' = ⟨l ++ z.leading (z.landing (skipSectors skipBlocks)) ::
          z.trailing (z.landing (skipSectors skipBlocks)) :: r, some ⟨l.length, .backward⟩⟩) := by
  rcases (next_eq_read hn).2 with ⟨-, hs, ht⟩ | ⟨-, -, hchoose⟩
  · exact ⟨hs, .inl (by rw [ht])⟩
  · rcases choose_skipFail_cases true skipBlocks t with ⟨u, hleapt, h⟩ | ⟨-, h⟩ | ⟨-, -, h⟩
    · obtain ⟨rfl, rfl⟩ := Prod.mk.inj (h.symm.trans hchoose)
      refine ⟨rfl, ?_⟩
      cases hleapt with
      | upwards l z r hz hl hclean hu => exact .inl (by rw [hu]; rfl)
      | downwards l z r hz hl _ _ _ _ hu => exact .inl (by rw [hu]; rfl)
      | leap l z r hz hl hstart _ _ hu => exact .inr ⟨l, z, r, hz, hl, hstart, hu⟩
    · obtain ⟨rfl, rfl⟩ := Prod.mk.inj (h.symm.trans hchoose)
      exact ⟨rfl, .inl rfl⟩
    · obtain ⟨rfl, rfl⟩ := Prod.mk.inj (h.symm.trans hchoose)
      exact ⟨rfl, .inl rfl⟩

end Strategy

namespace Journal

/-- The journal knows of a failure beyond the start of the zone that a leap has cut off, and that
the strategy comes to next. The zones below it are passed over, and all others are marked as the
journal has them. -/
structure Pends (j : Journal) (skip : Nat) (t : ZoneTable) (l : List Zone) (z : Zone)
    (r : List Zone) : Prop where
  released : t.cursor = none
  zones : t.zones = l ++ z :: r
  below : ∀ w ∈ l, w.Stuck true t.isFull skip
  clean : z.startDefective = false
  known : ∀ w ∈ l ++ r, j.Knows .forward w

variable {j : Journal} {start : Nat} {s' : Strategy} {t t' : ZoneTable} {task : Task}
  {skipBlocks : Nat} {l r : List Zone} {z : Zone}

/-- The failed read after a leap leaves the zone above the cut to be read next. -/
theorem pends_of_cut {cut : Nat} (hm : j.Mirrors start t)
    (hn : (Strategy.skipFail true skipBlocks).next t = (.read task, s', t'))
    (ht' : t' = ⟨l ++ z.leading cut :: z.trailing cut :: r, some ⟨l.length, .backward⟩⟩)
    (hstarts : ∀ w ∈ t.zones, j.Knows .forward w)
    (hl : ∀ w ∈ l, w.Stuck true false (Strategy.skipSectors skipBlocks))
    (hz : z.startDefective = true)
    (hshort : (z.leading cut).len ≤ Strategy.skipSectors skipBlocks) :
    task.direction = .backward ∧ task.lba + task.sectors = cut ∧
      ∃ l', (j.record task.lba task.sectors true).Pends (Strategy.skipSectors skipBlocks)
        ((Strategy.skipFail true skipBlocks).settle t' task true).2 l' (z.trailing cut) r := by
  have hr₀ : t'.Reading l (z.leading cut) (z.trailing cut :: r) .backward := by
    rw [ht']
    exact ⟨rfl, rfl⟩
  obtain ⟨l₁, low, r₁, d₁, rfl, hr, hp⟩ := Strategy.next_poised hn hm.apart
  obtain ⟨rfl, rfl, rfl, rfl⟩ := hr₀.unique hr
  have hlt : z.start < cut := hp.nonempty
  obtain ⟨-, habove, hbetween⟩ := Zone.spaced_append.mp hp.others
  obtain ⟨hhigh, hgap, -⟩ := Zone.spaced_cons.mp habove
  have hknown (w : Zone) (hplace : w.start ≤ z.start ∨ cut < w.start)
      (hw : w ∈ (t'.consume ((z.leading cut).task .backward) true).zones) :
      (j.record ((z.leading cut).task .backward).lba ((z.leading cut).task .backward).sectors
        true).Knows .forward w := by
    rw [← Strategy.settle_zones s'] at hw
    rcases hm.knows_turn hn hstarts true w hw with hknows | ⟨-, -, -, x, hx, hspans⟩
    · exact hknows
    · have hin : z.start ≤ x ∧ x < cut := Zone.contains_of_task_spans hlt hspans
      simp only [Zone.beyond?] at hx
      split at hx
      · simp at hx
      · obtain rfl := Option.some.inj hx
        omega
  -- All other zones begin below the read or beyond it, so that their marks are kept.
  have hlow : ∀ w ∈ l₁, w.start ≤ z.start := by
    intro w hw
    have hbelow := hp.below w hw
    have hwpos := hp.others.1 w (by simp [hw])
    simp only [Zone.leading] at hbelow
    omega
  have hup : ∀ w ∈ r, cut < w.start := by
    intro w hw
    have hfar := hgap w hw
    simp only [Zone.trailing] at hfar hhigh
    omega
  refine ⟨rfl, ((z.leading cut).task_isEndOf .backward hlt).2, ?_⟩
  rw [hr.consume hlt] at hknown
  simp only [Strategy.settle, Strategy.leavesOnFailure, Bool.and_self, ↓reduceIte, hr.consume hlt]
  -- What is left of the lower part, if anything, has failures on both sides and is too short for
  -- another leap.
  by_cases hempty : ((z.leading cut).after .backward true).isEmpty = true
  · rw [if_pos hempty] at hknown ⊢
    refine ⟨l₁, rfl, rfl, fun w hw => (hl w hw).of_room _, rfl, fun w hw => ?_⟩
    rcases List.mem_append.mp hw with hw | hw
    · exact hknown w (.inl (hlow w hw)) (by simp [hw])
    · exact hknown w (.inr (hup w hw)) (by simp [hw])
  · rw [if_neg hempty] at hknown ⊢
    refine ⟨l₁ ++ [(z.leading cut).after .backward true], rfl, by simp [ZoneTable.release],
      fun w hw => ?_, rfl, fun w hw => ?_⟩
    · rcases List.mem_append.mp hw with hw | hw
      · exact (hl w hw).of_room _
      · obtain rfl := List.mem_singleton.mp hw
        have hlen := Zone.after_len hp.nonempty .backward true
        exact ⟨hz, fun _ => rfl, .inr (.inl (by omega))⟩
    · simp only [List.append_assoc, List.mem_append, List.mem_singleton] at hw
      rcases hw with hw | rfl | hw
      · exact hknown w (.inl (hlow w hw)) (by simp [hw])
      · exact hknown _ (.inl (Nat.le_refl _)) (by simp)
      · exact hknown w (.inr (hup w hw)) (by simp [hw])

theorem Pends.next_eq (h : j.Pends (Strategy.skipSectors skipBlocks) t l z r) :
    (Strategy.skipFail true skipBlocks).next t =
      (.read (z.task .forward), .skipFail true skipBlocks, t.select l.length .forward) := by
  have hr : (t.select l.length .forward).Reading l z r .forward := ⟨h.zones, rfl⟩
  rw [Strategy.next_of_currentTask? _ (by simp [h.zones])
      (ZoneTable.currentTask?_of_cursor h.released),
    Strategy.choose_skipFail_upwards h.zones h.below h.clean, hr.currentTask?, Option.elim_some]

/-- The read that the zone above the cut is waiting for marks its start anew. -/
theorem Pends.turn (h : j.Pends (Strategy.skipSectors skipBlocks) t l z r)
    (hm : j.Mirrors start t) (hstops : ∀ w ∈ t.zones, j.Knows .backward w)
    (hn : (Strategy.skipFail true skipBlocks).next t = (.read task, s', t')) (failed : Bool) :
    (j.record task.lba task.sectors failed).Marks (s'.settle t' task failed).2 true := by
  obtain ⟨htask, -, rfl⟩ : Next.read (z.task .forward) = .read task ∧
      Strategy.skipFail true skipBlocks = s' ∧ t.select l.length .forward = t' := by
    simpa [h.next_eq] using hn
  refine ⟨fun w hw => ?_, fun _ => hm.knows_turn_of_uncut hn rfl hstops failed⟩
  obtain rfl := Next.read.inj htask
  have hr₀ : (t.select l.length .forward).Reading l z r .forward := ⟨h.zones, rfl⟩
  obtain ⟨l₁, z₁, r₁, d₁, -, hr, hp⟩ := Strategy.next_poised hn hm.apart
  obtain ⟨rfl, rfl, rfl, rfl⟩ := hr₀.unique hr
  have hunread : ∀ x, z₁.start ≤ x ∧ x < z₁.stop → j.bytes[x]? = some 0 := by
    intro x hx
    exact ((hm.covered x).mp ⟨z₁, by simp [h.zones], hx⟩).2
  rw [Strategy.settle_zones] at hw
  rcases knows_of_mem_consume hr hp hunread h.known (fun hne => absurd rfl hne) failed w hw with
    hknows | ⟨-, hne, -⟩
  · exact hknows
  · exact absurd rfl hne

/-- A turn keeps the marks up to date, or it is a failed read right after a leap. -/
theorem Marks.turn_of_skipFail (h : j.Marks t true) (hm : j.Mirrors start t)
    (hn : (Strategy.skipFail true skipBlocks).next t = (.read task, s', t')) (failed : Bool) :
    (j.record task.lba task.sectors failed).Marks (s'.settle t' task failed).2 true ∨
      (failed = true ∧ task.direction = .backward ∧
        (∀ w ∈ (s'.settle t' task failed).2.zones,
          (j.record task.lba task.sectors failed).Knows .backward w) ∧
        ∃ l z r, (j.record task.lba task.sectors failed).Pends (Strategy.skipSectors skipBlocks)
          (s'.settle t' task failed).2 l z r ∧ z.start = task.lba + task.sectors) := by
  obtain ⟨rfl, huncut | ⟨l, z, r, -, hl, hz, ht'⟩⟩ := Strategy.next_skipFail_cases hn
  · exact .inl (h.turn_of_uncut hm hn huncut failed)
  · have hshort := Zone.leading_landing_len_le (Strategy.skipSectors skipBlocks) z
    have hturn := hm.knows_turn hn h.starts failed
    cases failed with
    | false =>
      have hstops := hm.knows_turn hn (h.stops rfl) false
      refine .inl ⟨fun w hw => ?_, fun _ w hw => ?_⟩
      · exact (hturn w hw).resolve_right (by simp)
      · exact (hstops w hw).resolve_right (by simp)
    | true =>
      obtain ⟨hdown, hlast, l', hpends⟩ := pends_of_cut hm hn ht' h.starts hl hz hshort
      refine .inr ⟨rfl, hdown, fun w hw => ?_, l', _, r, hpends, hlast.symm⟩
      exact (hm.knows_turn hn (h.stops rfl) true w hw).resolve_right (by simp [hdown])

end Journal

namespace CopySession

variable {s : CopySession} {j : Journal} {bad : Nat → Nat → Bool} {skipBlocks : Nat}

/-- The last of `n` performs was a failed read downwards from where another zone begins. -/
def CutOff (bad : Nat → Nat → Bool) (s : CopySession) (n : Nat) : Prop :=
  ∃ m task, n = m + 1 ∧ (s.after m).nextRead? = some task ∧ task.direction = .backward ∧
    bad task.lba task.sectors = true ∧
    ∃ w ∈ (s.after n).copy.table.zones, w.start = task.lba + task.sectors

theorem Recoverable.after_of_skipFail (h : s.Recoverable bad j)
    (hs : s.copy.strategy = .skipFail true skipBlocks) (n : Nat) :
    ∃ k, (s.after n).Rests bad k ∧ (k.Marks (s.after n).copy.table true ∨
      (s.CutOff bad n ∧ (∀ w ∈ (s.after n).copy.table.zones, k.Knows .backward w) ∧
        ∃ l z r, k.Pends (Strategy.skipSectors skipBlocks) (s.after n).copy.table l z r)) := by
  -- A failed read right after a leap puts one mark out of date, and the next read puts it right.
  induction n with
  | zero =>
    refine ⟨j, h.rests, .inl ?_⟩
    have hmarks := h.marks
    rwa [hs, Strategy.readsDown_skipFail] at hmarks
  | succ n ih =>
    obtain ⟨k, hrests, hmarks⟩ := ih
    have hstrategy : (s.after n).copy.strategy = .skipFail true skipBlocks := by
      have hrestart := after_restart n s
      rw [hs] at hrestart
      exact Strategy.eq_skipFail_of_restart hrestart
    have hroom : (s.after n).HasRoom := by
      intro reverse hsmart
      simp [hstrategy, Strategy.restart] at hsmart
    rcases hn : (s.after n).nextRead? with _ | task
    · rcases hmarks with hmarks | ⟨-, -, l, z, r, hpends⟩
      · rw [after_succ', perform_of_none hn]
        exact ⟨k, hrests, .inl hmarks⟩
      · have hread : (s.after n).nextRead? = some (z.task .forward) := by
          rw [nextRead?_eq_some_iff hrests.opened, hstrategy, hpends.next_eq]
        simp [hread] at hn
    · have hmirrors := hrests.agrees.mirrors
      obtain ⟨strategy, table, hturn, -, htable⟩ := exists_turn hrests.failsAt hn
      rw [hstrategy] at hturn
      refine ⟨_, after_succ' n s ▸ hrests.perform hroom hn, ?_⟩
      rw [after_succ', htable]
      rcases hmarks with hmarks | ⟨-, hstops, l, z, r, hpends⟩
      · rcases hmarks.turn_of_skipFail hmirrors hturn (bad task.lba task.sectors) with
          hmarks | ⟨hbad, hdown, hstops, l, z, r, hpends, hlast⟩
        · exact .inl hmarks
        · refine .inr ⟨⟨n, task, rfl, hn, hdown, hbad, z, ?_, hlast⟩, hstops, l, z, r, hpends⟩
          rw [after_succ', htable, hpends.zones]
          simp
      · exact .inl (hpends.turn hmirrors hstops hturn _)

variable {memory : Memory} {source : Source} {target : Target} {file : Option JournalFile}
  {options : CopyOptions}

/-- A copy that reads downwards after its leaps is left after any number of performs, the last of
which was not a failed read that came down from a cut, and opened again over the journal that it
left, with memory for its buffer. The new session goes on as the old one would have. -/
theorem resumed_retraces_leaps
    (hopen : ofParts memory source target (some ⟨Bytes.zeros source.capacity, file, false⟩)
      options = .ok s)
    (hfails : source.FailsAt bad)
    (hsep : sharesFile target ⟨Bytes.zeros source.capacity, file, false⟩ = false)
    (hkind : options.strategy = .skipFail) (n : Nat) (hcut : ¬ s.CutOff bad n)
    {memory' : Memory} {source' : Source} {target' : Target} {file' : Option JournalFile}
    (hmemory' : memory'.givesBlock = true) (hcapacity : source'.capacity = source.capacity)
    (hfails' : source'.FailsAt bad)
    (hsep' : ∀ bytes, sharesFile target' ⟨bytes, file', true⟩ = false) :
    ∃ k s', (s.after n).close.2.journal = some k ∧
      ofParts memory' source' target' (some ⟨k.bytes, file', true⟩) options = .ok s' ∧
      s'.TakesUp s n := by
  have hfresh := recoverable_ofParts hopen hfails hsep
  obtain ⟨hstrategy, -⟩ := ofParts_strategy hopen
  have hs : s.copy.strategy = .skipFail true (max options.skipBlocks 1) := by
    rw [hstrategy, hkind]
    rfl
  have hdown : (s.after n).copy.strategy.readsDown = true := by
    rw [after_readsDown, hs, Strategy.readsDown_skipFail]
  have hroom (m : Nat) : (s.after m).HasRoom := by
    intro reverse hsmart
    rw [after_restart, hs] at hsmart
    simp [Strategy.restart] at hsmart
  obtain ⟨k, hrests, hmarks | ⟨hcutOff, -⟩⟩ := hfresh.after_of_skipFail hs n
  · have hk : (s.after n).Recoverable bad k := ⟨hrests, hdown.symm ▸ hmarks⟩
    exact hk.exists_takesUp hopen hroom hmemory' hcapacity hfails' hsep'
  · exact absurd hcutOff hcut

def leapOptions : CopyOptions :=
  { CopyOptions.default with strategy := .skipFail, skipBlocks := 1 }

def leapSource : Source := onesSourceBut (· < 512) 600

theorem leapSource_failsAt : leapSource.FailsAt (fun lba _ => decide (lba < 512)) :=
  onesSourceBut_failsAt (· < 512) 600

def leapSession : CopySession := fresh leapSource emptyImage none leapOptions

theorem ofParts_leapSession : ofParts .ofProcess leapSource emptyImage
    (some ⟨Bytes.zeros leapSource.capacity, none, false⟩) leapOptions = .ok leapSession :=
  ofParts_fresh emptyImage none Memory.givesBlock_ofProcess (by decide)

/-- Left after the failure of the first block, a copy leaps over the second one and reads it
downwards. -/
theorem resumed_retraces_leaps_over_block :
    ∃ s k s', ofParts .ofProcess leapSource emptyImage
        (some ⟨Bytes.zeros leapSource.capacity, none, false⟩) leapOptions = .ok s ∧
      leapSource.FailsAt (fun lba _ => decide (lba < 512)) ∧
      ¬ s.CutOff (fun lba _ => decide (lba < 512)) 1 ∧
      (s.after 1).close.2.journal = some k ∧
      ofParts .ofProcess leapSource emptyImage (some ⟨k.bytes, none, true⟩) leapOptions = .ok s' ∧
      s'.TakesUp s 1 ∧ s'.nextRead? = some ⟨256, 256, .backward⟩ := by
  have hcut : ¬ leapSession.CutOff (fun lba _ => decide (lba < 512)) 1 := by
    rintro ⟨m, task, hm, htask, hdown, -⟩
    obtain rfl : m = 0 := by omega
    have hfirst : (leapSession.after 0).nextRead? = some ⟨0, 256, .forward⟩ := by decide +kernel
    obtain rfl := Option.some.inj (hfirst.symm.trans htask)
    simp at hdown
  obtain ⟨k, s', hk, hs', htakes⟩ := @resumed_retraces_leaps leapSession _ .ofProcess leapSource
    emptyImage none leapOptions ofParts_leapSession leapSource_failsAt rfl rfl 1 hcut .ofProcess
    leapSource emptyImage none Memory.givesBlock_ofProcess rfl leapSource_failsAt fun _ => rfl
  have hnext : s'.nextRead? = some ⟨256, 256, .backward⟩ :=
    (htakes.reads 0).trans (by decide +kernel)
  exact ⟨leapSession, k, s', ofParts_leapSession, leapSource_failsAt, hcut, hk, hs', htakes, hnext⟩

/-- Both blocks have failed, and what lies above them is unread. -/
theorem leapSession_agrees : ∃ k : Journal, (leapSession.after 2).Agrees k ∧
    k.sectors = leapSource.capacity ∧ k.failedAt 511 = true ∧ k.bytes[512]? = some 0 := by
  obtain ⟨j, hopened, hsize, hzero⟩ : ∃ j : Journal, (leapSession.after 0).Agrees j ∧
      j.sectors = leapSource.capacity ∧ j.bytes[512]? = some 0 := by
    refine ⟨⟨Bytes.zeros leapSource.capacity, none, false⟩, ?_, Array.size_replicate, ?_⟩
    · exact (recoverable_ofParts ofParts_leapSession leapSource_failsAt rfl).rests.agrees
    · rw [Bytes.zeros, Array.getElem?_replicate, if_pos (by decide)]
  have hfirst : (leapSession.after 0).nextRead? = some ⟨0, 256, .forward⟩ := by decide +kernel
  have hsecond : (leapSession.after 1).nextRead? = some ⟨256, 256, .backward⟩ := by decide +kernel
  have hmiddle : (leapSession.after 1).Agrees (j.record 0 256 true) :=
    hopened.after_record leapSource_failsAt hfirst (by decide)
  have hleft : (leapSession.after 2).Agrees ((j.record 0 256 true).record 256 256 true) :=
    hmiddle.after_record leapSource_failsAt hsecond (by decide)
  have hin : 511 < j.sectors := hsize ▸ (by decide)
  refine ⟨_, hleft, ?_, Journal.failedAt_record_of_mem (by omega) ?_, ?_⟩
  · rw [Journal.sectors_record, Journal.sectors_record, hsize]
  · rwa [Journal.sectors_record]
  · rw [Journal.getElem?_record, if_neg (by omega), Journal.getElem?_record, if_neg (by omega),
      hzero]

/-- The zone is clean in the table, and the one that the journal yields is not. -/
theorem rebuild_of_leapSession {k : Journal} (hagrees : (leapSession.after 2).Agrees k)
    (hsize : k.sectors = leapSource.capacity) (hbelow : k.failedAt 511 = true) :
    k.rebuild leapOptions.startLba leapSource.capacity = ⟨[⟨512, 600, true, false⟩], none⟩ := by
  have hlive : (leapSession.after 2).copy.table.zones = [⟨512, 600, false, false⟩] := by
    decide +kernel
  have habove : k.failedAt 600 = false := by
    have hnone : k.bytes[600]? = none := Array.getElem?_eq_none (Nat.le_of_eq hsize)
    simp [Journal.failedAt, Journal.status, hnone]
  have hstart : (leapSession.after 2).copy.start = leapOptions.startLba :=
    (after_range 2 leapSession).1
  have hzones := hagrees.mirrors.rebuild_zones
  have hcursor := k.rebuild_cursor leapOptions.startLba leapSource.capacity
  rw [hstart, hsize, hlive] at hzones
  rcases hrebuilt : k.rebuild leapOptions.startLba leapSource.capacity with ⟨zones, cursor⟩
  rw [hrebuilt] at hzones hcursor
  obtain rfl : cursor = none := hcursor
  obtain rfl : zones = _ := hzones
  simp [Journal.zoneOfRun, hbelow, habove]

/-- Left after the failure of the second block too, a copy that is opened again is done at once,
though the sectors above can be read. -/
theorem resumed_misses_zone_above_cut :
    ∃ s k last s',
      ofParts .ofProcess leapSource emptyImage
        (some ⟨Bytes.zeros leapSource.capacity, none, false⟩) leapOptions = .ok s ∧
      leapSource.FailsAt (fun lba _ => decide (lba < 512)) ∧
      (s.after 2).close.2.journal = some k ∧ (s.after 3).nextRead? = none ∧
      (s.after 3).journal = some last ∧ last.bytes[512]? = some 1 ∧
      ofParts .ofProcess leapSource emptyImage (some ⟨k.bytes, none, true⟩) leapOptions = .ok s' ∧
      s'.nextRead? = none ∧ s'.journal.map (·.bytes) = some k.bytes ∧ k.bytes[512]? = some 0 := by
  obtain ⟨k, hleft, hsize, hbelow, hzero⟩ := leapSession_agrees
  have hturn : (leapSession.after 2).copy.strategy.next (leapSession.after 2).copy.table =
      (.read ⟨512, 88, .forward⟩, .skipFail true 1,
        ⟨[⟨512, 600, false, false⟩], some ⟨0, .forward⟩⟩) := by decide +kernel
  obtain ⟨hthird, -, htable⟩ := perform_of_turn (after_closed 2 leapSession)
    (after_failsAt leapSource_failsAt 2) hturn
  have hlast : (leapSession.after 3).Agrees (k.record 512 88 false) :=
    hleft.after_record leapSource_failsAt hthird (by decide)
  have hdone : (leapSession.after 3).nextRead? = none := by
    apply nextRead?_of_zones
    rw [after_succ', htable]
    decide +kernel
  have hgood : (k.record 512 88 false).bytes[512]? = some 1 := by
    have hin : 512 < k.sectors := hsize ▸ (by decide)
    rw [Journal.getElem?_record, if_pos ⟨by omega, by omega, hin⟩]
    rfl
  obtain ⟨s', hs'⟩ := @exists_ofParts ⟨k.bytes, none, true⟩ .ofProcess leapSource emptyImage
    leapOptions Memory.givesBlock_ofProcess (by decide) hsize
  obtain ⟨hstrategy, hopened⟩ := ofParts_strategy hs'
  obtain ⟨hjournal, -, -⟩ := ofParts_parts hs'
  have hstuck : s'.copy.table = ⟨[⟨512, 600, true, false⟩], none⟩ :=
    (ofParts_restored hs').trans (rebuild_of_leapSession hleft hsize hbelow)
  have hnothing : s'.nextRead? = none := by
    have hunresolved : (Strategy.ofKind leapOptions.strategy leapOptions.skipBlocks).next
        ⟨[⟨512, 600, true, false⟩], none⟩ = (.unresolved, .skipFail true 1,
          ⟨[⟨512, 600, true, false⟩], none⟩) := by decide +kernel
    rw [Option.eq_none_iff_forall_ne_some]
    intro task htask
    rw [nextRead?_eq_some_iff hopened, hstrategy, hstuck, hunresolved] at htask
    simp at htask
  refine ⟨leapSession, k, k.record 512 88 false, s', ofParts_leapSession, leapSource_failsAt, ?_,
    hdone, hlast.journal, hgood, hs', hnothing, ?_, hzero⟩
  · rw [close_journal]
    exact hleft.journal
  · rw [hjournal, Option.map_some]

end CopySession

end DriveRescue
