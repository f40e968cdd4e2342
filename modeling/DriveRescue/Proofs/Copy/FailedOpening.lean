import DriveRescue.Proofs.Copy.Opening
import DriveRescue.Proofs.Copy.Turning

/-! What is left of the files when a session fails to open. The options and the source are looked at
before a file is touched, then the journal, and the image comes last; but where the copy is to start
is compared with the source's length, and memory is asked for a buffer, only after that. -/
namespace DriveRescue.CopySession

variable {memory : Memory} {files left : FileTree} {device : String} {options : CopyOptions}
  {source : Source} {journal : Option Journal} {e : Error}

theorem begin?_of_start_beyond (hbeyond : source.capacity ≤ options.startLba) :
    Copy.begin? options source.capacity journal =
      .error (.invalidOption "start_lba" (.startBeyond options.startLba source.capacity)) :=
  if_pos hbeyond

theorem exists_begin? (hstart : options.startLba < source.capacity)
    (hsize : ∀ j, journal = some j → j.sectors = source.capacity) :
    ∃ copy, Copy.begin? options source.capacity journal = .ok copy := by
  unfold Copy.begin?
  dsimp only
  rw [if_neg (Nat.not_le_of_lt hstart)]
  cases journal with
  | none => exact ⟨_, rfl⟩
  | some j =>
    dsimp only
    rw [if_neg (not_not_intro (hsize j rfl))]
    split <;> exact ⟨_, rfl⟩

/-- Parts that fit together make a session if there is memory for its buffer. -/
theorem ofParts_of_sectors (memory : Memory) (target : Target)
    (hstart : options.startLba < source.capacity)
    (hsize : ∀ j, journal = some j → j.sectors = source.capacity) :
    (memory.givesBlock = true → ∃ s, ofParts memory source target journal options = .ok s) ∧
      (memory.givesBlock = false →
        ofParts memory source target journal options = .error (.buffer (.refused blockBytes))) := by
  obtain ⟨copy, hbegin⟩ := exists_begin? hstart hsize
  rw [ofParts_eq, hbegin]
  exact ⟨fun hmemory => ⟨_, if_pos hmemory⟩, fun hmemory => if_neg (by simp [hmemory])⟩

/-- An opening fails before it touches a file, or at the journal or the image with nothing but the
journal touched, or at last because the copy would start behind the end of its source or because
there is no memory for its buffer. -/
theorem openPath_eq_error (h : openPath memory files device options = (.error e, left)) :
    left = files ∨
    (options.useJournal = true ∧ ∃ sectors opened,
      Journal.openOrCreate files (journalPath device options) sectors = (opened, left)) ∨
    ∃ source, Source.openPath files device options.api = .ok source ∧
      (source.capacity ≤ options.startLba ∨ memory.givesBlock = false) := by
  unfold openPath at h
  split at h
  · exact .inl (Prod.mk.inj h).2.symm
  · split at h
    · exact .inl (Prod.mk.inj h).2.symm
    · next source hsource =>
      by_cases hready : options.startLba < source.capacity ∧ memory.givesBlock = true
      · obtain ⟨hstart, hmemory⟩ := hready
        have hfits {reread : Source} {target : Target} {journal : Option Journal}
            (hcapacity : reread.capacity = source.capacity)
            (hsize : ∀ j, journal = some j → j.sectors = source.capacity) :
            ofParts memory reread target journal options ≠ .error e := by
          obtain ⟨hopens, -⟩ :=
            ofParts_of_sectors memory target (hcapacity ▸ hstart) (hcapacity ▸ hsize)
          obtain ⟨s, hs⟩ := hopens hmemory
          rw [hs]
          simp
        cases huse : options.useJournal with
        | false =>
          simp only [huse, Bool.false_eq_true, ↓reduceIte] at h
          split at h
          · exact .inl (Prod.mk.inj h).2.symm
          · exact absurd (Prod.mk.inj h).1 (hfits (by split <;> rfl) (by simp))
        | true =>
          refine .inr (.inl ⟨rfl, source.capacity, ?_⟩)
          rcases hopened : Journal.openOrCreate files (journalPath device options) source.capacity
            with ⟨opened, mid⟩
          simp only [journalPath] at hopened
          simp only [huse, ↓reduceIte, hopened] at h
          cases opened with
          | error fault =>
            simp only [Except.map, Prod.mk.injEq] at h
            exact ⟨.error fault, by rw [h.2]⟩
          | ok j =>
            simp only [Except.map] at h
            split at h
            · exact ⟨.ok j, by rw [← (Prod.mk.inj h).2]⟩
            · refine absurd (Prod.mk.inj h).1 (hfits (by split <;> rfl) ?_)
              rintro j' hj
              obtain rfl := Option.some.inj hj
              exact Journal.sectors_openOrCreate hopened
      · refine .inr (.inr ⟨source, hsource, ?_⟩)
        rw [not_and_or, Nat.not_lt, Bool.not_eq_true] at hready
        exact hready

/-- A journal that was made stays if the image cannot be opened. -/
theorem openPath_of_image_error {j : Journal} {fault : FileFault}
    (hvalid : options.validate = .ok ())
    (hsource : Source.openPath files device options.api = .ok source)
    (huse : options.useJournal = true)
    (hjournal : Journal.openOrCreate files (journalPath device options) source.capacity =
      (.ok j, left))
    (himage : left.openOrCreate options.destination (!j.restored) = .error fault) :
    openPath memory files device options =
      (.error (.cannotOpen options.destination fault), left) := by
  unfold journalPath at hjournal
  unfold openPath
  simp only [hvalid, hsource, huse, ↓reduceIte, hjournal, Except.map, Option.any_some, himage]

/-- The parts are put together after the journal and the image were opened. -/
theorem openPath_of_image (memory : Memory) {j : Journal} {mid : FileTree} {key : List String}
    {node : Node} (hvalid : options.validate = .ok ())
    (hsource : Source.openPath files device options.api = .ok source)
    (huse : options.useJournal = true)
    (hjournal : Journal.openOrCreate files (journalPath device options) source.capacity =
      (.ok j, mid))
    (himage : mid.openOrCreate options.destination (!j.restored) = .ok (key, node, left)) :
    ∃ reread : Source, reread.capacity = source.capacity ∧
      openPath memory files device options =
        (ofParts memory reread (.ofNode key node true) (some j) options, left) := by
  unfold journalPath at hjournal
  unfold openPath
  simp only [hvalid, hsource, huse, ↓reduceIte, hjournal, Except.map, Option.any_some, himage]
  split
  · next node _ => exact ⟨source.reread node, rfl, rfl⟩
  · exact ⟨source, rfl, rfl⟩

/-- A source of one sector, and the image of an earlier copy. -/
def usedFiles (sector image : Bytes) : FileTree where
  working := []
  nodes := [(["s"], .file sector), (["i"], .file image)]

theorem openPath_usedFiles {sector image : Bytes} (hsize : sector.size = 512) :
    ∃ source, Source.openPath (usedFiles sector image) "s" .posix = .ok source ∧
      source.capacity = 1 := by
  have hstat : (usedFiles sector image).stat "s" = .ok (["s"], .file sector) := rfl
  refine ⟨.ofNode (.file sector), ?_, ?_⟩
  · unfold Source.openPath Device.openPath FileTree.openExisting
    rw [hstat]
    rfl
  · show sector.size / sectorBytes = 1
    rw [hsize]
    rfl

theorem openOrCreate_usedFiles (sector image : Bytes) :
    Journal.openOrCreate (usedFiles sector image) "j" 1 =
      (.ok ⟨#[0], some ⟨"j", ["j"]⟩, false⟩,
        (usedFiles sector image).put ["j"] (.file #[0])) := by
  have hnone : (usedFiles sector image).stat "j" = .error .notFound := rfl
  have hmade : (usedFiles sector image).openOrCreate "j" false =
      .ok (["j"], .file #[], (usedFiles sector image).put ["j"] (.file #[])) := rfl
  exact Journal.openOrCreate_of_notFound (by decide) hnone hmade (by decide)

/-- A failed opening of a copy that starts before the end of its source, and for whose buffer there
is memory, leaves every file as it was. Only a journal may be new, of unread sectors, where its path
led to nothing. -/
theorem failed_opening_keeps_files (h : openPath memory files device options = (.error e, left))
    (hstart : ∀ source, Source.openPath files device options.api = .ok source →
      options.startLba < source.capacity) (hmemory : memory.givesBlock = true) :
    left = files ∨ options.useJournal = true ∧ ∃ key contents,
      files.locate (journalPath device options) = .ok (.free key) ∧
      left.lookup key = some (.file contents) ∧ (∀ b ∈ contents, b = 0) ∧
      ∀ other ≠ key, left.lookup other = files.lookup other := by
  rcases openPath_eq_error h with hsame | ⟨huse, sectors, opened, hopened⟩ |
    ⟨source, hsource, hbeyond | hrefused⟩
  · exact .inl hsame
  · rcases Journal.left_openOrCreate hopened with hsame | ⟨key, contents, hfree, rfl, hzero⟩
    · exact .inl hsame
    · have hlookup := files.lookup_put (FileTree.locate_free hfree) (.file contents)
      refine .inr ⟨huse, key, contents, hfree, ?_, hzero, fun other hother => ?_⟩
      · rw [hlookup, if_pos rfl]
      · rw [hlookup, if_neg hother]
  · exact absurd (hstart source hsource) (Nat.not_lt_of_le hbeyond)
  · exact absurd hmemory (by simp [hrefused])

/-- The image lies in a directory that is not there. -/
theorem failed_opening_keeps_files_unopenable :
    let files := usedFiles (Bytes.zeros 512) #[7]
    let options : CopyOptions :=
      { CopyOptions.default with destination := "d/i", journalFile := some "j" }
    ∃ left, openPath .ofProcess files "s" options =
        (.error (.cannotOpen "d/i" .notFound), left) ∧
      (∀ source, Source.openPath files "s" .posix = .ok source → 0 < source.capacity) ∧
      Memory.ofProcess.givesBlock = true ∧
      ∀ other ≠ ["j"], left.lookup other = files.lookup other := by
  have himage (sector image journal : Bytes) :
      ((usedFiles sector image).put ["j"] (.file journal)).openOrCreate "d/i" true =
        .error .notFound := rfl
  have hplace (sector image : Bytes) :
      (usedFiles sector image).locate "j" = .ok (.free ["j"]) := rfl
  intro files options
  obtain ⟨source, hsource, hcapacity⟩ :=
    @openPath_usedFiles (Bytes.zeros 512) #[7] Array.size_replicate
  have hjournal := openOrCreate_usedFiles (Bytes.zeros 512) #[7]
  rw [← hcapacity] at hjournal
  have hfailed := @openPath_of_image_error .ofProcess files _ "s" options source _ _ rfl hsource rfl
    hjournal (himage _ _ _)
  have hstart (opened : Source) (h : Source.openPath files "s" .posix = .ok opened) :
      0 < opened.capacity := by
    obtain rfl := Except.ok.inj (hsource.symm.trans h)
    rw [hcapacity]
    exact Nat.one_pos
  have hmemory := Memory.givesBlock_ofProcess
  refine ⟨_, hfailed, hstart, hmemory, fun other hother => ?_⟩
  rcases failed_opening_keeps_files hfailed hstart hmemory with
    hsame | ⟨-, key, -, hfree, -, -, hkept⟩
  · rw [hsame]
  · obtain rfl : ["j"] = key := by simpa using (hplace _ _).symm.trans hfree
    exact hkept other hother

/-- An image of an earlier copy is emptied, and a journal is made, for a copy that never starts,
because its start lies behind the end of the source or because memory refuses its buffer. -/
theorem failed_opening_empties_image :
    let files := usedFiles (Bytes.zeros 512) #[7]
    let options (start : Nat) : CopyOptions :=
      { CopyOptions.default with destination := "i", journalFile := some "j", startLba := start }
    let full : Memory := ⟨fun _ _ => false, []⟩
    ∃ left, openPath .ofProcess files "s" (options 1) =
        (.error (.invalidOption "start_lba" (.startBeyond 1 1)), left) ∧
      openPath full files "s" (options 0) = (.error (.buffer (.refused 131072)), left) ∧
      files.contents? "i" = some #[7] ∧ left.contents? "i" = some #[] ∧
      files.contents? "j" = none ∧ left.contents? "j" = some #[0] := by
  -- The paths are followed in trees of any contents, which are long for the source.
  have himage (sector image journal : Bytes) :
      ((usedFiles sector image).put ["j"] (.file journal)).openOrCreate "i" true =
        .ok (["i"], .file #[],
          ((usedFiles sector image).put ["j"] (.file journal)).put ["i"] (.file #[])) := rfl
  have hbefore (sector image : Bytes) :
      (usedFiles sector image).contents? "i" = some image ∧
        (usedFiles sector image).contents? "j" = none := ⟨rfl, rfl⟩
  have hafter (sector image journal : Bytes) :
      (((usedFiles sector image).put ["j"] (.file journal)).put ["i"] (.file #[])).contents? "i" =
          some #[] ∧
        (((usedFiles sector image).put ["j"] (.file journal)).put ["i"] (.file #[])).contents? "j" =
          some journal := ⟨rfl, rfl⟩
  intro files options full
  obtain ⟨source, hsource, hcapacity⟩ :=
    @openPath_usedFiles (Bytes.zeros 512) #[7] Array.size_replicate
  have hjournal := openOrCreate_usedFiles (Bytes.zeros 512) #[7]
  rw [← hcapacity] at hjournal
  have hopened (memory : Memory) (start : Nat) := @openPath_of_image _ _ "s" (options start) source
    memory _ _ _ _ rfl hsource rfl hjournal (himage _ _ _)
  obtain ⟨reread, hreread, hbeyond⟩ := hopened .ofProcess 1
  obtain ⟨reread', hreread', hrefused⟩ := hopened full 0
  have hstart : (options 0).startLba < reread'.capacity := by
    rw [hreread', hcapacity]
    decide
  refine ⟨_, hbeyond.trans ?_, hrefused.trans ?_, (hbefore _ _).1,
    (hafter (Bytes.zeros 512) #[7] _).1, (hbefore _ _).2, (hafter _ _ _).2⟩
  · rw [ofParts_eq, begin?_of_start_beyond (Nat.le_of_eq (hreread.trans hcapacity)), hreread,
      hcapacity]
    rfl
  · have hsize : ∀ j, some (⟨#[0], some ⟨"j", ["j"]⟩, false⟩ : Journal) = some j →
        j.sectors = reread'.capacity := by
      rintro j ⟨⟩
      rw [hreread', hcapacity]
      rfl
    obtain ⟨-, hrefusal⟩ := ofParts_of_sectors full (.ofNode ["i"] (.file #[]) true) hstart hsize
    rw [hrefusal rfl]
    rfl

end DriveRescue.CopySession
