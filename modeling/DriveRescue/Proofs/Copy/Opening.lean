import DriveRescue.Proofs.Copy.Integrity

/-! Sessions that are opened by path go on with what the files hold: an image is emptied only
together with a new journal, so that a history over files is one over sessions. -/
namespace DriveRescue

theorem Target.contents_of_openOrCreate {files left : FileTree} {path : String} {truncate : Bool}
    {key : List String} {node : Node} (writable : Bool)
    (h : files.openOrCreate path truncate = .ok (key, node, left)) :
    (Target.ofNode key node writable).contents =
      if truncate then #[] else (files.contents? path).getD #[] := by
  rcases FileTree.openOrCreate_eq_ok h with rfl | ⟨hfile, hnone⟩
  · rfl
  · cases node with
    | file contents => exact absurd rfl (hfile contents)
    | _ => simp [ofNode, hnone]

namespace CopySession

variable {memory : Memory} {files left : FileTree} {device : String} {options : CopyOptions}
  {s : CopySession} {j : Journal}

def journalPath (device : String) (options : CopyOptions) : String :=
  options.journalFile.getD (Path.defaultJournal device.toUTF8.toList)

/-- A session opened by path has a new journal and an empty image, or the bytes of its journal's
file and the image as it is. -/
theorem openPath_eq_ok (h : openPath memory files device options = (.ok s, left))
    (hj : s.journal = some j) :
    ∃ source, ofParts memory source s.target (some j) options = .ok s ∧
      ((j.restored = false ∧ j.bytes = Bytes.zeros source.capacity ∧ s.target.contents = #[]) ∨
        (j.restored = true ∧ files.contents? (journalPath device options) = some j.bytes ∧
          s.target.contents = (files.contents? options.destination).getD #[])) := by
  unfold openPath at h
  split at h
  · simp at h
  · split at h
    · simp at h
    · next source hsource =>
      cases huse : options.useJournal with
      | false =>
        simp only [huse, Bool.false_eq_true, ↓reduceIte] at h
        split at h
        · simp at h
        · next key node mid hdestination =>
          have := (ofParts_parts (Prod.mk.inj h).1).1
          simp [this] at hj
      | true =>
        rcases hopened : Journal.openOrCreate files (journalPath device options) source.capacity
          with ⟨opened, mid⟩
        simp only [journalPath] at hopened
        simp only [huse, ↓reduceIte, hopened] at h
        cases opened with
        | error e => simp [Except.map] at h
        | ok opened =>
          simp only [Except.map] at h
          split at h
          · simp at h
          · next key node last hdestination =>
            have hparts := (Prod.mk.inj h).1
            obtain ⟨hjournal, htarget, -⟩ := ofParts_parts hparts
            obtain rfl := Option.some.inj (hjournal.symm.trans hj)
            have hcontents := Target.contents_of_openOrCreate true hdestination
            refine ⟨_, htarget ▸ hparts, ?_⟩
            rw [htarget, hcontents]
            rcases Journal.openOrCreate_eq_ok hopened with ⟨hnew, hbytes⟩ | ⟨hold, hfile, rfl⟩
            · refine .inl ⟨hnew, ?_, by simp [hnew]⟩
              rw [hbytes]
              split <;> rfl
            · exact .inr ⟨hold, hfile, by simp [hold]⟩

/-- A session opened by path begins a history with a new journal, and goes on with one whose files
it finds. -/
theorem history_openPath {disk : Bytes} (h : openPath memory files device options = (.ok s, left))
    (hj : s.journal = some j) (hshows : s.source.Shows disk)
    (hsep : sharesFile s.target j = false)
    (hfound : j.restored = true → ∃ stage before k, History disk stage before ∧
      before.journal = some k ∧ files.contents? (journalPath device options) = some k.bytes ∧
      (files.contents? options.destination).getD #[] = before.target.contents) :
    History disk .resting s := by
  obtain ⟨source, hopen, hstate⟩ := openPath_eq_ok h hj
  have hsource : source.Shows disk := by
    rw [(ofParts_parts hopen).2.2] at hshows
    exact ⟨hshows.capacity, hshows.reading⟩
  obtain ⟨bytes, file, restored⟩ := j
  rcases hstate with ⟨rfl, rfl, hempty⟩ | ⟨rfl, hbytes, hkept⟩
  · exact .fresh hsource hempty hsep hopen
  · obtain ⟨stage, before, k, hbefore, hk, hjournal, himage⟩ := hfound rfl
    obtain rfl : k.bytes = bytes := Option.some.inj (hjournal.symm.trans hbytes)
    exact .resumed hbefore hk hsource (hkept.trans himage) hsep hopen

end CopySession

end DriveRescue
