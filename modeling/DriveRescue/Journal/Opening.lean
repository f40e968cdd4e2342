import DriveRescue.Files.Tree
import DriveRescue.Journal.Basic

/-! Journals in files: one byte of the file for each sector. -/
namespace DriveRescue.Journal

/-- Makes a journal of unread sectors. A file that cannot be so long stays empty. -/
private def create (files : FileTree) (path : String) (sectors : Nat) :
    Except Error Journal × FileTree :=
  match files.openOrCreate path false with
  | .error fault => (.error (.cannotOpen path fault), files)
  | .ok (key, _, files) =>
    match FileTree.lengthFault? sectors with
    | some fault => (.error (.file fault), files)
    | none =>
      let bytes := Bytes.zeros sectors
      (.ok ⟨bytes, some ⟨path, key⟩, false⟩, files.put key (.file bytes))

/-- Opens the journal of a source of `sectors` sectors, or makes a new one. A file of another length
is left alone. -/
def openOrCreate (files : FileTree) (path : String) (sectors : Nat) :
    Except Error Journal × FileTree :=
  if sectors = 0 then (.error (.journal .noSectors), files)
  else match files.stat path with
    | .error .notFound => create files path sectors
    | .error fault => (.error (.cannotOpen path fault), files)
    | .ok (_, node) =>
      let opened :=
        if node.size = sectors then
          match files.openExisting path true with
          | .ok (key, .file bytes) => .ok ⟨bytes, some ⟨path, key⟩, true⟩
          | .ok _ => .error (.journal (.other s!"failed to map {path}"))
          | .error fault => .error (.cannotOpen path fault)
        else .error (.journalSize sectors node.size)
      (opened, files)

/-- Where nothing was, a journal is made. -/
theorem openOrCreate_of_notFound {files made : FileTree} {path : String} {sectors : Nat}
    {key : List String} {node : Node} (hpos : sectors ≠ 0)
    (hnone : files.stat path = .error .notFound)
    (hmade : files.openOrCreate path false = .ok (key, node, made))
    (hlength : FileTree.lengthFault? sectors = none) :
    openOrCreate files path sectors =
      (.ok ⟨Bytes.zeros sectors, some ⟨path, key⟩, false⟩,
        files.put key (.file (Bytes.zeros sectors))) := by
  obtain ⟨-, rfl⟩ := FileTree.openOrCreate_of_notFound hnone hmade
  unfold openOrCreate create
  simp only [hpos, ↓reduceIte, hnone, hmade, hlength, FileTree.put_put]

/-- A journal that was opened is all there is to a new file, which stands where nothing was, or holds
the bytes of a file that is as long as the source has sectors. -/
theorem openOrCreate_cases {files left : FileTree} {path : String} {sectors : Nat} {j : Journal}
    (h : openOrCreate files path sectors = (.ok j, left)) :
    (∃ key, files.locateNew path = .ok (.free key) ∧
        j = ⟨Bytes.zeros sectors, some ⟨path, key⟩, false⟩ ∧
        left = files.put key (.file (Bytes.zeros sectors)) ∧
        FileTree.lengthFault? sectors = none) ∨
      ∃ key bytes, files.stat path = .ok (key, .file bytes) ∧ bytes.size = sectors ∧
        j = ⟨bytes, some ⟨path, key⟩, true⟩ ∧ left = files := by
  unfold openOrCreate at h
  split at h
  · simp at h
  · split at h
    · next hnone =>
      left
      unfold create at h
      split at h
      · simp at h
      · next key node made hmade =>
        obtain ⟨hfree, rfl⟩ := FileTree.openOrCreate_of_notFound hnone hmade
        split at h
        · simp at h
        · next hlength =>
          obtain ⟨hj, hleft⟩ := Prod.mk.inj h
          refine ⟨key, hfree, (Except.ok.inj hj).symm, ?_, hlength⟩
          rw [← hleft, FileTree.put_put]
    · simp at h
    · next found node hstat =>
      right
      obtain ⟨hopened, rfl⟩ := Prod.mk.inj h
      split at hopened
      · next hsize =>
        split at hopened
        · next key bytes hopen =>
          have hfile := FileTree.openExisting_eq_file_iff.mp hopen
          obtain ⟨rfl, rfl⟩ : found = key ∧ node = .file bytes := by simpa [hstat] using hfile
          exact ⟨found, bytes, hfile, hsize, (Except.ok.inj hopened).symm, rfl⟩
        · simp at hopened
        · simp at hopened
      · simp at hopened

theorem openOrCreate_eq_ok {files left : FileTree} {path : String} {sectors : Nat} {j : Journal}
    (h : openOrCreate files path sectors = (.ok j, left)) :
    (j.restored = false ∧ j.bytes = Bytes.zeros sectors) ∨
      (j.restored = true ∧ files.contents? path = some j.bytes ∧ left = files) := by
  rcases openOrCreate_cases h with ⟨key, -, rfl, -, -⟩ | ⟨key, bytes, hfile, -, rfl, hleft⟩
  · exact .inl ⟨rfl, rfl⟩
  · refine .inr ⟨rfl, ?_, hleft⟩
    unfold FileTree.contents?
    rw [hfile]

/-- A file is opened as the journal of a source that has as many sectors as the file has bytes. For
any other source it is refused. -/
theorem openOrCreate_of_file {files : FileTree} {path : String} {sectors : Nat}
    {key : List String} {bytes : Bytes} (hpos : sectors ≠ 0)
    (hfile : files.stat path = .ok (key, .file bytes)) :
    openOrCreate files path sectors =
      (if bytes.size = sectors then .ok ⟨bytes, some ⟨path, key⟩, true⟩
        else .error (.journalSize sectors bytes.size), files) := by
  unfold openOrCreate
  rw [if_neg hpos, hfile]
  dsimp only [Node.size]
  rw [FileTree.openExisting_eq_file_iff.mpr hfile]
  rfl

/-- A journal of a source has a byte for each of its sectors. -/
theorem sectors_openOrCreate {files left : FileTree} {path : String} {sectors : Nat} {j : Journal}
    (h : openOrCreate files path sectors = (.ok j, left)) : j.sectors = sectors := by
  rcases openOrCreate_cases h with ⟨key, -, rfl, -, -⟩ | ⟨key, bytes, -, hsize, rfl, -⟩
  · exact Array.size_replicate
  · exact hsize

/-- Opening a journal leaves the files as they are, but for a new file of zeros where none was. -/
theorem left_openOrCreate {files left : FileTree} {path : String} {sectors : Nat}
    {opened : Except Error Journal} (h : openOrCreate files path sectors = (opened, left)) :
    left = files ∨ ∃ key contents, files.locate path = .ok (.free key) ∧
      left = files.put key (.file contents) ∧ ∀ b ∈ contents, b = 0 := by
  unfold openOrCreate at h
  split at h
  · exact .inl (Prod.mk.inj h).2.symm
  · split at h
    · next hnone =>
      unfold create at h
      split at h
      · exact .inl (Prod.mk.inj h).2.symm
      · next key node made hmade =>
        obtain ⟨hfree, rfl⟩ := FileTree.openOrCreate_of_notFound hnone hmade
        refine .inr ⟨key, ?_⟩
        have hplace := FileTree.locate_of_locateNew hfree
        split at h
        · exact ⟨#[], hplace, (Prod.mk.inj h).2.symm, by simp⟩
        · refine ⟨Bytes.zeros sectors, hplace, ?_, ?_⟩
          · rw [← (Prod.mk.inj h).2, FileTree.put_put]
          · intro b hb
            exact Array.eq_of_mem_replicate hb
    · exact .inl (Prod.mk.inj h).2.symm
    · exact .inl (Prod.mk.inj h).2.symm

def save (j : Journal) (files : FileTree) : FileTree :=
  match j.file with
  | some file =>
    files.revise file.key fun contents =>
      if contents.size = j.sectors then j.bytes
      else contents.writeAt 0 (j.bytes.take contents.size)
  | none => files

/-- A file that is as long as its journal takes over the journal's bytes. -/
theorem save_of_file {files : FileTree} {j : Journal} {path : String} {key : List String}
    {contents : Bytes} (hj : j.file = some ⟨path, key⟩)
    (hfile : files.lookup key = some (.file contents)) (hsize : contents.size = j.sectors) :
    j.save files = files.put key (.file j.bytes) := by
  unfold save FileTree.revise
  rw [hj]
  dsimp only
  rw [hfile]
  dsimp only
  rw [if_pos hsize]

/-- The journal after its file was given another length. What the file lost reads as unread. -/
def reload (j : Journal) (files : FileTree) : Journal :=
  match j.file.bind fun file => files.lookup file.key with
  | some (.file contents) =>
    { j with bytes := Bytes.resize (j.bytes.take (min contents.size j.sectors)) j.sectors }
  | _ => j

end DriveRescue.Journal
