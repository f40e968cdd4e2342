import DriveRescue.Bytes
import DriveRescue.Error
import DriveRescue.Files.Path
import DriveRescue.Text.Number

/-! The files a job can reach, by absolute path, and the directory relative paths start from. -/
namespace DriveRescue

inductive Node where
  | directory
  | file (contents : Bytes)
  /-- Holds nothing and swallows every write. -/
  | null
  /-- Reads as zeros without end and swallows every write. -/
  | zero
  /-- Reads as zeros without end and has no room for a write. -/
  | full

namespace Node

def size : Node → Nat
  | file contents => contents.size
  | directory => 4096
  | _ => 0

/-- What a read of `count` bytes at `offset` brings, if it does not fail. Offsets are signed
numbers of 64 bits. -/
def read (node : Node) (offset count : Nat) : Option Bytes :=
  if Text.signedBound ≤ offset + count then none
  else match node with
    | directory => none
    | file contents => some (contents.range offset count)
    | null => some #[]
    | zero | full => some (Bytes.zeros count)

/-- How many of `count` bytes a write at `offset` takes, if it does not fail. -/
def accepts (node : Node) (offset count : Nat) : Option Nat :=
  if Text.signedBound ≤ offset + count then none
  else match node with
  | directory => none
  | full => if count = 0 then some 0 else none
  | _ => some count

end Node

structure FileTree where
  working : List String
  nodes : List (List String × Node)

/-- What a path leads to. -/
inductive Place where
  | taken (key : List String) (node : Node)
  /-- The directory is there and the name in it is free. -/
  | free (key : List String)

namespace FileTree

/-- The directories down to `working` and the device files every tree has. -/
def bare (working : List String) : FileTree where
  working := working
  nodes := (List.range working.length).map (fun i => (working.take (i + 1), .directory)) ++
    [(["dev"], .directory), (["dev", "null"], .null), (["dev", "zero"], .zero),
      (["dev", "full"], .full)]

def lookup (t : FileTree) (key : List String) : Option Node :=
  if key.isEmpty then some .directory else t.nodes.lookup key

private def putNode (key : List String) (node : Node) :
    List (List String × Node) → List (List String × Node)
  | [] => [(key, node)]
  | (k, n) :: rest => if k = key then (k, node) :: rest else (k, n) :: putNode key node rest

def put (t : FileTree) (key : List String) (node : Node) : FileTree :=
  { t with nodes := putNode key node t.nodes }

private theorem lookup_cons_ite (key : List String) (node : Node)
    (nodes : List (List String × Node)) (other : List String) :
    ((key, node) :: nodes).lookup other = if other = key then some node else nodes.lookup other := by
  rw [List.lookup_cons]
  by_cases h : other = key
  · rw [if_pos h, h, beq_self_eq_true]
  · rw [if_neg h, beq_false_of_ne h]

private theorem lookup_putNode (key : List String) (node : Node)
    (nodes : List (List String × Node)) (other : List String) :
    (putNode key node nodes).lookup other =
      if other = key then some node else nodes.lookup other := by
  induction nodes with
  | nil => exact lookup_cons_ite key node [] other
  | cons entry rest ih =>
    obtain ⟨k, n⟩ := entry
    unfold putNode
    by_cases hk : k = key
    · subst hk
      rw [if_pos rfl, lookup_cons_ite, lookup_cons_ite]
      split <;> rfl
    · rw [if_neg hk, lookup_cons_ite, lookup_cons_ite, ih]
      by_cases h : other = k
      · rw [if_pos h, if_pos h, if_neg (h ▸ hk)]
      · rw [if_neg h, if_neg h]

private theorem putNode_putNode (key : List String) (first last : Node)
    (nodes : List (List String × Node)) :
    putNode key last (putNode key first nodes) = putNode key last nodes := by
  induction nodes with
  | nil => simp [putNode]
  | cons entry rest ih =>
    obtain ⟨k, n⟩ := entry
    by_cases hk : k = key <;> simp [putNode, hk, ih]

theorem lookup_put (t : FileTree) {key : List String} (hkey : key ≠ []) (node : Node)
    (other : List String) :
    (t.put key node).lookup other = if other = key then some node else t.lookup other := by
  unfold lookup put
  cases other with
  | nil => simp [hkey.symm]
  | cons name names =>
    dsimp only
    rw [lookup_putNode]
    rfl

/-- Of two nodes put at one name the last one stays. -/
theorem put_put (t : FileTree) (key : List String) (first last : Node) :
    (t.put key first).put key last = t.put key last := by
  unfold put
  rw [putNode_putNode]

def walk (t : FileTree) (slash : Bool) : (dir : List String) → List String → Except FileFault Place
  | dir, [] => .ok (.taken dir .directory)
  | dir, name :: rest =>
    if name = "." then walk t slash dir rest
    else if name = ".." then walk t slash dir.dropLast rest
    else if 255 < name.utf8ByteSize then .error .nameTooLong
    else
      let key := dir ++ [name]
      match t.lookup key with
      | some .directory => walk t slash key rest
      | some node => if rest.isEmpty && !slash then .ok (.taken key node) else .error .notDirectory
      | none => if rest.isEmpty then .ok (.free key) else .error .notFound

private def follow (t : FileTree) (path : String) (slash : Bool) (names : List String) :
    Except FileFault Place :=
  if path = "" then .error .notFound
  else if path.toList.contains (Char.ofNat 0) then .error .nulByte
  else if 4096 ≤ path.utf8ByteSize then .error .nameTooLong
  else t.walk slash (if Path.isAbsolute path then [] else t.working) names

def locate (t : FileTree) (path : String) : Except FileFault Place :=
  t.follow path (Path.endsInSlash path) (Path.names path)

/-- Where a path leads that may be new. A slash behind its last name asks for a directory, which is
refused as soon as the directory above it is found. -/
def locateNew (t : FileTree) (path : String) : Except FileFault Place :=
  if Path.endsInSlash path && (Path.names path).getLast?.any fun n => n ≠ "." && n ≠ ".." then
    match t.follow path true (Path.names path).dropLast with
    | .ok (.taken ..) => .error .isDirectory
    | .ok (.free _) => .error .notFound
    | .error fault => .error fault
  else t.locate path

def stat (t : FileTree) (path : String) : Except FileFault (List String × Node) :=
  match t.locate path with
  | .ok (.taken key node) => .ok (key, node)
  | .ok (.free _) => .error .notFound
  | .error fault => .error fault

/-- A free place has a name. -/
theorem walk_free {t : FileTree} {slash : Bool} {dir names key : List String}
    (h : t.walk slash dir names = .ok (.free key)) : key ≠ [] := by
  induction names generalizing dir with
  | nil => simp [walk] at h
  | cons name rest ih =>
    unfold walk at h
    split at h
    · exact ih h
    · split at h
      · exact ih h
      · split at h
        · simp at h
        · dsimp only at h
          split at h
          · exact ih h
          · split at h <;> simp at h
          · split at h
            · obtain rfl : dir ++ [name] = key := by simpa using h
              simp
            · simp at h

theorem locate_free {t : FileTree} {path : String} {key : List String}
    (h : t.locate path = .ok (.free key)) : key ≠ [] := by
  unfold locate follow at h
  split at h
  · simp at h
  · split at h
    · simp at h
    · split at h
      · simp at h
      · exact walk_free h

theorem lookup_of_walk_free {t : FileTree} {slash : Bool} {dir names key : List String}
    (h : t.walk slash dir names = .ok (.free key)) : t.lookup key = none := by
  induction names generalizing dir with
  | nil => simp [walk] at h
  | cons name rest ih =>
    unfold walk at h
    split at h
    · exact ih h
    · split at h
      · exact ih h
      · split at h
        · simp at h
        · dsimp only at h
          split at h
          · exact ih h
          · split at h <;> simp at h
          · next hnone =>
            split at h
            · obtain rfl : dir ++ [name] = key := by simpa using h
              exact hnone
            · simp at h

/-- What is free is named by the last name of the path. -/
theorem getLast?_of_walk_free {t : FileTree} {slash : Bool} {dir names key : List String}
    (h : t.walk slash dir names = .ok (.free key)) :
    ∃ name, names.getLast? = some name ∧ name ≠ "." ∧ name ≠ ".." := by
  induction names generalizing dir with
  | nil => simp [walk] at h
  | cons first rest ih =>
    have hrest (hlast : ∃ name, rest.getLast? = some name ∧ name ≠ "." ∧ name ≠ "..") :
        ∃ name, (first :: rest).getLast? = some name ∧ name ≠ "." ∧ name ≠ ".." := by
      obtain ⟨name, hname, hdots⟩ := hlast
      exact ⟨name, by rw [List.getLast?_cons, hname]; rfl, hdots⟩
    unfold walk at h
    split at h
    · exact hrest (ih h)
    · next hdot =>
      split at h
      · exact hrest (ih h)
      · next hdots =>
        split at h
        · simp at h
        · dsimp only at h
          split at h
          · exact hrest (ih h)
          · split at h <;> simp at h
          · split at h
            · next hempty =>
              obtain rfl : rest = [] := by simpa using hempty
              exact ⟨first, rfl, hdot, hdots⟩
            · simp at h

/-- A file that was put at a free place is found there, unless the path asks for a directory. -/
theorem walk_put_of_free {t : FileTree} {dir names key : List String} (contents : Bytes)
    (h : t.walk false dir names = .ok (.free key)) :
    (t.put key (.file contents)).walk false dir names = .ok (.taken key (.file contents)) := by
  have hlookup := t.lookup_put (walk_free h) (.file contents)
  induction names generalizing dir with
  | nil => simp [walk] at h
  | cons name rest ih =>
    unfold walk at h ⊢
    by_cases hdot : name = "."
    · rw [if_pos hdot] at h ⊢
      exact ih h
    by_cases hdots : name = ".."
    · rw [if_neg hdot, if_pos hdots] at h ⊢
      exact ih h
    by_cases hlong : 255 < name.utf8ByteSize
    · simp [hdot, hdots, hlong] at h
    rw [if_neg hdot, if_neg hdots, if_neg hlong] at h ⊢
    dsimp only at h ⊢
    rw [hlookup]
    split at h
    · next hdirectory =>
      -- The directory was there before, so that it is not the new file.
      have hother : dir ++ [name] ≠ key := by
        rintro rfl
        simp [lookup_of_walk_free h] at hdirectory
      rw [if_neg hother, hdirectory]
      exact ih h
    · split at h <;> simp at h
    · split at h
      · next hempty =>
        obtain rfl : dir ++ [name] = key := by simpa using h
        simp [hempty]
      · simp at h

/-- A free place is the place of a file. A path that ends with a slash leads to none. -/
theorem endsInSlash_of_locateNew_free {t : FileTree} {path : String} {key : List String}
    (h : t.locateNew path = .ok (.free key)) : Path.endsInSlash path = false := by
  cases hslash : Path.endsInSlash path with
  | false => rfl
  | true =>
    unfold locateNew at h
    rw [hslash] at h
    split at h
    · split at h <;> simp at h
    · next hdots =>
      unfold locate follow at h
      split at h
      · simp at h
      · split at h
        · simp at h
        · split at h
          · simp at h
          · obtain ⟨name, hname, hdot, hdotdot⟩ := getLast?_of_walk_free h
            simp [hname, hdot, hdotdot] at hdots

theorem locate_of_locateNew {t : FileTree} {path : String} {place : Place}
    (h : t.locateNew path = .ok place) : t.locate path = .ok place := by
  unfold locateNew at h
  split at h
  · split at h <;> simp at h
  · exact h

/-- A new file is found under the path by which its place was found free. -/
theorem stat_put_of_locateNew_free {t : FileTree} {path : String} {key : List String}
    (contents : Bytes) (h : t.locateNew path = .ok (.free key)) :
    (t.put key (.file contents)).stat path = .ok (key, .file contents) := by
  have hslash := endsInSlash_of_locateNew_free h
  have hfree := locate_of_locateNew h
  unfold stat
  unfold locate follow at hfree ⊢
  rw [hslash] at hfree ⊢
  split at hfree
  · simp at hfree
  · next hsome =>
    split at hfree
    · simp at hfree
    · next hbytes =>
      split at hfree
      · simp at hfree
      · next hshort =>
        rw [if_neg hsome, if_neg hbytes, if_neg hshort]
        have hwalk := walk_put_of_free contents hfree
        rw [show (t.put key (.file contents)).working = t.working from rfl, hwalk]

/-- Opens what is there. A directory cannot be opened for writing. -/
def openExisting (t : FileTree) (path : String) (write : Bool) :
    Except FileFault (List String × Node) :=
  match t.stat path with
  | .ok (_, .directory) => if write then .error .isDirectory else t.stat path
  | found => found

/-- Opens for writing, creates what is missing and empties what is there if `truncate` is set. -/
def openOrCreate (t : FileTree) (path : String) (truncate : Bool) :
    Except FileFault (List String × Node × FileTree) :=
  match t.locateNew path with
  | .error fault => .error fault
  | .ok (.free key) => .ok (key, .file #[], t.put key (.file #[]))
  | .ok (.taken _ .directory) => .error .isDirectory
  | .ok (.taken key (.file contents)) =>
    if truncate then .ok (key, .file #[], t.put key (.file #[])) else .ok (key, .file contents, t)
  | .ok (.taken key node) => .ok (key, node, t)

def contents? (t : FileTree) (path : String) : Option Bytes :=
  match t.stat path with
  | .ok (_, .file contents) => some contents
  | _ => none

theorem openExisting_eq_file_iff {t : FileTree} {path : String} {write : Bool}
    {key : List String} {contents : Bytes} :
    t.openExisting path write = .ok (key, .file contents) ↔
      t.stat path = .ok (key, .file contents) := by
  unfold openExisting
  split
  · next k hstat =>
    split <;> simp [hstat]
  · rfl

/-- What is opened for writing is emptied or keeps what is there. -/
theorem openOrCreate_eq_ok {t left : FileTree} {path : String} {truncate : Bool}
    {key : List String} {node : Node} (h : t.openOrCreate path truncate = .ok (key, node, left)) :
    node = .file (if truncate then #[] else (t.contents? path).getD #[]) ∨
      (∀ contents, node ≠ .file contents) ∧ t.contents? path = none := by
  unfold openOrCreate at h
  split at h
  · simp at h
  · next k hplace =>
    have hnone : t.contents? path = none := by
      simp [contents?, stat, locate_of_locateNew hplace]
    obtain ⟨-, rfl, -⟩ : k = key ∧ .file #[] = node ∧ _ = left := by simpa using h
    simp [hnone]
  · simp at h
  · next k contents hplace =>
    have hsome : t.contents? path = some contents := by
      simp [contents?, stat, locate_of_locateNew hplace]
    split at h
    · next htruncate =>
      obtain ⟨-, rfl, -⟩ : k = key ∧ .file #[] = node ∧ _ = left := by simpa using h
      simp [htruncate]
    · next hkeep =>
      obtain ⟨-, rfl, -⟩ : k = key ∧ .file contents = node ∧ _ = left := by simpa using h
      simp [hkeep, hsome]
  · next k found hdirectory hfile hplace =>
    obtain ⟨-, rfl, -⟩ : k = key ∧ found = node ∧ _ = left := by simpa using h
    refine .inr ⟨hfile, ?_⟩
    simp only [contents?, stat, locate_of_locateNew hplace]
    split
    · next contents hsame =>
      simp only [Except.ok.injEq, Prod.mk.injEq] at hsame
      exact absurd hsame.2 (hfile contents)
    · rfl

/-- What is opened for writing where nothing was is a new file. -/
theorem openOrCreate_of_notFound {t left : FileTree} {path : String} {truncate : Bool}
    {key : List String} {node : Node} (hnone : t.stat path = .error .notFound)
    (h : t.openOrCreate path truncate = .ok (key, node, left)) :
    t.locateNew path = .ok (.free key) ∧ left = t.put key (.file #[]) := by
  have htaken {k : List String} {found : Node} (hplace : t.locateNew path = .ok (.taken k found)) :
      False := by
    simp [stat, locate_of_locateNew hplace] at hnone
  unfold openOrCreate at h
  split at h
  · simp at h
  · next k hplace =>
    obtain ⟨rfl, -, rfl⟩ : k = key ∧ .file #[] = node ∧ _ = left := by simpa using h
    exact ⟨hplace, rfl⟩
  · simp at h
  · next hplace => exact (htaken hplace).elim
  · next hplace => exact (htaken hplace).elim

def lengthBound : Nat := Nat.pow 2 44

/-- Why a file cannot be made `bytes` long. -/
def lengthFault? (bytes : Nat) : Option FileFault :=
  if Text.signedBound ≤ bytes then some .noLength
  else if lengthBound ≤ bytes then some .tooLarge
  else none

theorem lt_wordBound_of_lengthFault? {bytes : Nat} (h : lengthFault? bytes = none) :
    bytes < Text.wordBound := by
  unfold lengthFault? at h
  split at h
  · simp at h
  · next hlt =>
    apply Nat.lt_trans (Nat.lt_of_not_le hlt)
    decide

def revise (t : FileTree) (key : List String) (change : Bytes → Bytes) : FileTree :=
  match t.lookup key with
  | some (.file contents) => t.put key (.file (change contents))
  | _ => t

/-- Puts a regular file at a path whose directory exists. -/
def install (t : FileTree) (path : String) (contents : Bytes) : FileTree :=
  match t.locate path with
  | .ok (.taken key _) | .ok (.free key) => t.put key (.file contents)
  | .error _ => t

def isFile (t : FileTree) (path : String) : Bool := (t.contents? path).isSome

def makeDirectories (t : FileTree) (path : String) : FileTree :=
  let start := if Path.isAbsolute path then "/" else "./"
  let names := Path.names path
  (List.range names.length).foldl (fun t i =>
    match t.locate (start ++ "/".intercalate (names.take (i + 1))) with
    | .ok (.free key) => t.put key .directory
    | _ => t) t

/-- The regular files of a tree that are not in another tree as they are. -/
def changes (t before : FileTree) : List (List String × Bytes) :=
  t.nodes.filterMap fun (key, node) =>
    match node, before.lookup key with
    | .file contents, some (.file old) => if contents = old then none else some (key, contents)
    | .file contents, _ => some (key, contents)
    | _, _ => none

/-- Gives the file at a path another length. -/
def resize (t : FileTree) (path : String) (bytes : Nat) : FileTree :=
  match t.stat path with
  | .ok (key, .file contents) => t.put key (.file (contents.resize bytes))
  | _ => t

end FileTree

end DriveRescue
