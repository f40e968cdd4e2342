import DriveRescue.Api
import DriveRescue.Files.Tree
import DriveRescue.Sector
import DriveRescue.Status

/-! Sources that blocks are read from and targets that data are written to. Both are given by how
they answer the calls made to them, whatever stands behind. -/
namespace DriveRescue

structure Reply where
  status : BlockStatus
  nanos : Nat
  data : Bytes

structure Calls where
  reads : Nat
  verifies : Nat
  prepared : Nat
  closed : Nat
  deriving DecidableEq

structure Source where
  api : Api
  /-- Whole sectors. -/
  capacity : Nat
  /-- How the `k`-th read, of `count` bytes from sector `lba` on, is answered. -/
  reading : (k lba count : Nat) → Reply
  /-- How the `k`-th check of `sectors` sectors from `lba` on is answered by a source that need not
  read them for it. -/
  checking : Option ((k lba sectors : Nat) → Outcome)
  /-- With what closing fails, if it does. -/
  closing : Option Error
  calls : Calls

namespace Source

def read (s : Source) (lba count : Nat) : Reply × Source :=
  (s.reading s.calls.reads lba count, { s with calls.reads := s.calls.reads + 1 })

/-- Checks that sectors can be read. A source without a way of its own reads them, as far as
`scratch` bytes hold them. -/
def verify (s : Source) (lba sectors scratch : Nat) : Outcome × Source :=
  match s.checking with
  | some check =>
    (check s.calls.verifies lba sectors, { s with calls.verifies := s.calls.verifies + 1 })
  | none =>
    let (reply, s) := s.read lba (min (sectors * sectorBytes) scratch)
    (⟨reply.status, reply.nanos⟩, s)

def prepare (s : Source) : Source := { s with calls.prepared := s.calls.prepared + 1 }

def close (s : Source) : Except Error Unit × Source :=
  (match s.closing with
    | some e => .error e
    | none => .ok (),
    { s with calls.closed := s.calls.closed + 1 })

/-- A read through the system is good only if it comes in full. -/
def readNode (node : Node) (lba count : Nat) : Reply :=
  match node.read (lba * sectorBytes) count with
  | some data => if data.size = count then ⟨.ok, 0, data⟩ else ⟨.error, 0, #[]⟩
  | none => ⟨.error, 0, #[]⟩

/-- The source after another hand changed what stands behind it. -/
def reread (s : Source) (node : Node) : Source := { s with reading := fun _ => readNode node }

def ofNode (node : Node) : Source where
  api := .posix
  capacity := node.size / sectorBytes
  reading _ := readNode node
  checking := none
  closing := none
  calls := ⟨0, 0, 0, 0⟩

end Source

structure Target where
  contents : Bytes
  /-- Where the regular file behind it lies in the tree. -/
  file : Option (List String)
  /-- How much of `count` bytes the `k`-th write, at `offset`, takes; none if it fails. -/
  accepts : (k offset count : Nat) → Option Nat
  writes : Nat

namespace Target

/-- One write, which may take only the first bytes. -/
def write (t : Target) (offset : Nat) (data : Bytes) : Option Nat × Target :=
  match t.accepts t.writes offset data.size with
  | none => (none, { t with writes := t.writes + 1 })
  | some taken =>
    let taken := min taken data.size
    let part := if taken = data.size then data else data.take taken
    (some taken, { t with contents := t.contents.writeAt offset part, writes := t.writes + 1 })

/-- Writes until all bytes are taken. It fails when a write does, or takes nothing. -/
def writeAll (t : Target) (offset : Nat) (data : Bytes) : Bool × Target :=
  if data.size = 0 then (true, t)
  else match t.write offset data with
    | (none, t) => (false, t)
    | (some taken, t) =>
      if taken = 0 then (false, t)
      else if data.size ≤ taken then (true, t)
      else writeAll t (offset + taken) (data.drop taken)
  termination_by data.size
  decreasing_by simp; omega

def ofNode (key : List String) (node : Node) (writable : Bool) : Target :=
  let accepts := fun _ offset count => if writable then node.accepts offset count else none
  match node with
  | .file contents => ⟨contents, some key, accepts, 0⟩
  | _ => ⟨#[], none, accepts, 0⟩

def save (t : Target) (files : FileTree) : FileTree :=
  match t.file with
  | some key => files.put key (.file t.contents)
  | none => files

end Target

end DriveRescue
