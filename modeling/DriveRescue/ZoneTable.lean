import DriveRescue.Zone

/-! The table of unread zones, in address order, and the zone that is being read. Every operation
that shifts zones shifts the cursor with them. -/
namespace DriveRescue

structure Cursor where
  index : Nat
  direction : Direction
  deriving DecidableEq

namespace Cursor

/-- The cursor after a zone was put in right behind zone `i`. -/
def afterInsert (c : Cursor) (i : Nat) : Cursor :=
  if i < c.index then { c with index := c.index + 1 } else c

def afterErase? (c : Cursor) (i : Nat) : Option Cursor :=
  if c.index = i then none
  else if i < c.index then some { c with index := c.index - 1 }
  else some c

end Cursor

structure ZoneTable where
  zones : List Zone
  cursor : Option Cursor
  deriving DecidableEq

namespace ZoneTable

def empty : ZoneTable := ⟨[], none⟩

/-- A table of the given zones without the empty ones. -/
def ofZones (zones : List Zone) : ZoneTable := ⟨zones.filter (!·.isEmpty), none⟩

def ofRange (start stop : Nat) : ZoneTable := ofZones [.clean start stop]

def size (t : ZoneTable) : Nat := t.zones.length

def isEmpty (t : ZoneTable) : Bool := t.zones.isEmpty

def unread (t : ZoneTable) : Nat := t.zones.foldr (fun z n => z.len + n) 0

/-- No further division is made. -/
def isFull (t : ZoneTable) : Bool := maxZones ≤ t.size

/-- Position and length of the longest zone, the first of equals. -/
def longest? : List Zone → Option (Nat × Nat)
  | [] => none
  | z :: rest =>
    match longest? rest with
    | none => some (0, z.len)
    | some (i, n) => if n ≤ z.len then some (0, z.len) else some (i + 1, n)

def largest? (t : ZoneTable) : Option Nat := (longest? t.zones).map (·.1)

def selected? (t : ZoneTable) : Option Zone := t.cursor.bind (t.zones[·.index]?)

def select (t : ZoneTable) (index : Nat) (direction : Direction) : ZoneTable :=
  { t with cursor := some ⟨index, direction⟩ }

def release (t : ZoneTable) : ZoneTable := { t with cursor := none }

/-- Zone `i` becomes two zones that touch at `cut`, unless the table is full. The outer borders keep
their marks and the new ones are clean. The table comes with the index of the upper zone. -/
def divide? (t : ZoneTable) (i cut : Nat) : Option (Nat × ZoneTable) :=
  if t.isFull then none
  else t.zones[i]?.map fun z =>
    (i + 1,
      { zones := t.zones.take i ++ z.leading cut :: z.trailing cut :: t.zones.drop (i + 1)
        cursor := t.cursor.map (·.afterInsert i) })

/-- Divides zone `i` at a block border that leaves more than a block on either side. -/
def split? (t : ZoneTable) (i cut : Nat) : Option (Nat × ZoneTable) :=
  t.zones[i]?.bind fun z =>
    if cut % blockSectors = 0 ∧ z.start + blockSectors < cut ∧ cut + blockSectors < z.stop then
      t.divide? i cut
    else none

/-- Divides zone `i` at any sector inside it. -/
def carve? (t : ZoneTable) (i cut : Nat) : Option (Nat × ZoneTable) :=
  t.zones[i]?.bind fun z =>
    if z.start < cut ∧ cut < z.stop then t.divide? i cut else none

/-- Takes sectors off a border of zone `i`. The zone leaves the table when nothing is left of it,
and the answer says whether it did. -/
def shrink (t : ZoneTable) (i sectors : Nat) (d : Direction) (failed : Bool) : Bool × ZoneTable :=
  match t.zones[i]? with
  | none => (false, t)
  | some z =>
    let z := z.trim sectors d failed
    if z.isEmpty then
      (true, { zones := t.zones.eraseIdx i, cursor := t.cursor.bind (·.afterErase? i) })
    else (false, { t with zones := t.zones.set i z })

def isAscending : List Zone → Bool
  | z :: w :: rest => z.stop ≤ w.start && isAscending (w :: rest)
  | _ => true

/-- Ascending, disjoint, free of empty zones, and the cursor designates a zone. -/
def isConsistent (t : ZoneTable) : Bool :=
  t.zones.all (fun z => z.start < z.stop) && isAscending t.zones &&
    t.cursor.all (·.index < t.size)

end ZoneTable

end DriveRescue
