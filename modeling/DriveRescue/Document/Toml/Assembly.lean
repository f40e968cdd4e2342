import DriveRescue.Document.Toml.Section

/-! The tables that the sections of a document build up. A section lies in the tables that its
header leads through, whichever section came first. -/
namespace DriveRescue.Document.Toml

/-- A table whose first name this is stands for the date that it holds. -/
def momentMark : String := "$__toml_private_datetime"

/-- The date of a marked table, whose other fields do not count. -/
def Item.marked? : Item → Option Datum
  | .text s => (moment? s.toList).map .text
  | _ => none

mutual

def Item.datum? : Item → Option Datum
  | .boolean b => some (.boolean b)
  | .number (.integer n) => some (.integer n)
  | .number (.real x) => some (.real x)
  | .text s => some (.text s)
  | .moment written => (moment? written).map .text
  | .list items => (itemData? items).map .list
  | .table entries _ => entryData? [] entries

def itemData? : List Item → Option (List Datum)
  | [] => some []
  | d :: rest => do return (← d.datum?) :: (← itemData? rest)

def entryData? (done : List (String × Datum)) : List (String × Item) → Option Datum
  | [] => some (.table done.reverse)
  | (name, d) :: rest =>
    if done.isEmpty && name == momentMark then d.marked?
    else if (done.lookup name).isSome then none
    else
      match d.datum? with
      | some d => entryData? ((name, d) :: done) rest
      | none => none

end

structure View where
  /-- How many names lead to the table. -/
  depth : Nat
  /-- A section whose header begins with these names. -/
  parent : Nat
  /-- The first section that is not yet in the table. -/
  next : Nat
  /-- The end of the sections that may lie in the table. -/
  stop : Nat

namespace View

variable (doc : Array Section)

def header (i : Nat) : List String := (doc[i]?.map Section.header).getD []

def isElement (i : Nat) : Bool := doc[i]?.any (·.isElement)

def entries (i : Nat) : Entries := (doc[i]?.map Section.entries).getD []

def find? (v : View) (taken : List Nat) : Option Nat :=
  ((List.range v.stop).drop v.next).find? fun i =>
    ((header doc v.parent).take v.depth).isPrefixOf (header doc i) && !taken.contains i

/-- The next table of the list that section `i` begins, if it comes before `stop`. -/
def nextElement (i stop : Nat) : Nat :=
  (((List.range stop).drop (i + 1)).find? fun j =>
    header doc j == header doc i && isElement doc j).getD stop

/-- The table of section `i` within this one. A shorter header takes the place of the parent's, so
that it cannot come again. -/
def enter? (v : View) (i : Nat) : Option View :=
  let parent := header doc v.parent
  let found := header doc i
  if v.parent ≠ i && found == parent then none
  else some { v with next := i, parent := if found.length < parent.length then i else v.parent }

end View

mutual

/-- Fills a table from the entries at hand and then from the sections that lie in it. The bound is
on the number of steps. -/
private def fill (doc : Array Section) : (bound : Nat) → View → (taken : List Nat) →
    (done : List (String × Datum)) → Entries → Option (Datum × List Nat)
  | 0, _, _, _, _ => none
  | bound + 1, v, taken, done, (name, d) :: rest =>
    if done.isEmpty && name == momentMark then d.marked?.map (·, taken)
    else if (done.lookup name).isSome then none
    else d.datum?.bind fun d => fill doc bound v taken ((name, d) :: done) rest
  | bound + 1, v, taken, done, [] =>
    let finished := some (.table done.reverse, taken)
    if v.parent = v.stop || v.next = v.stop then finished
    else match v.find? doc taken with
      | none => finished
      | some i => do
        let v ← v.enter? doc i
        match (View.header doc i)[v.depth]? with
        | some name =>
          if done.isEmpty && name == momentMark || (done.lookup name).isSome then none
          let (d, taken) ←
            if View.isElement doc i && v.depth + 1 = (View.header doc i).length then
              (elements doc bound v.depth i v.stop taken).map fun (ds, taken) => (.list ds, taken)
            else fill doc bound ⟨v.depth + 1, i, 0, v.stop⟩ taken [] []
          fill doc bound { v with next := i + 1 } taken ((name, d) :: done) []
        | none =>
          if View.isElement doc i then none
          fill doc bound v (i :: taken) done (View.entries doc i)

private def elements (doc : Array Section) : (bound depth i stop : Nat) → (taken : List Nat) →
    Option (List Datum × List Nat)
  | 0, _, _, _, _ => none
  | bound + 1, depth, i, stop, taken =>
    if i = stop then some ([], taken)
    else if taken.contains i then none
    else do
      let next := View.nextElement doc i stop
      let (d, taken) ← fill doc bound ⟨depth + 1, i, 0, next⟩ (i :: taken) [] (View.entries doc i)
      let (ds, taken) ← elements doc bound depth next stop taken
      return (d :: ds, taken)

end

private def DistinctNames (d : Datum) : Prop := (d.fields.map Prod.fst).Nodup

private theorem distinct_of_marked? {item : Item} {d : Datum} (h : item.marked? = some d) :
    DistinctNames d := by
  cases item with
  | text s =>
    simp only [Item.marked?, Option.map_eq_some_iff] at h
    obtain ⟨text, -, rfl⟩ := h
    exact List.nodup_nil
  | _ => simp [Item.marked?] at h

private theorem distinct_reverse {done : List (String × Datum)}
    (h : (done.map Prod.fst).Nodup) : DistinctNames (.table done.reverse) := by
  rw [DistinctNames, Datum.fields, List.map_reverse]
  exact List.pairwise_reverse.mpr (h.imp Ne.symm)

private theorem nodup_cons_of_lookup {name : String} {d : Datum} {done : List (String × Datum)}
    (h : (done.map Prod.fst).Nodup) (hnew : ¬ (done.lookup name).isSome = true) :
    (((name, d) :: done).map Prod.fst).Nodup := by
  rw [List.map_cons, List.nodup_cons]
  refine ⟨fun hmem => ?_, h⟩
  obtain ⟨p, hp, hname⟩ := List.mem_map.mp hmem
  have hnone := List.lookup_eq_none_iff.mp (Option.not_isSome_iff_eq_none.mp hnew) p hp
  simp [hname] at hnone

/-- A table that is filled on takes no name that it has. -/
private theorem distinct_fill {doc : Array Section} {bound : Nat} {v : View} {taken : List Nat}
    {done : List (String × Datum)} {entries : Entries} {filled : Datum × List Nat}
    (hdone : (done.map Prod.fst).Nodup)
    (h : fill doc bound v taken done entries = some filled) : DistinctNames filled.1 := by
  induction bound generalizing v taken done entries with
  | zero => simp [fill] at h
  | succ bound ih =>
    cases entries with
    | cons entry rest =>
      obtain ⟨name, item⟩ := entry
      rw [fill] at h
      split at h
      · obtain ⟨d, hmarked, rfl⟩ := Option.map_eq_some_iff.mp h
        exact distinct_of_marked? hmarked
      · split at h
        · cases h
        · next hnew =>
          obtain ⟨d, -, hfill⟩ := Option.bind_eq_some_iff.mp h
          exact ih (nodup_cons_of_lookup hdone hnew) hfill
    | nil =>
      rw [fill] at h
      dsimp only at h
      split at h
      · obtain rfl := Option.some.inj h
        exact distinct_reverse hdone
      · split at h
        · obtain rfl := Option.some.inj h
          exact distinct_reverse hdone
        · obtain ⟨next, -, h⟩ := Option.bind_eq_some_iff.mp h
          split at h
          · split at h
            · cases h
            · next hfree =>
              rw [Bool.or_eq_true, not_or] at hfree
              split at h <;>
              · obtain ⟨inner, -, hfill⟩ := Option.bind_eq_some_iff.mp h
                exact ih (nodup_cons_of_lookup hdone hfree.2) hfill
          · split at h
            · cases h
            · exact ih hdone h

/-- The fields of a document; none if the text is no document. A document whose root is a date has
none. -/
def parse? (text : String) : Option (List (String × Datum)) := do
  let sections ← sections? text.toList
  let bound := 8 * (text.length + 2)
  let (root, _) ← fill sections.toArray bound ⟨0, 0, 0, sections.length⟩ [] [] []
  return root.fields

/-- No name stands twice in a document. -/
theorem nodup_of_parse? {text : String} {fields : List (String × Datum)}
    (h : parse? text = some fields) : (fields.map Prod.fst).Nodup := by
  simp only [parse?, Option.bind_eq_bind, Option.bind_eq_some_iff] at h
  obtain ⟨sections, -, ⟨root, taken⟩, hfill, hroot⟩ := h
  obtain rfl := Option.some.inj hroot
  exact distinct_fill (by simp) hfill

end DriveRescue.Document.Toml
