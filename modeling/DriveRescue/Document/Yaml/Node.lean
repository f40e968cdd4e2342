import DriveRescue.Document.Yaml.Token

/-! YAML documents: the values that tokens build up. -/
namespace DriveRescue.Document.Yaml

structure Anchors where
  /-- Which of the anchors so far a name belongs to, latest first. -/
  names : List (String × Nat)
  values : List (Nat × Reading)

namespace Anchors

def empty : Anchors := ⟨[], []⟩

def add (a : Anchors) (name : String) : Nat × Anchors :=
  (a.names.length, { a with names := (name, a.names.length) :: a.names })

def find? (a : Anchors) (name : String) : Option Reading :=
  (a.names.lookup name).map fun n => (a.values.lookup n).getD .misfit

def give (a : Anchors) (anchor : Option Nat) (r : Reading) : Anchors :=
  match anchor with
  | some n => { a with values := (n, r) :: a.values }
  | none => a

end Anchors

/-- What is left to read, and the names so far. -/
abbrev State := List Token × Anchors

structure Properties where
  anchor : Option Nat
  tag : Option (Option String)

private def properties : State → Properties × State
  | (.anchor name :: .tag t :: rest, a) =>
    let (n, a) := a.add name
    (⟨some n, some t⟩, rest, a)
  | (.tag t :: .anchor name :: rest, a) =>
    let (n, a) := a.add name
    (⟨some n, some t⟩, rest, a)
  | (.anchor name :: rest, a) =>
    let (n, a) := a.add name
    (⟨some n, none⟩, rest, a)
  | (.tag t :: rest, a) => (⟨none, some t⟩, rest, a)
  | s => (⟨none, none⟩, s)

private def scalarReading (p : Properties) (isPlain : Bool) (text : List Char) : Reading :=
  if !isPlain then .known (.text (.ofList text))
  else match p.tag with
    | none => plainReading text
    | some (some kind) => taggedReading kind text
    | some none => .known (.text (.ofList text))

mutual

/-- A node. In a block it may begin with a token of a block, and `indentless` allows a sequence
that is not indented. Behind an anchor or a tag it may be missing. -/
private def node : (bound : Nat) → (inBlock indentless : Bool) → State → Option (Reading × State)
  | 0, _, _, _ => none
  | bound + 1, inBlock, indentless, s =>
    match s with
    | (.alias name :: rest, a) => (a.find? name).map fun r => (r, rest, a)
    | s => do
      let (p, tokens, a) := properties s
      let list := fun (read : Option (List Reading × State)) =>
        read.map fun (rs, s) => (Reading.ofItems rs, s)
      let table := fun (read : Option (Mapping × State)) => read.map fun (m, s) => (m.reading, s)
      let missing :=
        if p.anchor.isNone && p.tag.isNone then none
        else some (scalarReading p true [], tokens, a)
      let (r, tokens, a) ← match tokens with
        | .blockEntry :: _ => if indentless then list (entries bound (tokens, a)) else missing
        | .scalar isPlain text :: rest => some (scalarReading p isPlain text, rest, a)
        | .flowSequence :: rest => list (flowItems bound true (rest, a))
        | .flowMapping :: rest => table (flowFields bound true .empty (rest, a))
        | .blockSequence :: rest => if inBlock then list (items bound (rest, a)) else missing
        | .blockMapping :: rest =>
          if inBlock then table (fields bound .empty (rest, a)) else missing
        | _ => missing
      return (r, tokens, a.give p.anchor r)

private def blockNode : (bound : Nat) → (indentless : Bool) → (ends : Token → Bool) → State →
    Option (Reading × State)
  | 0, _, _, _ => none
  | bound + 1, indentless, ends, (tokens, a) =>
    if tokens.head?.any ends then some (.known .null, tokens, a)
    else node bound true indentless (tokens, a)

private def flowNode : (bound : Nat) → (ends : Token → Bool) → State → Option (Reading × State)
  | 0, _, _ => none
  | bound + 1, ends, (tokens, a) =>
    if tokens.head?.any ends then some (.known .null, tokens, a)
    else node bound false false (tokens, a)

private def entries : (bound : Nat) → State → Option (List Reading × State)
  | 0, _ => none
  | bound + 1, (.blockEntry :: rest, a) => do
    let ends := fun t => t == .blockEntry || t == .key || t == .value || t == .blockEnd
    let (r, s) ← blockNode bound false ends (rest, a)
    let (rs, s) ← entries bound s
    return (r :: rs, s)
  | _ + 1, s => some ([], s)

private def items : (bound : Nat) → State → Option (List Reading × State)
  | 0, _ => none
  | _ + 1, (.blockEnd :: rest, a) => some ([], rest, a)
  | bound + 1, (.blockEntry :: rest, a) => do
    let (r, s) ← blockNode bound false (fun t => t == .blockEntry || t == .blockEnd) (rest, a)
    let (rs, s) ← items bound s
    return (r :: rs, s)
  | _ + 1, _ => none

private def fields : (bound : Nat) → Mapping → State → Option (Mapping × State)
  | 0, _, _ => none
  | _ + 1, done, (.blockEnd :: rest, a) => some (done, rest, a)
  | bound + 1, done, (tokens, a) => do
    let ends := fun t => t == .key || t == .value || t == .blockEnd
    let (k, tokens, a) ← match tokens with
      | .key :: rest => blockNode bound true ends (rest, a)
      | .value :: _ => some (.known .null, tokens, a)
      | _ => none
    let (r, s) ← match tokens with
      | .value :: rest => blockNode bound true ends (rest, a)
      | _ => some (.known .null, tokens, a)
    fields bound ((done.push k).push r) s

/-- The items of a sequence in brackets. A pair among them is a mapping of its own. -/
private def flowItems : (bound : Nat) → (first : Bool) → State → Option (List Reading × State)
  | 0, _, _ => none
  | bound + 1, first, (tokens, a) => do
    let tokens ← match tokens, first with
      | .flowSequenceEnd :: _, _ => some tokens
      | .flowEntry :: rest, false => some rest
      | _, false => none
      | _, true => some tokens
    match tokens with
    | .flowSequenceEnd :: rest => return ([], rest, a)
    | .key :: rest =>
      let ends := fun t => t == .flowEntry || t == .flowSequenceEnd
      let (k, tokens, a) ← match rest with
        -- A key that is missing takes the token behind it along.
        | .value :: rest | .flowEntry :: rest | .flowSequenceEnd :: rest =>
          some (.known .null, rest, a)
        | rest => node bound false false (rest, a)
      let (r, s) ← match tokens with
        | .value :: rest => flowNode bound ends (rest, a)
        | _ => some (.known .null, tokens, a)
      let pair := (Mapping.empty.push k).push r
      let (rs, s) ← flowItems bound false s
      return (pair.reading :: rs, s)
    | tokens =>
      let (r, s) ← node bound false false (tokens, a)
      let (rs, s) ← flowItems bound false s
      return (r :: rs, s)

private def flowFields : (bound : Nat) → (first : Bool) → Mapping → State → Option (Mapping × State)
  | 0, _, _, _ => none
  | bound + 1, first, done, (tokens, a) => do
    let tokens ← match tokens, first with
      | .flowMappingEnd :: _, _ => some tokens
      | .flowEntry :: rest, false => some rest
      | _, false => none
      | _, true => some tokens
    let ends := fun t => t == .flowEntry || t == .flowMappingEnd
    match tokens with
    | .flowMappingEnd :: rest => return (done, rest, a)
    | .key :: rest =>
      let (k, tokens, a) ← flowNode bound (fun t => t == .value || ends t) (rest, a)
      let (r, s) ← match tokens with
        | .value :: rest => flowNode bound ends (rest, a)
        | _ => some (.known .null, tokens, a)
      flowFields bound false ((done.push k).push r) s
    | .value :: rest =>
      let (r, s) ← flowNode bound ends (rest, a)
      flowFields bound false ((done.push (.known .null)).push r) s
    | tokens =>
      let (k, s) ← node bound false false (tokens, a)
      flowFields bound false ((done.push k).push (.known .null)) s

end

private def documents (size : Nat) : (bound : Nat) → (first : Bool) → State → Option (List Reading)
  | 0, _, _ => none
  | bound + 1, first, (tokens, a) =>
    let tokens := if first then tokens else tokens.dropWhile (· == .documentEnd)
    let finish := fun (r : Reading) (s : State) =>
      let tokens := match s.1 with
        | .documentEnd :: rest => rest
        | tokens => tokens
      (documents size bound false (tokens, s.2)).map (r :: ·)
    match tokens with
    | [] => some []
    | _ =>
      match tokens.dropWhile (· == .directive) with
      | .documentStart :: rest =>
        match rest with
        | [] | .directive :: _ | .documentStart :: _ | .documentEnd :: _ =>
          finish (.known .null) (rest, a)
        | rest => (node size true false (rest, a)).bind fun (r, s) => finish r s
      | _ =>
        if !first || tokens.head? == some .directive then none
        else (node size true false (tokens, a)).bind fun (r, s) => finish r s

/-- The value of a text of one document. A text without a document is a table without fields. -/
def parse? (text : String) : Option Datum := do
  let tokens ← tokens? text.toList
  match ← documents (4 * tokens.length + 4) (tokens.length + 2) true (tokens, .empty) with
  | [] => some (.table [])
  | [r] => r.datum?
  | _ => none

end DriveRescue.Document.Yaml
