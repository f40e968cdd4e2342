/-! Options and operands among the words of a command line. -/
namespace DriveRescue.CommandLine

inductive OptionKind where
  | switch
  /-- Takes a value, which has to pass a test. -/
  | valued (accepts : String → Bool)
  /-- Asks for something else than a run and ends the reading. -/
  | inquiry

structure OptionSpec where
  name : String
  letter : Option Char
  kind : OptionKind

structure Level where
  options : List OptionSpec
  /-- How many operands may stand here; none where the first one names a command. -/
  operands : Option Nat

inductive Refusal where
  | misuse
  | inquiry (name : String)
  deriving DecidableEq

structure Given where
  values : List (String × String)
  operands : List String

namespace Given

def empty : Given := ⟨[], []⟩

def has (g : Given) (name : String) : Bool := g.values.any (·.1 == name)

def value? (g : Given) (name : String) : Option String := g.values.lookup name

end Given

namespace Level

def byName? (level : Level) (name : String) : Option OptionSpec :=
  level.options.find? (·.name == name)

def byLetter? (level : Level) (letter : Char) : Option OptionSpec :=
  level.options.find? (·.letter == some letter)

/-- Adds an option with a value. No option stands twice on a level. -/
def give (g : Given) (spec : OptionSpec) (value : String) : Except Refusal Given :=
  if g.has spec.name then .error .misuse
  else .ok { g with values := g.values ++ [(spec.name, value)] }

def giveValue (g : Given) (spec : OptionSpec) (accepts : String → Bool) (value : String) :
    Except Refusal Given :=
  if accepts value then give g spec value else .error .misuse

def standsAsValue (word : String) : Bool := word == "-" || word.toList.head? != some '-'

def addOperand (level : Level) (g : Given) (word : String) : Except Refusal Given :=
  if word ≠ "" ∧ level.operands.any (g.operands.length < ·) then
    .ok { g with operands := g.operands ++ [word] }
  else .error .misuse

/-- What the words read so far leave open: nothing, or the value of an option. -/
abbrev Opened := Option (OptionSpec × (String → Bool))

/-- Reads letters behind a dash. The last of them may be an option with a value, which follows it
in the same word or in the next one. -/
def readLetters (level : Level) (g : Given) : List Char → Except Refusal (Given × Opened)
  | [] => .ok (g, none)
  | letter :: rest =>
    match level.byLetter? letter with
    | none => .error .misuse
    | some spec =>
      match spec.kind with
      | .inquiry => .error (.inquiry spec.name)
      | .switch =>
        match give g spec "" with
        | .ok g => readLetters level g rest
        | .error e => .error e
      | .valued accepts =>
        match rest with
        | [] => .ok (g, some (spec, accepts))
        | '=' :: value => (giveValue g spec accepts (.ofList value)).map (·, none)
        | value => (giveValue g spec accepts (.ofList value)).map (·, none)

/-- Reads a name behind two dashes, with its value if one is attached. -/
def readName (level : Level) (g : Given) (word : List Char) : Except Refusal (Given × Opened) :=
  let attached : Option String := match word.dropWhile (· ≠ '=') with
    | [] => none
    | _ :: value => some (.ofList value)
  match level.byName? (.ofList (word.takeWhile (· ≠ '='))) with
  | none => .error .misuse
  | some spec =>
    match spec.kind, attached with
    | .inquiry, none => .error (.inquiry spec.name)
    | .switch, none => (give g spec "").map (·, none)
    | .inquiry, some _ | .switch, some _ => .error .misuse
    | .valued accepts, some value => (giveValue g spec accepts value).map (·, none)
    | .valued accepts, none => .ok (g, some (spec, accepts))

def read (level : Level) : (opened : Opened) → Given → List String →
    Except Refusal (Given × List String)
  | none, g, [] => .ok (g, [])
  | some _, _, [] => .error .misuse
  | some (spec, accepts), g, word :: words => do
    if !standsAsValue word then throw .misuse
    read level none (← giveValue g spec accepts word) words
  | none, g, word :: words =>
    match word.toList with
    | ['-', '-'] => (words.foldlM level.addOperand g).map (·, [])
    | '-' :: '-' :: name => do
      let (g, opened) ← level.readName g name
      read level opened g words
    | '-' :: letter :: letters => do
      let (g, opened) ← level.readLetters g (letter :: letters)
      read level opened g words
    | _ =>
      if level.operands.isNone then .ok (g, word :: words)
      else do read level none (← level.addOperand g word) words

end Level

end DriveRescue.CommandLine
