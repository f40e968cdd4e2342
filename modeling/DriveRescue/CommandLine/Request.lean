import DriveRescue.CommandLine.Words
import DriveRescue.Report.Block
import DriveRescue.Text.Number

/-! What a command line asks for. -/
namespace DriveRescue.CommandLine

structure CopyRequest where
  device : String
  destination : String
  api : Option String
  strategy : Option String
  useJournal : Bool
  journal : Option String
  skipBlocks : Option Nat
  startLba : Option Nat
  /-- The configuration file to read instead of the usual one. -/
  config : Option String

inductive Command where
  | copy (request : CopyRequest)
  | readTest (device : String) (api : Option String) (startLba : Nat)
  | zeroFill (device : String) (confirmed : Bool)
  | procedures

structure Request where
  command : Command
  logFile : Option String
  mode : Report.Mode
  json : Bool

def configVariable : String := "SALVAGE_CONFIG"

private def switch (name : String) : OptionSpec := ⟨name, none, .switch⟩
private def text (name : String) : OptionSpec := ⟨name, none, .valued fun _ => true⟩
private def path (name : String) : OptionSpec := ⟨name, none, .valued (· ≠ "")⟩
private def number (name : String) : OptionSpec := ⟨name, none, .valued (Text.word? · |>.isSome)⟩

/-- Options that may stand on either side of the command's name. -/
private def common : List OptionSpec :=
  [switch "debug", path "log-file", ⟨"quiet", some 'q', .switch⟩, switch "bar", switch "json",
    ⟨"help", some 'h', .inquiry⟩]

def outerLevel : Level := ⟨⟨"version", some 'V', .inquiry⟩ :: common, none⟩

/-- The level behind a command's name. -/
def innerLevel? : String → Option Level
  | "copy" => some ⟨[path "dst", text "api", ⟨"strategy", some 's', .valued fun _ => true⟩,
      switch "no-journal", path "journal", number "skip-blocks", number "start-lba",
      path "config"] ++ common, some 1⟩
  | "read-test" => some ⟨[text "api", number "start-lba"] ++ common, some 1⟩
  | "zero-fill" => some ⟨switch "yes" :: common, some 1⟩
  | "procedures" => some ⟨common, some 0⟩
  | _ => none

/-- Words behind `help` lead down through the names of commands, of which none has others below
it. -/
def isHelpTopic : List String → Bool
  | [] => true
  | [name] => name == "help" || (innerLevel? name).isSome
  | _ => false

/-- No level has two options that exclude each other. -/
private def isCompatible (g : Given) : Bool :=
  !(g.has "bar" && g.has "quiet") && !(g.has "journal" && g.has "no-journal")

private def command? (name : String) (g : Given) (config : Option String) : Option Command :=
  let count := fun name => (g.value? name).bind Text.word?
  match name, g.operands with
  | "copy", [device] => do
    let config := (g.value? "config").or config
    if config == some "" then none
    return .copy {
      device
      destination := ← g.value? "dst"
      api := g.value? "api"
      strategy := g.value? "strategy"
      useJournal := !g.has "no-journal"
      journal := g.value? "journal"
      skipBlocks := count "skip-blocks"
      startLba := count "start-lba"
      config }
  | "read-test", [device] => some (.readTest device (g.value? "api") ((count "start-lba").getD 0))
  | "zero-fill", [device] => some (.zeroFill device (g.has "yes"))
  | "procedures", [] => some .procedures
  | _, _ => none

/-- Reads the words of a command line. `config` is the value of the variable that names a
configuration file. Of two values for one option the one behind the command's name counts. -/
def Request.parse (config : Option String) (words : List String) : Except Refusal Request := do
  let (outer, rest) ← outerLevel.read none .empty words
  match rest with
  | [] => throw .misuse
  | name :: words =>
    if name = "help" then throw (if isHelpTopic words then .inquiry "help" else .misuse)
    match innerLevel? name with
    | none => throw .misuse
    | some level =>
      let (inner, _) ← level.read none .empty words
      if !isCompatible outer || !isCompatible inner then throw .misuse
      let given := fun option => inner.has option || outer.has option
      match command? name inner config with
      | none => throw .misuse
      | some command =>
        return {
          command
          logFile := (inner.value? "log-file").or (outer.value? "log-file")
          mode := if given "quiet" then .quiet else if given "bar" then .bar else .lines
          json := given "json" }

end DriveRescue.CommandLine
