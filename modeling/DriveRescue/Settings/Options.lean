import DriveRescue.Sector
import DriveRescue.Settings.Word

/-! Options of the procedures, set one by one by name. -/
namespace DriveRescue

structure CopyOptions where
  api : Api
  strategy : StrategyKind
  /-- Path of the image. -/
  destination : String
  useJournal : Bool
  /-- Length of a leap in blocks. -/
  skipBlocks : Nat
  startLba : Nat
  /-- Path of the journal; without one it is named after the source. -/
  journalFile : Option String
  deriving DecidableEq

/-- The options of a copy by field. -/
inductive CopyField where
  | api | strategy | destination | useJournal | skipBlocks | startLba | journalFile
  deriving DecidableEq

namespace CopyField

def all : List CopyField :=
  [api, strategy, destination, useJournal, skipBlocks, startLba, journalFile]

def name : CopyField → String
  | api => "api"
  | strategy => "read_strategy"
  | destination => "dst_file"
  | useJournal => "use_journal"
  | skipBlocks => "skip_blocks"
  | startLba => "start_lba"
  | journalFile => "journal_file"

def names : List String := all.map name

def ofName? (name : String) : Option CopyField := all.find? (·.name == name)

end CopyField

namespace CopyOptions

def default : CopyOptions where
  api := .posix
  strategy := .smart
  destination := ""
  useJournal := true
  skipBlocks := defaultSkipBlocks
  startLba := 0
  journalFile := none

def assign (o : CopyOptions) (field : CopyField) (value : String) : Except Error CopyOptions :=
  match field with
  | .api => (Api.ofWord value).map fun api => { o with api }
  | .strategy => (StrategyKind.ofWord value).map fun strategy => { o with strategy }
  | .destination => .ok { o with destination := value }
  | .useJournal => (Settings.yesNo field.name value).map fun useJournal => { o with useJournal }
  | .skipBlocks => (Settings.number field.name value).map fun skipBlocks => { o with skipBlocks }
  | .startLba => (Settings.number field.name value).map fun startLba => { o with startLba }
  | .journalFile => .ok { o with journalFile := some value }

def set (o : CopyOptions) (name value : String) : Except Error CopyOptions :=
  match CopyField.ofName? name with
  | some field => o.assign field value
  | none => .error (.invalidOption name .unknownOption)

/-- The defaults with pairs of names and values applied in order, up to the first that is
refused. -/
def ofSettings (settings : List (String × String)) : Except Error CopyOptions :=
  settings.foldlM (fun o (name, value) => o.set name value) default

/-- Refuses options that no copy can start from. -/
def validate (o : CopyOptions) : Except Error Unit :=
  if o.destination = "" then .error (.invalidOption "dst_file" .noDestination)
  else if o.skipBlocks = 0 then .error (.invalidOption "skip_blocks" .noSkip)
  else .ok ()

end CopyOptions

structure ReadTestOptions where
  api : Api
  startLba : Nat
  deriving DecidableEq

namespace ReadTestOptions

def default : ReadTestOptions := ⟨.posix, 0⟩

def set (o : ReadTestOptions) (name value : String) : Except Error ReadTestOptions :=
  match name with
  | "api" => (Api.ofWord value).map fun api => { o with api }
  | "start_lba" => (Settings.number name value).map fun startLba => { o with startLba }
  | _ => .error (.invalidOption name .unknownOption)

def ofSettings (settings : List (String × String)) : Except Error ReadTestOptions :=
  settings.foldlM (fun o (name, value) => o.set name value) default

end ReadTestOptions

end DriveRescue
