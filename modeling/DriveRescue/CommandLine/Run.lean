import DriveRescue.CommandLine.Request
import DriveRescue.Copy.Session
import DriveRescue.Procedure.Detached
import DriveRescue.ReadTest
import DriveRescue.Report.Summary
import DriveRescue.Settings.Layers
import DriveRescue.ZeroFill

/-! Carrying out what a command line asks for. -/
namespace DriveRescue.CommandLine

structure Surroundings where
  files : FileTree
  environment : List (String × String)
  /-- The home directory of the account, should the environment name none. -/
  accountHome : String

structure Response where
  exitCode : Nat
  output : List String
  closing : Report.Timing → List String
  errors : List String
  files : FileTree

/-- An error and what led to it, outermost first. -/
abbrev Failure := List String

def versionLine : String := "salvage 1.0.0"

def usageLine : String := "usage: salvage [OPTIONS] copy|read-test|zero-fill|procedures ..."

/-- An error with a line above it that tells what was being done. -/
def during {α : Type} (doing : String) : Except Error α → Except Failure α
  | .ok a => .ok a
  | .error e => .error (doing :: e.message :: (e.cause?.map (·.message)).toList)

namespace Response

def ofLines (files : FileTree) (lines : List String) : Response := ⟨0, lines, fun _ => [], [], files⟩

def ofFailure (files : FileTree) (failure : Failure) : Response :=
  ⟨1, [], fun _ => [], Report.failureLines failure, files⟩

def misuse (files : FileTree) : Response := ⟨2, [], fun _ => [], [usageLine], files⟩

end Response

/-- Makes the log file and the directories it lies in. Nothing of a run is of the log's level. -/
def openLog (files : FileTree) (path : String) : Except Failure FileTree :=
  match Path.splitLast? path with
  | none => .error ["Log file path has no file name"]
  | some (parent, name) =>
    let target := if parent = "" || parent = "/" then parent ++ name else parent ++ "/" ++ name
    match files.openOrCreate target false with
    | .ok (_, _, files) => .ok files
    | .error _ =>
      match (files.makeDirectories parent).openOrCreate target false with
      | .ok (_, _, files) => .ok files
      | .error fault => .error [s!"Failed to open {target}: {fault.message}"]

def Surroundings.usualConfig (s : Surroundings) : String :=
  Settings.usualPath s.environment s.accountHome

def CopyRequest.configFile (r : CopyRequest) (s : Surroundings) : Settings.ConfigFile :=
  match r.config with
  | some path => .find s.files path
  | none => .findUsual s.files s.usualConfig

/-- What the words of a copy set by name. -/
def CopyRequest.settings (r : CopyRequest) : List (String × String) :=
  let given := fun (field : CopyField) (value : Option String) =>
    (value.map fun v => (field.name, v)).toList
  given .destination r.destination ++ given .api r.api ++ given .strategy r.strategy ++
    given .useJournal (if r.useJournal then none else some "no") ++ given .journalFile r.journal ++
    given .skipBlocks (r.skipBlocks.map toString) ++ given .startLba (r.startLba.map toString)

def CopyRequest.load (r : CopyRequest) (s : Surroundings) : Except Error (CopyOptions × Bool) :=
  Settings.load .standard (r.configFile s) s.environment r.settings

/-- The options of a copy. Where nothing names a way to the source the suggested one is taken. -/
def CopyRequest.options (r : CopyRequest) (s : Surroundings) (info : DeviceInfo) :
    Except Error CopyOptions :=
  (r.load s).map fun (options, configured) =>
    if configured then options else { options with api := .suggested info.ataCapable }

/-- Paths that a request may read or write. Those that a configuration file names are among them if
the file is in the tree. -/
def Request.paths (request : Request) (s : Surroundings) : List String :=
  request.logFile.toList ++
    match request.command with
    | .copy r =>
      let config := r.config.getD s.usualConfig
      let journal := match r.load s with
        | .ok (options, _) => options.journalFile
        | .error _ => none
      config :: (Settings.ConfigFile.alternatives config).map (·.1) ++
        [r.device, r.destination, journal.getD (Path.defaultJournal r.device.toUTF8.toList)]
    | .readTest device .. | .zeroFill device _ => [device]
    | .procedures => []

def runDetached {σ : Type} (p : Procedure σ) (s : σ) : Except Failure RunOutcome × List Event × σ :=
  let d := (Detached.spawn s).drain p (fun _ _ => false) (Detached.turnsFor p s)
  let events := d.received.reverse
  match d.join? with
  | some (.outcome outcome, s) => (.ok outcome, events, s)
  | some (.failed e, s) => (during "Procedure failed" (.error e), events, s)
  | _ => (during "Procedure failed" (.error (.file (.other "worker thread panicked"))), events, s)

/-- A failed step leaves the files as they are by then. -/
def orFailure {α : Type} (files : FileTree) (result : Except Failure α) (go : α → Response) :
    Response :=
  match result with
  | .ok a => go a
  | .error failure => .ofFailure files failure

/-- The response to a run that came to an end, whichever. -/
def finished (request : Request) (outcome : RunOutcome) (text : Report.Timing → List String)
    (record : Report.Timing → Datum) (files : FileTree) : Response where
  exitCode := outcome.exitCode
  output := []
  closing t := if request.json then Report.jsonLines (record t) else text t
  errors := []
  files := files

def runCopy (request : Request) (r : CopyRequest) (s : Surroundings) : Response :=
  orFailure s.files (during s!"Failed to probe {r.device}" (DeviceInfo.probe s.files r.device))
    fun info =>
  orFailure s.files (during "Failed to load copy options" (r.options s info)) fun options =>
  let (opened, files) := CopySession.openPath .ofProcess s.files r.device options
  orFailure files (during s!"Failed to start copy of {r.device}" opened) fun session =>
  let (result, events, session) := runDetached CopySession.procedure session
  let files := session.save files
  let response := orFailure files result fun outcome =>
    orFailure files (during "Failed to close copy" session.close.1) fun () =>
    let summary := session.copy.summary
    finished request outcome (Report.copyText outcome summary)
      (Report.copyDatum r.device options.destination outcome summary) files
  { response with output := Report.Display.output request.mode events }

/-- Runs a procedure over a whole surface and saves what it changed. -/
def runSurface {σ : Type} (request : Request) (kind : ProcedureKind) (device : String)
    (p : Procedure σ) (save : σ → FileTree → FileTree) (state : σ) (files : FileTree) : Response :=
  let display := Report.Display.start request.mode (p.progress state)
  let (result, events, state) := runDetached p state
  let files := save state files
  let response := orFailure files result fun outcome =>
    orFailure files (during s!"Failed to close {kind.name}" (p.close state).1) fun () =>
    let failed := (events.foldl Report.Display.observe display).failedBlocks
    finished request outcome (Report.surfaceText kind outcome (p.progress state) failed)
      (Report.surfaceDatum kind device outcome (p.progress state) failed) files
  { response with output := Report.Display.output request.mode events }

def runReadTest (request : Request) (device : String) (api : Option String) (start : Nat)
    (files : FileTree) : Response :=
  orFailure files (during s!"Failed to probe {device}" (DeviceInfo.probe files device)) fun info =>
  let api := match api with
    | none => .ok (Api.suggested info.ataCapable)
    | some word => (Api.ofWord word).mapError fun e => [e.message]
  orFailure files api fun api =>
  orFailure files
    (during s!"Failed to open {device}" (ReadTest.openPath .ofProcess files device api start))
    fun test =>
  runSurface request .readTest device ReadTest.procedure (fun _ files => files) test files

def runZeroFill (request : Request) (device : String) (confirmed : Bool) (files : FileTree) :
    Response :=
  if !confirmed then
    .ofFailure files [s!"zero-fill destroys everything on {device}; pass --yes to confirm"]
  else
    orFailure files (during s!"Failed to probe {device}" (DeviceInfo.probe files device)) fun _ =>
    orFailure files
      (during s!"Failed to open {device} for writing" (ZeroFill.openPath .ofProcess files device))
      fun fill =>
    runSurface request .zeroFill device ZeroFill.procedure (fun fill => fill.target.save) fill files

def runCommand (request : Request) (s : Surroundings) : Response :=
  match request.command with
  | .copy r => runCopy request r s
  | .readTest device api start => runReadTest request device api start s.files
  | .zeroFill device confirmed => runZeroFill request device confirmed s.files
  | .procedures =>
    .ofLines s.files
      (if request.json then Report.jsonLines Report.proceduresDatum
        else Report.procedureLines s.usualConfig)

def run (s : Surroundings) (words : List String) : Response :=
  match Request.parse (s.environment.lookup configVariable) words with
  | .error .misuse => .misuse s.files
  | .error (.inquiry "version") => .ofLines s.files [versionLine]
  | .error (.inquiry _) => .ofLines s.files [usageLine]
  | .ok request =>
    match request.logFile with
    | none => runCommand request s
    | some path =>
      orFailure s.files (openLog s.files path) fun files => runCommand request { s with files }

end DriveRescue.CommandLine
