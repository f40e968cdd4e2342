import DriveRescue.CommandLine.Run
import Std.Time

/-! The program: gathers the files that its command line names, does what it asks for, and puts what
came of it back. -/
namespace DriveRescue.Main

def environment : IO (List (String × String)) := do
  let bytes ← IO.FS.readBinFile "/proc/self/environ"
  let text := String.ofList (Text.decodeLossy bytes.data.toList)
  return (text.splitOn (Char.ofNat 0).toString).filterMap fun entry =>
    match entry.splitOn "=" with
    | name :: value => if value.isEmpty then none else some (name, "=".intercalate value)
    | [] => none

def pathOf (key : List String) : String := "/" ++ "/".intercalate key

def gather (files : FileTree) (path : String) : IO FileTree := do
  let key := Path.resolve files.working path
  let mut files := files
  for i in List.range key.length do
    let key := key.take (i + 1)
    if (files.lookup key).isNone then
      let place := (← IO.currentDir) / pathOf key
      if ← place.isDir then files := files.put key .directory
      else if ← place.pathExists then
        files := files.put key (.file (← IO.FS.readBinFile place).data)
  return files

def gatherAll (s : CommandLine.Surroundings) (paths : List String) :
    IO CommandLine.Surroundings := do
  return { s with files := ← paths.foldlM gather s.files }

def put (before after : FileTree) : IO Unit := do
  for (key, node) in after.nodes do
    if let .directory := node then
      if (before.lookup key).isNone then IO.FS.createDirAll (pathOf key)
  for (key, contents) in after.changes before do
    IO.FS.writeBinFile (pathOf key) ⟨contents⟩

def timestamp : IO String := do
  let now ← Std.Time.Timestamp.now
  return (Std.Time.DateTime.ofTimestamp now .UTC).format "uuuu-MM-dd'T'HH:mm:ss.SSSSSSSSSxxx"

end DriveRescue.Main

open DriveRescue in
def main (words : List String) : IO UInt32 := do
  let started ← IO.monoNanosNow
  let entries ← Main.environment
  let working := Path.resolve [] (← IO.currentDir).toString
  let surroundings := ⟨.bare working, entries, "/"⟩
  let surroundings ←
    match CommandLine.Request.parse (entries.lookup CommandLine.configVariable) words with
    | .ok request =>
      -- Twice, since a configuration file may name more files.
      let surroundings ← Main.gatherAll surroundings (request.paths surroundings)
      Main.gatherAll surroundings (request.paths surroundings)
    | .error _ => pure surroundings
  let response := CommandLine.run surroundings words
  response.output.forM fun line => IO.println line
  Main.put surroundings.files response.files
  let ended ← IO.monoNanosNow
  let timing := ⟨ended - started, ← Main.timestamp⟩
  (response.closing timing).forM fun line => IO.println line
  response.errors.forM fun line => IO.eprintln line
  return UInt32.ofNat response.exitCode
