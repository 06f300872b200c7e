import DocumentQuery.Command

/-!
# The program

Runs the command with the arguments, the environment, the files and the streams of the process.
-/

namespace DocumentQuery

namespace Program

/-- The variables of the environment that hold settings. -/
def settingVariables : List String :=
  ["TQ_INPUT_FORMAT", "TQ_OUTPUT_FORMAT", "TQ_COLOR", "TQ_LOG_LEVEL"]

/-- The settings in the environment of the process. -/
def environment : IO (Text → Option Text) := do
  let found ← settingVariables.filterMapM fun name => do
    return (← IO.getEnv name).map fun value => (Text.ofString name, Text.ofString value)
  return fun name => found.lookup name

/-- Why a file was not read. -/
def faultOf : IO.Error → FileTree.Fault
  | .inappropriateType none _ _ => .isDirectory
  | .inappropriateType (some _) _ _ => .notDirectory
  | .invalidArgument _ _ _ => .nameTooLong
  | _ => .missing

/-- The content of the file that a path leads to; an empty path leads to the working directory. -/
def contentAt (path : Text) : IO (Except FileTree.Fault (List UInt8)) := do
  match path.toString? with
  | none => return .error .missing
  | some name =>
      match ← (IO.FS.readBinFile (if name.isEmpty then "." else name)).toBaseIO with
      | .ok bytes => return .ok bytes.toList
      | .error e => return .error (faultOf e)

/-- All bytes that a stream still has, after those that have been read from it. -/
partial def bytesOf (stream : IO.FS.Stream) (before : ByteArray) : IO ByteArray := do
  let bytes ← stream.read 65536
  if bytes.isEmpty then return before else bytesOf stream (before ++ bytes)

/-- The files and the standard input that the command needs when it runs with the given words. -/
def world (words : List Text) : IO Command.World := do
  let environment ← environment
  let nothing : Command.World := ⟨environment, fun _ => .error .missing, []⟩
  match Settings.ofEnvironment environment with
  | .error _ => return nothing
  | .ok settings =>
      match (Arguments.parse settings words).map Arguments.file with
      | .ok (.text path) =>
          let content ← contentAt path
          return { nothing with contentOf := fun _ => content }
      | .ok .absent =>
          let bytes ← bytesOf (← IO.getStdin) .empty
          return { nothing with stdin := bytes.toList }
      | _ => return nothing

/-- Writes a text to a stream. -/
def put (stream : IO.FS.Stream) (t : Text) : IO Unit := do
  stream.write ⟨(Utf8.encode t).toArray⟩
  stream.flush

end Program

end DocumentQuery

open DocumentQuery in
/-- Runs the command and answers with its exit status. -/
def main (words : List String) : IO UInt32 := do
  let words := words.map Text.ofString
  let stdout ← IO.getStdout
  let stderr ← IO.getStderr
  match Command.run (← Program.world words) words with
  | .finished status result report log =>
      for message in log.getD [] do
        Program.put stderr ("DEBUG    " ++ message ++ "\n")
      Program.put stdout result
      Program.put stderr report
      return status.toUInt32
  | .refused e =>
      Program.put stderr (e.message ++ "\n")
      return 1
  | .escaped e =>
      Program.put stderr (e.message ++ "\n")
      return 1
