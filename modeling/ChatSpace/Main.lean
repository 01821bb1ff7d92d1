import ChatSpace.CommandLine.Run
import ChatSpace.Programs.Machine

namespace ChatSpace.Main

open Processes Programs

def directory : Files.Location := [Utf8.encode "space"]

def location (names : List String) : Files.Location :=
  names.map Utf8.encode

def files : Files.Tree :=
  .ofList
    [(directory, .directory []), (location ["bin", "sh"], Installed.shell.entry),
      (location ["bin", "git"], Installed.engine.entry)]

def world (environment : List (Bytes × Bytes)) : World Engine :=
  { state := {}
    programs := machine
    directory
    environment := (Utf8.encode "PATH", Utf8.encode "/bin") :: environment
    plumbing := { files } }

def variableNames : List String :=
  ["GIT_CHAT_NO_PAGER", "GIT_CHAT_PAGER", "PAGER", "LESS"]

def environment : IO (List (Bytes × Bytes)) :=
  variableNames.filterMapM fun name => do
    pure ((← IO.getEnv name).map fun value => (Utf8.encode name, Utf8.encode value))

def delimiter : IO Batch.Delimiter := do
  pure (.ofNumber (← IO.rand 0 0xFFFFFFFFFFFFFFFF))

def put (stream : IO.FS.Stream) (bytes : Bytes) : IO Unit :=
  stream.write bytes.toByteArray

end ChatSpace.Main

def main (arguments : List String) : IO UInt32 := do
  let stdout ← IO.getStdout
  let conditions : ChatSpace.CommandLine.Conditions :=
    { terminal := ← stdout.isTty, delimiter := ← ChatSpace.Main.delimiter }
  let world := ChatSpace.Main.world (← ChatSpace.Main.environment)
  let (report, after) :=
    ChatSpace.CommandLine.run conditions (arguments.map ChatSpace.Utf8.encode) world
  ChatSpace.Main.put stdout (after.plumbing.output ++ report.stdout)
  ChatSpace.Main.put (← IO.getStderr) (after.plumbing.errors ++ report.stderr)
  pure report.code.toUInt32
