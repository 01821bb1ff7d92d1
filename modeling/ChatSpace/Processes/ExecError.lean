import ChatSpace.Processes.Stream
import ChatSpace.SystemError

namespace ChatSpace.Processes

inductive Operation where
  | run
  | capture
deriving DecidableEq, Repr

def Operation.name : Operation → String
  | .run => "run"
  | .capture => "capture"

inductive ExecError where
  | provisionedStream (operation : Operation) (stream : Stream)
  | programNotFound (program : String)
  | pipe (source : SystemError)
  | descriptor (program : String) (stream : Stream) (source : SystemError)
  | start (program : String) (source : SystemError)
  | wait (program : String) (pid : Nat) (source : SystemError)
  | read (program : String) (source : SystemError)
deriving DecidableEq, Repr

namespace ExecError

def message : ExecError → String
  | provisionedStream operation stream =>
      s!"`{operation.name}` cannot manage a provisioned {stream.name}"
  | programNotFound program => s!"cannot find executable `{program}` in PATH"
  | pipe _ => "cannot create pipe"
  | descriptor program stream _ => s!"cannot duplicate {stream.name} descriptor for `{program}`"
  | start program _ => s!"cannot start `{program}`"
  | wait program pid _ => s!"cannot wait for `{program}` (pid {pid})"
  | read program _ => s!"cannot read output of `{program}`"

def source? : ExecError → Option SystemError
  | provisionedStream _ _ => none
  | programNotFound _ => none
  | pipe source => some source
  | descriptor _ _ source => some source
  | start _ source => some source
  | wait _ _ source => some source
  | read _ source => some source

def causes (e : ExecError) : List String :=
  e.source?.toList.map SystemError.message

def text (e : ExecError) : String :=
  String.intercalate ": " (e.message :: e.causes)

def isProgramming : ExecError → Bool
  | provisionedStream _ _ => true
  | _ => false

end ExecError

end ChatSpace.Processes
