import ChatSpace.Processes.Environment
import ChatSpace.Processes.Stream
import ChatSpace.Text.Utf8

namespace ChatSpace.Processes

inductive Program where
  | engine
  | named (name : Bytes)
deriving DecidableEq, Repr

def engineName : String := "git"

def Program.display : Program → String
  | .engine => engineName
  | .named name => Utf8.lossy name

structure Spec where
  program : Program
  args : List Bytes := []
  overrides : Environment := .empty
  workDir : Option Bytes := none
  streams : Streams := {}
deriving DecidableEq, Repr

namespace Spec

def ofProgram (program : Program) : Spec :=
  { program }

def engineIn (workDir : Bytes) (args : List String) : Spec :=
  { program := .engine, args := args.map Utf8.encode, workDir := some workDir }

def addArgs (s : Spec) (args : List Bytes) : Spec :=
  { s with args := s.args ++ args }

def setVariable (s : Spec) (name value : Bytes) : Spec :=
  { s with overrides := s.overrides.insert name value }

def setWorkDir (s : Spec) (dir : Bytes) : Spec :=
  { s with workDir := some dir }

def connect (s : Spec) (stream : Stream) (d : Disposition) : Spec :=
  match stream with
  | .stdin => { s with streams := { s.streams with stdin := d } }
  | .stdout => { s with streams := { s.streams with stdout := d } }
  | .stderr => { s with streams := { s.streams with stderr := d } }

def ends (s : Spec) : List PipeEnd :=
  s.streams.ends

def provisioned? (s : Spec) : Option Stream :=
  s.streams.provisioned?

def commandLine (s : Spec) : String :=
  String.intercalate " " (s.program.display :: s.args.map Utf8.lossy)

theorem get_connect (s : Spec) (stream other : Stream) (d : Disposition) :
    (s.connect stream d).streams.get other = if other = stream then d else s.streams.get other := by
  cases stream <;> cases other <;> rfl

end Spec

end ChatSpace.Processes
