import ChatSpace.Processes.Command
import ChatSpace.Programs.Engine
import ChatSpace.Programs.Shell

namespace ChatSpace.Programs

open Processes

inductive Installed where
  | probe
  | shell
  | engine
deriving DecidableEq, Repr

namespace Installed

def name : Installed → String
  | probe => "probe"
  | shell => "shell"
  | engine => "engine"

def image (p : Installed) : Bytes :=
  Image.nativeMark ++ Utf8.encode p.name

def mode : Nat := 0o755

def entry (p : Installed) : Files.Entry :=
  .file mode p.image

def ofImage? (bytes : Bytes) : Option Installed :=
  [probe, shell, engine].find? fun p => p.image = bytes

end Installed

def machine (l : Launch) (e : Engine) : Behaviour × Engine :=
  match Installed.ofImage? l.image with
  | some .probe => (Probe.behaviour l, e)
  | some .shell => (Shell.behaviour l, e)
  | some .engine => e.behaviour l.args
  | none => ({ actions := [], exit := .code Shell.notFound }, e)

end ChatSpace.Programs
