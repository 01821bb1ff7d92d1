import ChatSpace.Files.Tree
import ChatSpace.Processes.Environment
import ChatSpace.Processes.Signal

namespace ChatSpace.Processes

def total {α : Type} (measure : α → Nat) : List α → Nat
  | [] => 0
  | a :: rest => measure a + total measure rest

structure Launch where
  image : Bytes
  args : List Bytes
  environment : Environment
  directory : Files.Location
  files : Files.Tree

inductive Output where
  | stdout
  | stderr
  | file (path : Bytes)
deriving DecidableEq, Repr

/-- `create` makes a file or empties it, and `write` adds to an output. `transform` reads the
standard input to its end, or up to a number of bytes, and writes what a function makes of it. -/
inductive Action where
  | create (path : Bytes)
  | write (target : Output) (data : Bytes)
  | transform (limit : Option Nat) (target : Output) (f : Bytes → Bytes)

namespace Action

def weight : Action → Nat
  | create _ => 1
  | write _ _ => 1
  | transform _ _ _ => 2

def pending : Action → Nat
  | write _ data => 2 * data.length
  | _ => 0

end Action

/-- A program's actions and its end. A write that nobody can read any more ends it before. -/
structure Behaviour where
  actions : List Action
  exit : Exit
  broken : Exit := .signal Signal.brokenPipe

end ChatSpace.Processes
