import ChatSpace.CommandLine.Arguments
import ChatSpace.Space.Init
import ChatSpace.Space.Message
import ChatSpace.Space.Read

namespace ChatSpace.CommandLine

open Processes Writing

variable {σ : Type}

structure Report where
  code : Nat
  stdout : Bytes
  stderr : Bytes
deriving DecidableEq, Repr

def versionText : String := "git-chat 0.1.0\n"

def usageText : String :=
  "Usage: git-chat [-C <path>] <init [path] | message -m <text> | read [options] [commit]>\n"

def indented (first rest : String) (text : String) : String :=
  first ++ String.intercalate ("\n" ++ rest)
    ((Fields.split '\n' text.toList).map String.ofList)

def causesText : List String → String
  | [] => ""
  | [cause] => "\nCaused by:\n" ++ indented "    " "    " cause ++ "\n"
  | causes =>
      "\nCaused by:\n" ++ String.join (causes.mapIdx fun i cause =>
        indented (String.ofList (List.replicate (5 - (Decimal.digits i).length) ' ')
          ++ s!"{i}: ") "       " cause ++ "\n")

def chainText : List String → String
  | [] => ""
  | message :: causes => s!"Error: {message}\n" ++ causesText causes

def errorText (e : CommandError) : String :=
  chainText e.chain

structure Conditions where
  terminal : Bool
  delimiter : Batch.Delimiter

def openSpace (c : Conditions) (path : Bytes) : Act (Session σ) CommandError Space := do
  let s ← Act.current
  Space.openAt path (Settings.ofBytes s.world.valueOf?).pager c.terminal

def perform (c : Conditions) (request : Request) : Act (Session σ) CommandError Unit := do
  let s ← Act.current
  let base := request.directory.getD (Files.Path.ofLocation s.world.directory)
  match request.task with
  | .init path =>
      let space ← openSpace c ((path.map (Files.Path.join base)).getD base)
      space.init
  | .message text =>
      let space ← openSpace c base
      space.message text
  | .read start limit oneline abbreviated =>
      let space ← openSpace c base
      if c.terminal then space.startPager
      space.read c.delimiter { start, limit, oneline, abbreviated }

def fatalCode : Nat := 128

def reportOf (s : Session σ) : Except (Stop CommandError) Unit → Report
  | .ok () => ⟨0, s.writer.written, []⟩
  | .error (.failed e) => ⟨1, s.writer.written, Utf8.encode (errorText e)⟩
  | .error (.halted text) => ⟨fatalCode, s.writer.written, Utf8.encode (text ++ "\n")⟩

/-- A fresh session, in which an error in running a program ends the command at once. -/
def opening (w : World σ) : Session σ :=
  { world := { w with handler := .terminates }, writer := .sink {} }

def carryOut (c : Conditions) (request : Request) : Act (Session σ) CommandError Unit := do
  let result ← (perform c request).attempt
  Session.finishWriter
  match result with
  | .ok () => pure ()
  | .error e => Act.fail e

def runRequest (c : Conditions) (request : Request) (w : World σ) : Report × World σ :=
  match (carryOut c request).start (opening w) with
  | (result, s) => (reportOf s result, s.world)

def run (c : Conditions) (arguments : List Bytes) (w : World σ) : Report × World σ :=
  match Request.parse arguments with
  | .ok request => runRequest c request w
  | .error .version => (⟨0, Utf8.encode versionText, []⟩, w)
  | .error .help => (⟨0, Utf8.encode usageText, []⟩, w)
  | .error .usage => (⟨2, [], Utf8.encode usageText⟩, w)

end ChatSpace.CommandLine
