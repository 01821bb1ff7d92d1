import ChatSpace.History.Traversal
import ChatSpace.Settings
import ChatSpace.Writing.Writer

namespace ChatSpace

open Processes Writing

inductive CommandError where
  | exec (error : ExecError)
  | exited (command : String) (status : Nat)
  | invalidOutput (command : String) (fault : Utf8.Fault)
  | objectId (error : ObjectIdError)
  | emptyMessage
  | alreadySpace (path : String)
  | makeSpace (path : String) (source : SystemError)
  | invalidPath (path : String) (source : SystemError)
  | makeFiles (path : String) (source : SystemError)
  | writeConfig (path : String) (source : SystemError)
  | output (error : WriteError)
  | history (error : History.TraversalError)
deriving DecidableEq, Repr

namespace CommandError

def message : CommandError → String
  | exec error => error.message
  | exited command status => s!"`{command}` exited with status {status}"
  | invalidOutput command _ => s!"`{command}` printed invalid UTF-8"
  | objectId error => error.message
  | emptyMessage => "Aborting message due to empty text"
  | alreadySpace path => s!"{path} is already a chat space"
  | makeSpace path _ => s!"Unable to create directory {path}"
  | invalidPath path _ => s!"Invalid repository path {path}"
  | makeFiles path _ => s!"Unable to create {path}"
  | writeConfig path _ => s!"Unable to write {path}"
  | output error => error.text
  | history _ => "could not read history"

def causes : CommandError → List String
  | exec error => error.causes
  | invalidOutput _ fault => [fault.message]
  | makeSpace _ source => [source.message]
  | invalidPath _ source => [source.message]
  | makeFiles _ source => [source.message]
  | writeConfig _ source => [source.message]
  | history error => error.message :: error.causes
  | _ => []

def chain (e : CommandError) : List String :=
  e.message :: e.causes

end CommandError

structure Space where
  location : Files.Location
  pager : Option String := none
  colour : Bool := false
deriving DecidableEq, Repr

structure Session (σ : Type) where
  world : World σ
  writer : Writer

namespace Session

variable {σ α : Type}

def onWorld (act : Act (World σ) ExecError α) : Act (Session σ) CommandError α :=
  (act.within Session.world fun world s => { s with world }).mapError .exec

def finishWriter : Act (Session σ) CommandError Unit := do
  match (← Act.current).writer with
  | .sink _ => pure ()
  | .pager p => onWorld p.drop

def putWriter (writer : Writer) : Act (Session σ) CommandError Unit := do
  finishWriter
  Act.change fun s => { s with writer }

def replaceWriter (writer : Writer) (s : Session σ) : Session σ :=
  ((putWriter writer).start s).2

def say (text : String) (s : Session σ) : Except WriteError Unit × Session σ :=
  match s.writer.writeAll (Utf8.encode text) s.world with
  | (result, writer, world) => (result, { s with writer, world })

def sayLine (line : String) : Act (Session σ) CommandError Unit := do
  match ← Act.does (say (line ++ "\n")) with
  | .ok () => pure ()
  | .error e => Act.fail (.output e)

def withFiles (s : Session σ) (files : Files.Tree) : Session σ :=
  { s with world := { s.world with plumbing := { s.world.plumbing with files } } }

def changeFiles (f : Files.Tree → Files.Location → Except (SystemError × Files.Tree) Files.Tree)
    (e : SystemError → CommandError) : Act (Session σ) CommandError Unit := do
  let s ← Act.current
  let result := f s.world.plumbing.files s.world.directory
  Act.change (·.withFiles (Files.Tree.after result))
  match result with
  | .ok _ => pure ()
  | .error (source, _) => Act.fail (e source)

def files (s : Session σ) : Files.Tree :=
  s.world.plumbing.files

end Session

namespace Space

open Session

variable {σ : Type}

def path (space : Space) : Bytes :=
  Files.Path.ofLocation space.location

def shownPath (space : Space) : String :=
  Utf8.lossy space.path

/-- Opens a directory, which is made first if nothing is there. Its path free of links may be too
long even if the path given is not. -/
def openAt (dir : Bytes) (pager : Option String) (colour : Bool) :
    Act (Session σ) CommandError Space := do
  let s ← Act.current
  if !s.files.present s.world.directory dir then
    changeFiles (fun t here => t.makeDirectories here dir) (.makeSpace (Utf8.lossy dir))
  let s ← Act.current
  match s.files.resolve s.world.directory dir with
  | .ok (location, _) =>
      if Files.Tree.maxPath ≤ (Files.Path.ofLocation location).length then
        Act.fail (.invalidPath (Utf8.lossy dir) .nameTooLong)
      pure { location, pager, colour }
  | .error source => Act.fail (.invalidPath (Utf8.lossy dir) source)

def engine (space : Space) (args : List String) : Spec :=
  Spec.engineIn space.path args

def runEngine (space : Space) (args : List String) : Act (Session σ) CommandError Unit := do
  let spec := (space.engine args).connect .stdout .null
  let code ← onWorld (Executor.run spec)
  if code ≠ 0 then Act.fail (.exited spec.commandLine code)

def captureEngine (space : Space) (args : List String) : Act (Session σ) CommandError String := do
  let spec := space.engine args
  let captured ← onWorld (Executor.capture spec)
  if captured.code ≠ 0 then Act.fail (.exited spec.commandLine captured.code)
  match Utf8.decode captured.stdout with
  | .ok text => pure (Blank.trimEnd text)
  | .error fault => Act.fail (.invalidOutput spec.commandLine fault)

def startPager (space : Space) : Act (Session σ) CommandError Unit :=
  match space.pager with
  | none => pure ()
  | some command => do
      let pager ← onWorld (Pager.spawn command)
      putWriter (.pager pager)

end Space

end ChatSpace
