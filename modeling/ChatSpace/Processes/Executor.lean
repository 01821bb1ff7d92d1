import ChatSpace.Processes.Act
import ChatSpace.Processes.Lookup
import ChatSpace.Processes.World

namespace ChatSpace.Processes

variable {σ α : Type}

namespace World

def report (w : World σ) (e : ExecError) : World σ :=
  { w with journal := { w.journal with alarms := w.journal.alarms ++ [⟨e, w.tally⟩] } }

def warn (w : World σ) (text : String) : World σ :=
  { w with journal := { w.journal with warnings := w.journal.warnings ++ [text] } }

def noteLabel (w : World σ) (label : String) : World σ :=
  { w with journal := { w.journal with labels := w.journal.labels ++ [label] } }

def searchPath (w : World σ) : Option Bytes :=
  w.valueOf? "PATH"

end World

structure Handle where
  child : Nat
  program : String
deriving DecidableEq, Repr

structure Captured where
  code : Nat
  stdout : Bytes
deriving DecidableEq, Repr

namespace Executor

/-- Gives an error to the handler and then to the caller, if the handler lets the parent go on. -/
def raise (e : ExecError) : Act (World σ) ExecError α := do
  Act.change (·.report e)
  match (← Act.current).handler with
  | .returns => Act.fail e
  | .terminates => throw (.halted s!"fatal: {e.text}")

def openPipe : Act (World σ) ExecError Nat := do
  match ← Act.does World.openPipe with
  | .ok pipe => pure pipe
  | .error source => raise (.pipe source)

def closeEnd (pipe : Nat) (side : Side) : Act (World σ) ExecError Unit :=
  Act.change (·.close ⟨pipe, side⟩)

def commandOf (w : World σ) (s : Spec) (path : Bytes) : Command :=
  { path
    args := s.args
    environment := Environment.merge w.environment.pairs s.overrides
    workDir := s.workDir
    streams := s.streams }

/-- Does a step while the pipe ends of some streams are duplicated, one after the other. The
duplicates are closed in any case. -/
def withCopies (s : Spec) (act : Act (World σ) ExecError α) :
    List Stream → Act (World σ) ExecError α
  | [] => act
  | stream :: rest =>
      match (s.streams.get stream).pipeEnd? with
      | none => withCopies s act rest
      | some e => do
          match ← Act.does (·.ask .copy) with
          | some source => raise (.descriptor s.program.display stream source)
          | none => do
              Act.change (·.copy e)
              (withCopies s act rest).andThen (·.dropCopy e)

def startLast (s : Spec) (c : Command) : Act (World σ) ExecError Nat := do
  match ← Act.does (·.start c) with
  | .ok child => pure child
  | .error source => raise (.start s.program.display source)

def startOr (s : Spec) (c : Command) (again : Act (World σ) ExecError Nat) :
    Act (World σ) ExecError Nat := do
  match ← Act.does (·.start c) with
  | .ok child => pure child
  | .error .notExecutable => again
  | .error source => raise (.start s.program.display source)

/-- Starts a command, once more through the shell if its file is not executable. The duplicates for
the first start are open during the second one, which has its own. -/
def startCommand (s : Spec) (c : Command) : Act (World σ) ExecError Nat :=
  withCopies s
    (startOr s c (withCopies s (startLast s c.throughShell) Streams.order)) Streams.order

def spawnHolding (s : Spec) : Act (World σ) ExecError Handle := do
  let w ← Act.current
  match Lookup.find? w.plumbing.files w.directory w.searchPath s.program with
  | none => raise (.programNotFound s.program.display)
  | some path => do
      Act.change (·.noteLabel s.streams.label)
      let child ← startCommand s (commandOf w s path)
      pure ⟨child, s.program.display⟩

def spawn (s : Spec) : Act (World σ) ExecError Handle :=
  (spawnHolding s).andThen (·.closeAll s.ends)

/-- Waits for a child. A death by signal is worth a warning, unless it is the broken pipe that is to
be expected after the parent has closed the child's output. -/
def reap (h : Handle) (brokenPipeExpected : Bool) : Act (World σ) ExecError Nat := do
  match ← Act.does (·.wait h.child) with
  | .error source => raise (.wait h.program (h.child + 1) source)
  | .ok exit => do
      match exit.warning? brokenPipeExpected with
      | some text => Act.change (·.warn text)
      | none => pure ()
      pure exit.status

def finish (h : Handle) : Act (World σ) ExecError Nat :=
  reap h false

def finishAfterClose (h : Handle) : Act (World σ) ExecError Nat :=
  reap h true

def drop (h : Handle) : Act (World σ) ExecError Unit :=
  Act.change fun w => (w.wait h.child).2

def refuse (s : Spec) (operation : Operation) (stream : Stream) : Act (World σ) ExecError α :=
  (raise (.provisionedStream operation stream)).andThen (·.closeAll s.ends)

def runBy (spawn : Spec → Act (World σ) ExecError Handle) (s : Spec) :
    Act (World σ) ExecError Nat :=
  match s.provisioned? with
  | some stream => refuse s .run stream
  | none => do
      let h ← spawn s
      finish h

def run (s : Spec) : Act (World σ) ExecError Nat :=
  runBy spawn s

def captureBy (spawn : Spec → Act (World σ) ExecError Handle) (s : Spec) :
    Act (World σ) ExecError Captured :=
  match s.provisioned? with
  | some stream => refuse s .capture stream
  | none => do
      let pipe ← openPipe
      let h ← (spawn (s.connect .stdout (.provisioned ⟨pipe, .writing⟩))).onFailure
        (·.close ⟨pipe, .reading⟩)
      let output ← Act.does (·.receiveAll pipe)
      closeEnd pipe .reading
      let code ← finish h
      match output with
      | .ok stdout => pure ⟨code, stdout⟩
      | .error source => raise (.read h.program source)

def capture (s : Spec) : Act (World σ) ExecError Captured :=
  captureBy spawn s

end Executor

end ChatSpace.Processes
