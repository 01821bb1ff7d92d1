import ChatSpace.History.Delivery
import ChatSpace.Processes.Executor

namespace ChatSpace.History

open Processes

variable {σ τ α : Type}

def onWorld (act : Act (World σ) ExecError α) : Act (World σ × τ) TraversalError α :=
  (act.within Prod.fst fun w s => (w, s.2)).mapError .exec

def onWorldClosing (ends : List PipeEnd) (act : Act (World σ) ExecError α) :
    Act (World σ × τ) TraversalError α :=
  onWorld (act.onFailure (·.closeAll ends))

def readSize : Nat := 8192

def readOutput (output : Nat) (w : World σ) : Except SystemError Bytes × World σ :=
  w.receive output readSize

/-- Hands over the commits in a pipe, and closes the pipe. A walk that went on for ever would have
no verdict. -/
def stream (q : Query) (output : Nat)
    (callback : Commit → World σ × τ → Answer × (World σ × τ)) (s : World σ × τ) :
    Verdict × (World σ × τ) :=
  let f : Batch.Framer := { delimiter := q.delimiter }
  match (f.pump (beside (readOutput output)) callback s).getD (.unread .deadlock, s) with
  | (verdict, s) => (verdict, (s.1.close ⟨output, .reading⟩, s.2))

/-- Waits for a helper. Only a helper whose output was read to a clean end has no reason to die of a
broken pipe. -/
def reapHelper (h : Handle) (v : Verdict) : Act (World σ) ExecError Nat :=
  Executor.reap h (v ≠ .ended .completed)

/-- Starts both helpers. If the second one does not start, the first one is waited for. -/
def startHelpers (q : Query) (link output : Nat) :
    Act (World σ × τ) TraversalError (Handle × Handle) := do
  let lister ← onWorldClosing [⟨link, .reading⟩, ⟨output, .writing⟩, ⟨output, .reading⟩]
    (Executor.spawn (q.lister link))
  match ← onWorld (Act.attempt (Executor.spawn (q.dumper link output))) with
  | .ok dumper => pure (lister, dumper)
  | .error e => do
      let _ ← onWorldClosing [⟨output, .reading⟩] (Executor.finishAfterClose lister)
      onWorld (Executor.closeEnd output .reading)
      Act.fail (.exec e)

def reapLister (lister dumper : Handle) (v : Verdict) : Act (World σ × τ) TraversalError Nat := do
  match ← onWorld (Act.attempt (reapHelper lister v)) with
  | .ok code => pure code
  | .error e => do
      onWorld (Executor.drop dumper)
      Act.fail (.exec e)

/-- The result of a walk. The exit codes count only if the dump was read to a clean end, and the
lister's comes first. -/
def conclude (v : Verdict) (listerCode dumperCode : Nat) :
    Act (World σ × τ) TraversalError Outcome :=
  match v with
  | .failed e => Act.fail e
  | .unread source =>
      onWorld (Executor.raise (.read s!"{engineName} {Helper.dumper.verb}" source))
  | .ended .stopped => pure .stopped
  | .ended .completed =>
      if listerCode ≠ 0 then Act.fail (.helperExit .lister listerCode)
      else if dumperCode ≠ 0 then Act.fail (.helperExit .dumper dumperCode)
      else pure .completed

def traverse (q : Query) (callback : Commit → World σ × τ → Answer × (World σ × τ)) :
    Act (World σ × τ) TraversalError Outcome := do
  let link ← onWorld Executor.openPipe
  let output ← onWorldClosing [⟨link, .reading⟩, ⟨link, .writing⟩] Executor.openPipe
  let (lister, dumper) ← startHelpers q link output
  let verdict ← Act.does (stream q output callback)
  let listerCode ← reapLister lister dumper verdict
  let dumperCode ← onWorld (reapHelper dumper verdict)
  conclude verdict listerCode dumperCode

end ChatSpace.History
