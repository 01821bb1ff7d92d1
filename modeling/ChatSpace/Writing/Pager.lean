import ChatSpace.Processes.Executor
import ChatSpace.Writing.Feed

namespace ChatSpace.Writing

open Processes

structure Pager where
  input : Option Nat
  handle : Option Handle
deriving DecidableEq, Repr

namespace Pager

variable {σ : Type}

def optionsVariable : Bytes := Utf8.encode "LESS"

def defaultOptions : Bytes := Utf8.encode "FRX"

def baseSpec (command : String) (pipe : Nat) : Spec :=
  ((Spec.ofProgram (.named (Utf8.encode "sh"))).addArgs
    [Utf8.encode "-c", Utf8.encode command]).connect .stdin (.provisioned ⟨pipe, .reading⟩)

def spec (command : String) (pipe : Nat) (environment : Variables) : Spec :=
  if (environment.get? optionsVariable).isSome then baseSpec command pipe
  else (baseSpec command pipe).setVariable optionsVariable defaultOptions

def spawn (command : String) : Act (World σ) ExecError Pager := do
  let pipe ← Executor.openPipe
  let w ← Act.current
  let handle ← (Executor.spawn (spec command pipe w.environment)).onFailure
    (·.close ⟨pipe, .writing⟩)
  pure ⟨some pipe, some handle⟩

def channel (pipe : Nat) : Channel (World σ) :=
  { send := fun data w => w.send pipe data
    flushOnce := fun w => (.accepted 0, w)
    close := fun w => w.close ⟨pipe, .writing⟩ }

def keep (p : Pager) (isOpen : Bool) : Pager :=
  { p with input := if isOpen then p.input else none }

def writeAll (p : Pager) (data : Bytes) (w : World σ) :
    Except WriteError Unit × Pager × World σ :=
  match p.input with
  | none => (.ok (), p, w)
  | some pipe =>
      match (channel pipe).writeAll true data w with
      | (result, isOpen, w) => (result, p.keep isOpen, w)

def flush (p : Pager) (w : World σ) : Except WriteError Unit × Pager × World σ :=
  match p.input with
  | none => (.ok (), p, w)
  | some pipe =>
      match (channel pipe).flush true w with
      | (result, isOpen, w) => (result, p.keep isOpen, w)

def finish (p : Pager) : Act (World σ) ExecError (Nat × Pager) := do
  match p.input with
  | some pipe => Executor.closeEnd pipe .writing
  | none => pure ()
  match p.handle with
  | some handle =>
      let code ← Executor.finish handle
      pure (code, ⟨none, none⟩)
  | none => pure (0, ⟨none, none⟩)

def drop (p : Pager) : Act (World σ) ExecError Unit := do
  let _ ← p.finish.attempt
  pure ()

end Pager

end ChatSpace.Writing
