import ChatSpace.Batch.Framer
import ChatSpace.Commit.Record
import ChatSpace.History.Query
import ChatSpace.Processes.ExecError

namespace ChatSpace

namespace History

open Processes

inductive TraversalError where
  | exec (error : ExecError)
  | helperExit (helper : Helper) (code : Nat)
  | protocol (error : Batch.ProtocolError)
  | parse (error : Commit.ParseError)
  | callback (chain : List String)
deriving DecidableEq, Repr

namespace TraversalError

def message : TraversalError → String
  | exec error => error.message
  | helperExit helper code => s!"git {helper.verb} exited with status {code}"
  | protocol error => "corrupt batch output: " ++ error.message
  | parse error => error.message
  | callback chain => "traversal callback failed: " ++ String.intercalate ": " chain

def causes : TraversalError → List String
  | exec error => error.causes
  | helperExit _ _ => []
  | protocol error => error.message :: error.causes
  | parse error => error.causes
  | callback _ => []

end TraversalError

inductive Answer where
  | proceed
  | stop
  | refuse (chain : List String)
deriving DecidableEq, Repr

inductive Outcome where
  | completed
  | stopped
deriving DecidableEq, Repr

inductive Verdict where
  | ended (outcome : Outcome)
  | failed (error : TraversalError)
  | unread (source : SystemError)
deriving DecidableEq, Repr

inductive Progress where
  | more (framer : Batch.Framer)
  | over (verdict : Verdict)
deriving DecidableEq, Repr

variable {S : Type}

def deliver (callback : Commit → S → Answer × S) (f : Batch.Framer) (s : S) : Progress × S :=
  match h : f.next with
  | .error e => (.over (.failed (.protocol e)), s)
  | .ok none => (.more f, s)
  | .ok (some (o, g)) =>
      match Commit.parse o.oid o.content with
      | .error e => (.over (.failed (.parse e)), s)
      | .ok commit =>
          match callback commit s with
          | (.refuse chain, s) => (.over (.failed (.callback chain)), s)
          | (.stop, s) => (.over (.ended .stopped), s)
          | (.proceed, s) =>
              have := Batch.Framer.buffered_lt_of_next h
              deliver callback g s
termination_by f.buffered

def Verdict.atEnd (f : Batch.Framer) : Verdict :=
  match f.finish with
  | .ok () => .ended .completed
  | .error e => .failed (.protocol e)

end History

open History

variable {S : Type}

def Batch.Framer.pump (read : S → Except SystemError Bytes × S) (callback : Commit → S → Answer × S)
    (f : Batch.Framer) (s : S) : Option (Verdict × S) :=
  match read s with
  | (.error e, s) => some (.unread e, s)
  | (.ok bytes, s) =>
      if bytes.isEmpty then some (.atEnd f, s)
      else
        match deliver callback (f.extend bytes) s with
        | (.more f, s) => f |>.pump read callback s
        | (.over verdict, s) => some (verdict, s)
partial_fixpoint

def History.beside {τ : Type} (read : S → Except SystemError Bytes × S) (s : S × τ) :
    Except SystemError Bytes × (S × τ) :=
  ((read s.1).1, ((read s.1).2, s.2))

end ChatSpace
