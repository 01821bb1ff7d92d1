import ChatSpace.Batch.Summary
import ChatSpace.Processes.Spec

namespace ChatSpace.History

open Processes

inductive Helper where
  | lister
  | dumper
deriving DecidableEq, Repr

def Helper.verb : Helper → String
  | .lister => "rev-list"
  | .dumper => "cat-file"

structure Query where
  workDir : Bytes
  start : Option String
  limit : Option Nat
  delimiter : Batch.Delimiter
deriving DecidableEq, Repr

namespace Query

/-- What the lister starts from. A commit that is asked for stands behind the options, so that it is
never taken for one. -/
def selection (start : Option String) (limit : Option Nat) : List String :=
  match start, limit with
  | some start, _ => ["--max-count=1", "--end-of-options", start]
  | none, some limit => [s!"--max-count={limit}", "HEAD"]
  | none, none => ["HEAD"]

def listerArgs (start : Option String) (limit : Option Nat) : List String :=
  [Helper.lister.verb, "--first-parent", "--no-merges"] ++ selection start limit ++ ["--"]

def dumperArgs (delimiter : Batch.Delimiter) : List String :=
  [Helper.dumper.verb, delimiter.format]

def lister (q : Query) (link : Nat) : Spec :=
  (Spec.engineIn q.workDir (listerArgs q.start q.limit)).connect .stdout
    (.provisioned ⟨link, .writing⟩)

def dumper (q : Query) (link output : Nat) : Spec :=
  ((Spec.engineIn q.workDir (dumperArgs q.delimiter)).connect .stdin
    (.provisioned ⟨link, .reading⟩)).connect .stdout (.provisioned ⟨output, .writing⟩)

end Query

end ChatSpace.History
