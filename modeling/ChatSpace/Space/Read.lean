import ChatSpace.Space.Basic

namespace ChatSpace.Space

open Processes Session History

variable {σ : Type}

structure ReadOptions where
  start : Option String := none
  limit : Option Nat := none
  oneline : Bool := false
  abbreviated : Bool := false
deriving DecidableEq, Repr

def highlight (colour : Bool) (text : String) : String :=
  if colour then s!"\x1b[33m{text}\x1b[0m" else text

def indent (line : String) : String :=
  "    " ++ line

def mediumLines (colour abbreviated : Bool) (c : Commit) : List String :=
  [highlight colour s!"commit {c.oid.shown abbreviated}",
    s!"Author: {c.author.display}",
    s!"Date:   {c.author.timestamp.text}",
    ""] ++ (Lines.ofText c.body).map indent

def shortLine (colour abbreviated : Bool) (c : Commit) : String :=
  s!"{highlight colour (c.oid.shown abbreviated)} {c.shortMessage}"

def lines (colour : Bool) (options : ReadOptions) (separate : Bool) (c : Commit) : List String :=
  if options.oneline then [shortLine colour options.abbreviated c]
  else (if separate then [""] else []) ++ mediumLines colour options.abbreviated c

def text (lines : List String) : String :=
  String.join (lines.map (· ++ "\n"))

structure Showing where
  writer : Writing.Writer
  shown : Nat := 0

def showCommit (space : Space) (options : ReadOptions) (c : Commit)
    (s : World σ × Showing) : Answer × (World σ × Showing) :=
  match s.2.writer.writeAll (Utf8.encode (text (lines space.colour options (0 < s.2.shown) c)))
    s.1 with
  | (.ok (), writer, w) => (.proceed, (w, ⟨writer, s.2.shown + 1⟩))
  | (.error e, writer, w) =>
      (if e.brokenPipe then .stop else .refuse [e.text], (w, ⟨writer, s.2.shown⟩))

def query (space : Space) (delimiter : Batch.Delimiter) (options : ReadOptions) : Query :=
  { workDir := space.path, start := options.start, limit := options.limit, delimiter }

def read (space : Space) (delimiter : Batch.Delimiter) (options : ReadOptions) :
    Act (Session σ) CommandError Unit := do
  let walk := traverse (space.query delimiter options) (space.showCommit options)
  let _ ← (walk.within (fun s => (s.world, ⟨s.writer, 0⟩))
    fun (world, showing) s => { s with world, writer := showing.writer }).mapError .history
  pure ()

end ChatSpace.Space
