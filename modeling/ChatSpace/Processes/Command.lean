import ChatSpace.Files.Tree
import ChatSpace.Processes.Behaviour
import ChatSpace.Processes.Spec
import ChatSpace.Text.ShellWord

namespace ChatSpace.Processes

open Files

inductive Image where
  | native
  | script (interpreter : Bytes) (argument : Option Bytes)
  | text
deriving DecidableEq, Repr

namespace Image

def nativeMark : Bytes := [0x7F, 0x45, 0x4C, 0x46]

def scriptMark : Bytes := [0x23, 0x21]

def isGap (b : UInt8) : Bool :=
  b = Bytes.space || b = 0x09

def inWord (b : UInt8) : Bool :=
  !isGap b && b ≠ 0

def trimEnd (line : Bytes) : Bytes :=
  (line.reverse.dropWhile isGap).reverse

def ofScriptLine (line : Bytes) : Image :=
  let line := (trimEnd line).dropWhile isGap
  let word := line.takeWhile inWord
  -- an empty path is the directory itself, which cannot be run
  let interpreter := if word.isEmpty then Path.dot else word
  match line.drop word.length with
  | [] => if word.isEmpty then .text else .script interpreter none
  | b :: rest =>
      .script interpreter
        (if isGap b then some ((rest.dropWhile isGap).takeWhile (· ≠ 0)) else none)

/-- How much of a script the system looks at. A shorter file counts as filled up with zeros. -/
def lineRoom : Nat := 256

def ofScript (rest : Bytes) : Image :=
  let start := (rest ++ List.replicate lineRoom 0).take (lineRoom - scriptMark.length)
  let line := start.takeWhile fun b => b ≠ Bytes.newline && b ≠ 0
  if start[line.length]? = some Bytes.newline then ofScriptLine line
  else if (start.dropWhile isGap).all inWord then .text
  else ofScriptLine start.dropLast

def ofContent (content : Bytes) : Image :=
  if nativeMark.isPrefixOf content then .native
  else
    match Bytes.after? scriptMark content with
    | some rest => ofScript rest
    | none => .text

end Image

structure Command where
  path : Bytes
  args : List Bytes
  environment : Environment
  workDir : Option Bytes
  streams : Streams
deriving DecidableEq, Repr

inductive Request where
  | pipe
  | copy
  | null
  | process
deriving DecidableEq, Repr

namespace Command

def shell : String := "/bin/sh"

def throughShell (c : Command) : Command :=
  { c with
    path := Utf8.encode shell
    args :=
      [Utf8.encode "-c", Utf8.encode (ShellWord.line ((c.path :: c.args).map Utf8.lossy))] }

def variableStrings (c : Command) : List Bytes :=
  c.environment.bindings.map fun (name, value) => name ++ 0x3D :: value

def hasNul (c : Command) : Bool :=
  (c.path :: c.args ++ c.workDir.toList ++ c.variableStrings).any (·.contains 0)

def maxString : Nat := 131072

def maxTotal : Nat := 2097152

def room (s : Bytes) : Nat :=
  s.length + 1 + 8

def isTooLong (c : Command) (path : Bytes) : Bool :=
  let strings := c.path :: c.args ++ c.variableStrings
  strings.any (maxString ≤ ·.length) || maxTotal < path.length + 1 + total room strings

def visible (env : Environment) : Environment :=
  ⟨env.bindings.filter fun (name, _) => !name.isEmpty⟩

def runnableContent (t : Tree) (here : Location) (path : Bytes) : Except SystemError Bytes :=
  match t.resolve here path with
  | .error e => .error e
  | .ok (_, .file mode content) =>
      if Entry.isRunnable (.file mode content) then .ok content else .error .permissionDenied
  | .ok _ => .error .permissionDenied

section Loading

variable (formats : Bytes → Image) (t : Tree) (here : Location)

def interpret : Nat → Bytes → List Bytes → Except SystemError (Bytes × List Bytes)
  | 0, path, _ => do
      let _ ← runnableContent t here path
      throw .tooManyLinks
  | depth + 1, path, args => do
      let content ← runnableContent t here path
      match formats content with
      | .native => pure (content, args)
      | .text => throw .notExecutable
      | .script interpreter argument =>
          interpret depth interpreter (argument.toList ++ path :: args)

def maxDepth : Nat := 6

def loadFile (c : Command) (path : Bytes) (args : List Bytes) :
    Except SystemError (Bytes × List Bytes) := do
  let _ ← runnableContent t here path
  if c.isTooLong path then throw .tooManyArguments
  interpret formats t here maxDepth path args

/-- The C library gives a file in no format to the shell when it has searched for the file. -/
def loadFound (c : Command) (path : Bytes) : Except SystemError (Bytes × List Bytes) :=
  match loadFile formats t here c path c.args with
  | .error .notExecutable => loadFile formats t here c (Utf8.encode shell) (path :: c.args)
  | answer => answer

/-- Errors after which the C library tries the next directory. -/
def passedOver : List SystemError :=
  [.notFound, .notDirectory, .permissionDenied]

def loadFirst (c : Command) (last : SystemError) :
    List Bytes → Except SystemError (Bytes × List Bytes)
  | [] => .error last
  | path :: rest =>
      match loadFound formats t here c path with
      | .ok found => .ok found
      | .error e =>
          if e ∈ passedOver then
            loadFirst c (if last = .permissionDenied then last else e) rest
          else .error e

def defaultPath : Bytes := Utf8.encode "/bin:/usr/bin"

def candidates (c : Command) : List Bytes :=
  (Fields.split 0x3A ((c.environment.get? (Utf8.encode "PATH")).getD defaultPath)).map fun dir =>
    if dir.isEmpty then c.path else dir ++ Path.slash :: c.path

def load (c : Command) : Except SystemError (Bytes × List Bytes) :=
  if c.path.contains Path.slash then loadFile formats t here c c.path c.args
  else loadFirst formats t here c .notFound c.candidates

end Loading

def directory (c : Command) (t : Tree) (here : Location) : Except SystemError Location :=
  match c.workDir with
  | none => .ok here
  | some dir =>
      match t.resolve here dir with
      | .error e => .error e
      | .ok (location, .directory _) => .ok location
      | .ok _ => .error .notDirectory

/-- What starting a command takes. The search for its file is the new process's own, which reports
back through a pipe. -/
def requests (c : Command) : List Request :=
  if c.hasNul then []
  else
    (Streams.order.filter fun stream => c.streams.get stream = .null).map (fun _ => .null) ++
      (if c.path.contains Path.slash then [] else [.pipe]) ++ [.process]

end Command

end ChatSpace.Processes
