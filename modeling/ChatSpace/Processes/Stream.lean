
namespace ChatSpace.Processes

inductive Stream where
  | stdin
  | stdout
  | stderr
deriving DecidableEq, Repr, Inhabited

def Stream.name : Stream → String
  | .stdin => "stdin"
  | .stdout => "stdout"
  | .stderr => "stderr"

inductive Side where
  | reading
  | writing
deriving DecidableEq, Repr

structure PipeEnd where
  pipe : Nat
  side : Side
deriving DecidableEq, Repr

inductive Disposition where
  | inherited
  | provisioned (pipeEnd : PipeEnd)
  | null
deriving DecidableEq, Repr, Inhabited

namespace Disposition

def label : Disposition → String
  | inherited => "inherited"
  | provisioned _ => "provisioned"
  | null => "null"

def pipeEnd? : Disposition → Option PipeEnd
  | provisioned e => some e
  | _ => none

def isProvisioned (d : Disposition) : Bool :=
  d.pipeEnd?.isSome

end Disposition

structure Streams where
  stdin : Disposition := .inherited
  stdout : Disposition := .inherited
  stderr : Disposition := .inherited
deriving DecidableEq, Repr

namespace Streams

def get (s : Streams) : Stream → Disposition
  | .stdin => s.stdin
  | .stdout => s.stdout
  | .stderr => s.stderr

def order : List Stream := [.stdin, .stdout, .stderr]

def ends (s : Streams) : List PipeEnd :=
  order.filterMap fun stream => (s.get stream).pipeEnd?

def provisioned? (s : Streams) : Option Stream :=
  order.find? fun stream => (s.get stream).isProvisioned

def label (s : Streams) : String :=
  s!"stdin={s.stdin.label} stdout={s.stdout.label} stderr={s.stderr.label}"

theorem provisioned?_eq_none_iff {s : Streams} : s.provisioned? = none ↔ s.ends = [] := by
  simp [provisioned?, ends, List.find?_eq_none, List.filterMap_eq_nil_iff,
    Disposition.isProvisioned]

end Streams

end ChatSpace.Processes
