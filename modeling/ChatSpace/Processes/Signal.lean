
namespace ChatSpace.Processes

namespace Signal

def names : List String :=
  ["SIGHUP", "SIGINT", "SIGQUIT", "SIGILL", "SIGTRAP", "SIGABRT", "SIGBUS", "SIGFPE", "SIGKILL",
    "SIGUSR1", "SIGSEGV", "SIGUSR2", "SIGPIPE", "SIGALRM", "SIGTERM", "SIGSTKFLT", "SIGCHLD",
    "SIGCONT", "SIGSTOP", "SIGTSTP", "SIGTTIN", "SIGTTOU", "SIGURG", "SIGXCPU", "SIGXFSZ",
    "SIGVTALRM", "SIGPROF", "SIGWINCH", "SIGIO", "SIGPWR", "SIGSYS"]

def name (number : Nat) : String :=
  match number with
  | 0 => "unknown signal"
  | n + 1 => (names[n]?).getD "unknown signal"

def brokenPipe : Nat := 13

/-- The signals that leave a process alone unless it asks for them. -/
def ignored : List Nat := [17, 18, 23, 28]

def isDeadly (number : Nat) : Bool :=
  number ≠ 0 && !ignored.contains number

end Signal

inductive Exit where
  | code (code : Nat)
  | signal (number : Nat)
deriving DecidableEq, Repr, Inhabited

def Exit.status : Exit → Nat
  | .code n => n
  | .signal number => 128 + number

def Exit.warning? (brokenPipeExpected : Bool) : Exit → Option String
  | .code _ => none
  | .signal number =>
      if number = Signal.brokenPipe ∧ brokenPipeExpected then none
      else some s!"child died of {Signal.name number}"

end ChatSpace.Processes
