import ChatSpace.Processes.Command
import ChatSpace.Text.Decimal

namespace ChatSpace.Programs

open Processes

def upperCase (bytes : Bytes) : Bytes :=
  bytes.map fun b => if 0x61 ≤ b && b ≤ 0x7A then b - 0x20 else b

def countText (n : Nat) : Bytes :=
  Utf8.encode (String.ofList (Decimal.digits n))

def valueOf? (env : Environment) (name : Bytes) : Option Bytes :=
  if name.isEmpty then none
  else
    env.bindings.findSome? fun (first, value) =>
      Bytes.after? (name ++ [0x3D]) (first ++ 0x3D :: value)

namespace Probe

def exitCode (bytes : Bytes) : Nat :=
  (((Decimal.signed? bytes).getD 0) % 256).toNat

def number (bytes : Bytes) : Nat :=
  ((Decimal.signed? bytes).getD 0).toNat

def shown (arg : Bytes) : Bytes :=
  0x3C :: arg ++ [0x3E]

inductive Wish where
  | act (action : Action)
  | show
  | stop (exit : Exit)
  | nothing

def output (data : Bytes) : Wish :=
  .act (.write .stdout data)

def wishes (l : Launch) : List (String × (Bytes → Wish)) :=
  [("out:", output),
    ("err:", fun text => .act (.write .stderr text)),
    ("env:", fun name =>
      output ((valueOf? l.environment name).getD (Utf8.encode "(unset)"))),
    ("fill:", fun n => output (List.replicate (number n) 0x78)),
    ("exit:", fun n => .stop (.code (exitCode n))),
    ("signal:", fun n => .stop (.signal (number n)))]

def wish (l : Launch) (arg : Bytes) : Wish :=
  if arg = Utf8.encode "cwd" then output (Files.Path.ofLocation l.directory)
  else if arg = Utf8.encode "cat" then .act (.transform none .stdout id)
  else if arg = Utf8.encode "upper" then .act (.transform none .stdout upperCase)
  else if arg = Utf8.encode "count" then
    .act (.transform none .stdout fun bytes => countText bytes.length)
  else if arg = Utf8.encode "show" then .show
  else
    ((wishes l).findSome? fun (lead, f) => (Bytes.after? (Utf8.encode lead) arg).map f).getD
      .nothing

def behaviourOf (l : Launch) : List Bytes → Behaviour
  | [] => { actions := [], exit := .code 0 }
  | arg :: args =>
      match wish l arg with
      | .show =>
          { actions := args.map fun arg => .write .stdout (shown arg), exit := .code 0 }
      | .stop exit => { actions := [], exit }
      | .nothing => behaviourOf l args
      | .act action =>
          let b := behaviourOf l args
          { b with actions := action :: b.actions }

def behaviour (l : Launch) : Behaviour :=
  behaviourOf l l.args

end Probe

end ChatSpace.Programs
