import ChatSpace.Commit.Record
import ChatSpace.Processes.Behaviour
import ChatSpace.Text.Decimal

namespace ChatSpace.Programs

open Processes

structure StoredObject where
  name : Bytes
  kind : Bytes
  raw : Bytes
deriving DecidableEq, Repr

/-- A history, and answers that take the place of those that it gives rise to. The numbers by verb
are exit codes and signals. -/
structure Engine where
  history : List StoredObject := []
  listing : Option (List Bytes) := none
  stream : Option Bytes := none
  revision : Option Bytes := none
  exits : List (Bytes × Int) := []
  signals : List (Bytes × Nat) := []
  calls : List (List Bytes) := []
deriving Repr

namespace Engine

def word (text : String) : Bytes := Utf8.encode text

def line (bytes : Bytes) : Bytes := bytes ++ [Bytes.newline]

def following (name : String) (args : List Bytes) : Option Bytes :=
  match args.dropWhile (· ≠ word name) with
  | _ :: next :: _ => some next
  | _ => none

structure Reply where
  actions : List Action := []
  code : Int

def sayLines (lines : List Bytes) : Action :=
  .write .stdout (lines.flatMap line)

def failIf (failed : Bool) (code : Int) : Int :=
  if failed ∧ code = 0 then 128 else code

def list (e : Engine) (args : List Bytes) (code : Int) : Reply :=
  let all := e.listing.getD (e.history.map StoredObject.name)
  let chosen :=
    match following "--end-of-options" args with
    | none => all
    | some start => all.filter (· = start)
  let missing := args.contains (word "--end-of-options") && chosen.isEmpty
  let limit := args.findSome? fun arg =>
    (Bytes.after? (word "--max-count=") arg).bind Decimal.unsigned?
  let shown := match limit with
    | none => chosen
    | some n => chosen.take n
  ⟨[sayLines shown], failIf missing code⟩

def tokenOf (args : List Bytes) : Bytes :=
  ((args.findSome? (Bytes.after? (word "--batch="))).getD []).takeWhile (· ≠ Bytes.space)

def entry (history : List StoredObject) (token asked : Bytes) : Bytes :=
  match history.find? (·.name = asked) with
  | none => line (asked ++ word " missing")
  | some o =>
      line (Fields.join Bytes.space
        [token, o.name, o.kind, word (String.ofList (Decimal.digits o.raw.length))])
        ++ line o.raw

def asked (input : Bytes) : List Bytes :=
  let lines := Fields.split Bytes.newline input
  if lines.getLastD [] = [] then lines.dropLast else lines

def dump (e : Engine) (args : List Bytes) (code : Int) : Reply :=
  ⟨[.transform none .stdout fun input =>
      e.stream.getD ((asked input).flatMap (entry e.history (tokenOf args)))], code⟩

def hexDigits (width n : Nat) : List Char :=
  let digits := Nat.toDigits 16 n
  List.replicate (width - digits.length) '0' ++ digits

def nameOf (n : Nat) : Bytes :=
  word (String.ofList ((List.replicate 5 (hexDigits 8 (n * 0x9E3779B1 % 0x100000000))).flatten))

def emptyTree : String := "4b825dc642cb6eb9a060e54bf8d69288fbee4904"

def signatureOf (n : Nat) : Signature :=
  { name := "Ada Lovelace", email := "ada@example.com"
    timestamp := { time := 1700000000 + 3600 * n, offset := 90 } }

def commitOf (n : Nat) (parent : Option Bytes) (message : Bytes) : StoredObject :=
  let signature := (signatureOf n).encode
  { name := nameOf n
    kind := word "commit"
    raw := Commit.layout
      ((word "tree " ++ word emptyTree) :: parent.toList.map (word "parent " ++ ·) ++
        [Commit.Header.author.lead ++ signature, Commit.Header.committer.lead ++ signature])
      (line message) }

def commit (e : Engine) (args : List Bytes) : Engine :=
  let n := e.history.length + 1
  let parent := e.history.head?.map StoredObject.name
  { e with history := commitOf n parent ((following "-m" args).getD []) :: e.history }

def revise (e : Engine) (code : Int) : Reply :=
  match e.revision, e.history with
  | some text, _ => ⟨[.write .stdout text], code⟩
  | none, o :: _ => ⟨[sayLines [o.name]], code⟩
  | none, [] => ⟨[], failIf true code⟩

def behaviour (e : Engine) (args : List Bytes) : Behaviour × Engine :=
  let e := { e with calls := e.calls ++ [args] }
  let verb := args.headD []
  let code := (e.exits.lookup verb).getD 0
  let (reply, e) : Reply × Engine :=
    if verb = word "rev-list" then (e.list args code, e)
    else if verb = word "cat-file" then (e.dump args code, e)
    else if verb = word "commit" then (⟨[], code⟩, if code = 0 then e.commit args else e)
    else if verb = word "rev-parse" then (e.revise code, e)
    else (⟨[], code⟩, e)
  let exit := match e.signals.lookup verb with
    | some number => Exit.signal number
    | none => Exit.code (reply.code % 256).toNat
  ({ actions := reply.actions, exit }, e)

end Engine

end ChatSpace.Programs
