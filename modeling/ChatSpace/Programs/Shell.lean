import ChatSpace.Programs.Probe

namespace ChatSpace.Programs.Shell

open Processes

inductive Redirection where
  | into
  | onto
  | errorsInto
deriving DecidableEq, Repr

inductive Token where
  | word (bytes : Bytes)
  | redirect (redirection : Redirection)
  | next
deriving DecidableEq, Repr

inductive Mode where
  | plain
  | single
  | double
deriving DecidableEq, Repr

structure Scope where
  environment : Environment
  parameters : List Bytes

structure Scanner where
  mode : Mode := .plain
  tokens : List Token := []
  word : Option Bytes := none
  name : Option Bytes := none
  escaped : Bool := false
deriving Repr

namespace Scanner

def isNameByte (b : UInt8) : Bool :=
  (0x61 ≤ b && b ≤ 0x7A) || (0x41 ≤ b && b ≤ 0x5A) || (0x30 ≤ b && b ≤ 0x39) || b = 0x5F

def add (s : Scanner) (bytes : Bytes) : Scanner :=
  { s with word := some (bytes.reverse ++ s.word.getD []) }

def endWord (s : Scanner) : Scanner :=
  match s.word with
  | none => s
  | some w => { s with tokens := .word w.reverse :: s.tokens, word := none }

def push (s : Scanner) (token : Token) : Scanner :=
  { s.endWord with tokens := token :: s.endWord.tokens }

def redirect (s : Scanner) : Scanner :=
  if s.word = some [0x32] then { s with word := none, tokens := .redirect .errorsInto :: s.tokens }
  else
    match s.word, s.tokens with
    | none, .redirect .into :: tokens => { s with tokens := .redirect .onto :: tokens }
    | _, _ => s.push (.redirect .into)

def addParameters (s : Scanner) : List Bytes → Scanner
  | [] => if s.word = some [] then { s with word := none } else s
  | [last] => s.add last
  | first :: rest => ((s.add first).endWord).addParameters rest

def startWord (s : Scanner) : Scanner :=
  s.add []

def plain (s : Scanner) (b : UInt8) : Scanner :=
  if b = 0x27 then { s.startWord with mode := .single }
  else if b = 0x22 then { s.startWord with mode := .double }
  else if b = 0x5C then { s with escaped := true }
  else if b = 0x24 then { s with name := some [] }
  else if b = 0x3E then s.redirect
  else if b = 0x3B || b = 0x0A then s.push .next
  else if b = 0x20 || b = 0x09 then s.endWord
  else s.add [b]

def enter (s : Scanner) (b : UInt8) : Scanner :=
  if s.escaped then { s.add [b] with escaped := false }
  else
    match s.mode with
    | .plain => s.plain b
    | .single => if b = 0x27 then { s with mode := .plain } else s.add [b]
    | .double =>
        if b = 0x22 then { s with mode := .plain }
        else if b = 0x24 then { s with name := some [] }
        else if b = 0x5C then { s with escaped := true }
        else s.add [b]

def ownProcess : Bytes := [0x24, 0x24]

def endName (scope : Scope) (s : Scanner) : Scanner :=
  match s.name with
  | none => s
  | some [] => { s.add [0x24] with name := none }
  | some name =>
      let value := (valueOf? scope.environment name.reverse).getD []
      if s.mode = .plain ∧ value = [] then { s with name := none }
      else { s.add value with name := none }

def step (scope : Scope) (s : Scanner) (b : UInt8) : Scanner :=
  match s.name with
  | none => s.enter b
  | some name =>
      if isNameByte b then { s with name := some (b :: name) }
      else if name.isEmpty && b = 0x24 then { s.add ownProcess with name := none }
      else if name.isEmpty && b = 0x40 then
        { s.addParameters scope.parameters with name := none }
      else (s.endName scope).enter b

end Scanner

def tokens (scope : Scope) (script : Bytes) : List Token :=
  ((script.foldl (Scanner.step scope) {}).endName scope).endWord.tokens.reverse

structure Statement where
  words : List Bytes := []
  redirections : List (Redirection × Bytes) := []
deriving Repr

namespace Statement

def addWord (w : Bytes) (s : Statement) : Statement :=
  { s with words := w :: s.words }

def addRedirection (r : Redirection) (path : Bytes) (s : Statement) : Statement :=
  { s with redirections := (r, path) :: s.redirections }

def ofTokens : List Token → Statement
  | [] => {}
  | .redirect r :: .word path :: rest => (ofTokens rest).addRedirection r path
  | .word w :: rest => (ofTokens rest).addWord w
  | _ :: rest => ofTokens rest

end Statement

def statements (tokens : List Token) : List Statement :=
  ((Fields.split .next tokens).filter (!·.isEmpty)).map Statement.ofTokens

structure Effect where
  actions : List Action := []
  status : Exit := .code 0
  keepsStatus : Bool := false
  broken : Exit := .signal Signal.brokenPipe
  final : Bool := false

def Effect.returned (e : Effect) : Effect :=
  { e with status := .code e.status.status, broken := .code e.broken.status, final := false }

def formatParts : Bytes → Bytes → List Bytes
  | [], part => [part]
  | 0x25 :: 0x73 :: rest, part => part :: formatParts rest []
  | b :: rest, part => formatParts rest (part ++ [b])

def format (text : Bytes) (args : List Bytes) : Bytes :=
  match formatParts text [] with
  | [before, after] => (if args.isEmpty then [[]] else args).flatMap (before ++ · ++ after)
  | parts => parts.flatten

def notFound : Nat := 127

def word (text : String) : Bytes := Utf8.encode text

def misused : Nat := 2

def isGap (b : UInt8) : Bool :=
  Bytes.isBlank b || b = 0x0B

def number? (bytes : Bytes) : Option Nat :=
  let digits := ((bytes.dropWhile isGap).reverse.dropWhile isGap).reverse
  (Decimal.signedBy (Decimal.unsignedUpTo? 0) (Decimal.unsignedUpTo? 0x7FFFFFFF) digits).map
    Int.toNat

def exit : List Bytes → Effect
  | [] => { keepsStatus := true, final := true }
  | code :: _ => { status := .code (((number? code).map (· % 256)).getD misused), final := true }

def lastSignal : Nat := 64

def kill (digits : Bytes) : Effect :=
  match Decimal.unsignedUpTo? lastSignal digits with
  | none => { status := .code misused }
  | some number =>
      if Signal.isDeadly number then { status := .signal number, final := true } else {}

def viewers : List Bytes := [word "cat", word "less", word "more"]

def simple (target : Output) : List Bytes → Effect
  | [] => {}
  | command :: args =>
      if command ∈ viewers then { actions := [.transform none target id] }
      else if command = word "tr" ∧ args = [word "a-z", word "A-Z"] then
        { actions := [.transform none target upperCase] }
      else if command = word "head" ∧ args.head? = some (word "-c") then
        { actions := [.transform (some (Probe.number (args.getD 1 []))) target id] }
      else if command = word "printf" then
        { actions := [.write target (format (args.headD []) args.tail)] }
      else if command = word "exit" then exit args
      else if command = word "kill" ∧ args.getD 1 [] = Scanner.ownProcess then
        kill ((args.headD []).drop 1)
      else
        { actions := [.write .stderr (command ++ word ": not found\n")]
          status := .code notFound }

def opened : List (Redirection × Bytes) → List Action × Output
  | [] => ([], .stdout)
  | redirections =>
      (redirections.filterMap fun (r, path) => if r = .onto then none else some (.create path),
        ((redirections.filter (·.1 ≠ .errorsInto)).getLast?.map fun (_, path) =>
          Output.file path).getD .stdout)

def sendErrors (redirections : List (Redirection × Bytes)) (action : Action) : Action :=
  match action, redirections.find? (·.1 = .errorsInto) with
  | .write .stderr data, some (_, path) => .write (.file path) data
  | action, _ => action

def scriptAt (l : Launch) (path : Bytes) : Option Bytes :=
  if path.contains Files.Path.slash then
    match Command.runnableContent l.files l.directory path with
    | .ok content => if Image.ofContent content = .text then some content else none
    | .error _ => none
  else none

def statement (run : Bytes → List Bytes → Effect) (l : Launch) (s : Statement) : Effect :=
  let (opening, target) := opened s.redirections
  let effect : Effect :=
    match s.words with
    | [] => {}
    | command :: args =>
        match scriptAt l command with
        | some content => (run content args).returned
        | none => simple target s.words
  { effect with actions := opening ++ effect.actions.map (sendErrors s.redirections) }

def sequence : List Effect → Effect
  | [] => {}
  | [effect] => effect
  | effect :: rest =>
      if effect.final then effect
      else
        let after := sequence rest
        { after with
          actions := effect.actions ++ after.actions
          status := if after.keepsStatus then effect.status else after.status
          keepsStatus := effect.keepsStatus && after.keepsStatus }

def script (depth : Nat) (l : Launch) (content : Bytes) (parameters : List Bytes) : Effect :=
  match depth with
  | 0 => { status := .code notFound }
  | depth + 1 =>
      sequence ((statements (tokens ⟨l.environment, parameters⟩ content)).map
        (statement (script depth l) l))

def maxDepth : Nat := 16

def behaviour (l : Launch) : Behaviour :=
  match l.args with
  | _ :: content :: _ =>
      let effect := script maxDepth l content []
      { actions := effect.actions, exit := effect.status, broken := effect.broken }
  | _ => { actions := [], exit := .code 0 }

end ChatSpace.Programs.Shell
