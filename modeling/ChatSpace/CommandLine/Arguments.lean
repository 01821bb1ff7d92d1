import ChatSpace.Text.Decimal

namespace ChatSpace.CommandLine

inductive Key where
  | directory
  | message
  | limit
  | oneline
  | abbreviated
  | help
  | version
deriving DecidableEq, Repr

inductive Refusal where
  | usage
  | help
  | version
deriving DecidableEq, Repr

structure Rule where
  key : Key
  short : Option UInt8 := none
  long : Option String := none
deriving DecidableEq, Repr

namespace Key

def takesValue : Key → Bool
  | directory | message | limit => true
  | _ => false

def count? (value : Bytes) : Option Nat :=
  let digits := if value.head? = some 0x2B then value.drop 1 else value
  (Decimal.unsignedUpTo? 0xFFFFFFFFFFFFFFFF digits).filter (0 < ·)

def accepts (key : Key) (value : Bytes) : Bool :=
  match key with
  | directory => !value.isEmpty
  | message => Utf8.isValid value
  | limit => (count? value).isSome
  | _ => true

end Key

structure Level where
  rules : List Rule
  positionals : Nat
  acceptsPositional : Bytes → Bool

def directoryRule : Rule := { key := .directory, short := some 0x43 }

def helpRule : Rule := { key := .help, short := some 0x68, long := some "help" }

namespace Level

def top : Level :=
  { rules :=
      [directoryRule, helpRule, { key := .version, short := some 0x56, long := some "version" }]
    positionals := 0
    acceptsPositional := fun _ => false }

def init : Level :=
  { rules := [directoryRule, helpRule]
    positionals := 1
    acceptsPositional := fun value => !value.isEmpty }

def message : Level :=
  { rules :=
      [directoryRule, helpRule, { key := .message, short := some 0x6D, long := some "message" }]
    positionals := 0
    acceptsPositional := fun _ => false }

def read : Level :=
  { rules :=
      [directoryRule, helpRule, { key := .limit, short := some 0x6E, long := some "max-count" },
        { key := .oneline, long := some "oneline" },
        { key := .abbreviated, long := some "abbrev-commit" }]
    positionals := 1
    acceptsPositional := Utf8.isValid }

end Level

inductive Token where
  | escape
  | long (name : Bytes) (value : Option Bytes)
  | short (letters : Bytes)
  | plain (value : Bytes)
deriving DecidableEq, Repr

def equals : UInt8 := 0x3D

def Token.ofBytes (bytes : Bytes) : Token :=
  match bytes with
  | [0x2D, 0x2D] => .escape
  | 0x2D :: 0x2D :: rest =>
      .long (rest.takeWhile (· ≠ equals)) (Bytes.after? [equals] (rest.dropWhile (· ≠ equals)))
  | 0x2D :: b :: rest => .short (b :: rest)
  | _ => .plain bytes

structure Found where
  values : List (Key × Bytes) := []
  positionals : List Bytes := []
  pending : Option Key := none
  literal : Bool := false
deriving DecidableEq, Repr

namespace Found

def add (f : Found) (key : Key) (value : Bytes) : Except Refusal Found :=
  if (f.values.lookup key).isSome then .error .usage
  else if key.accepts value then .ok { f with values := (key, value) :: f.values, pending := none }
  else .error .usage

def flag (f : Found) (key : Key) : Except Refusal Found :=
  match key with
  | .help => .error .help
  | .version => .error .version
  | key => f.add key []

def longOption (level : Level) (f : Found) (name : Bytes) (value : Option Bytes) :
    Except Refusal Found :=
  match level.rules.find? fun rule => rule.long.map Utf8.encode = some name with
  | none => .error .usage
  | some rule =>
      match rule.key.takesValue, value with
      | true, some value => f.add rule.key value
      | true, none => .ok { f with pending := some rule.key }
      | false, none => f.flag rule.key
      | false, some _ => .error .usage

def attached (letters : Bytes) : Bytes :=
  (Bytes.after? [equals] letters).getD letters

def shortOptions (level : Level) (f : Found) : Bytes → Except Refusal Found
  | [] => .ok f
  | letter :: letters =>
      match level.rules.find? fun rule => rule.short = some letter with
      | none => .error .usage
      | some rule =>
          if rule.key.takesValue then
            if letters.isEmpty then .ok { f with pending := some rule.key }
            else f.add rule.key (attached letters)
          else do
            let f ← f.flag rule.key
            shortOptions level f letters

def positional (level : Level) (f : Found) (value : Bytes) : Except Refusal Found :=
  if f.positionals.length < level.positionals && level.acceptsPositional value then
    .ok { f with positionals := f.positionals ++ [value] }
  else .error .usage

def step (level : Level) (f : Found) (argument : Bytes) : Except Refusal Found :=
  if f.literal then f.positional level argument
  else
    match f.pending, Token.ofBytes argument with
    | some key, .plain value => f.add key value
    | some _, _ => .error .usage
    | none, .escape => .ok { f with literal := true }
    | none, .long name value => f.longOption level name value
    | none, .short letters => f.shortOptions level letters
    | none, .plain value => f.positional level value

def finish (f : Found) : Except Refusal Found :=
  if f.pending.isSome then .error .usage else .ok f

def ofArguments (level : Level) (arguments : List Bytes) : Except Refusal Found := do
  let f ← arguments.foldlM (step level) {}
  f.finish

def value? (f : Found) (key : Key) : Option Bytes :=
  f.values.lookup key

def isSet (f : Found) (key : Key) : Bool :=
  (f.value? key).isSome

def text? (f : Found) (key : Key) : Option String :=
  (f.value? key).map Utf8.lossy

end Found

inductive Task where
  | init (path : Option Bytes)
  | message (text : String)
  | read (start : Option String) (limit : Option Nat) (oneline abbreviated : Bool)
deriving DecidableEq, Repr

structure Request where
  directory : Option Bytes
  task : Task
deriving DecidableEq, Repr

namespace Request

inductive Name where
  | init
  | message
  | read
deriving DecidableEq, Repr

def Name.text : Name → String
  | .init => "init"
  | .message => "message"
  | .read => "read"

def Name.ofBytes? (bytes : Bytes) : Option Name :=
  [Name.init, Name.message, Name.read].find? fun name => Utf8.encode name.text = bytes

def Name.level : Name → Level
  | .init => .init
  | .message => .message
  | .read => .read

def taskOf (name : Name) (f : Found) : Except Refusal Task :=
  match name with
  | .init => .ok (.init f.positionals.head?)
  | .message =>
      match f.text? .message with
      | some text => .ok (.message text)
      | none => .error .usage
  | .read =>
      .ok (.read (f.positionals.head?.map Utf8.lossy) ((f.value? .limit).bind Key.count?)
        (f.isSet .oneline) (f.isSet .abbreviated))

def ofCommand (top : Found) (name : Name) (arguments : List Bytes) : Except Refusal Request := do
  let f ← Found.ofArguments name.level arguments
  let task ← taskOf name f
  pure { directory := (f.value? .directory).orElse fun _ => top.value? .directory, task }

def helpName : Bytes := Utf8.encode "help"

def helpOn (topics : List Bytes) : Refusal :=
  match topics with
  | [] => .help
  | [topic] => if topic = helpName || (Name.ofBytes? topic).isSome then .help else .usage
  | _ => .usage

def parseFrom (top : Found) : List Bytes → Except Refusal Request
  | [] => .error .usage
  | argument :: arguments =>
      if top.pending.isNone && !top.literal && argument = helpName then
        .error (helpOn arguments)
      else
        match if top.pending.isNone && !top.literal then Name.ofBytes? argument else none with
        | some name => ofCommand top name arguments
        | none => do
            let top ← top.step Level.top argument
            parseFrom top arguments

def parse (arguments : List Bytes) : Except Refusal Request :=
  parseFrom {} arguments

end Request

end ChatSpace.CommandLine
