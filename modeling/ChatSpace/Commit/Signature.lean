import ChatSpace.Commit.Timestamp
import ChatSpace.Text.Blank

namespace ChatSpace

structure Signature where
  name : String
  email : String
  timestamp : Timestamp
deriving DecidableEq, Repr, Inhabited

namespace Signature

def opening : UInt8 := 0x3C

def closing : UInt8 := 0x3E

def display (s : Signature) : String :=
  s!"{s.name} <{s.email}>"

def timestampOf (words : List String) : Timestamp :=
  { time := (words[0]?.bind Decimal.int64?).getD 0
    offset := (words[1]?.map Timestamp.offsetOf).getD 0 }

/-- A name, an address in angle brackets, and the time. The address ends at the first closing
bracket after the first opening one, and holds no other opening bracket. -/
def parse (value : Bytes) : Option Signature :=
  match value.dropWhile (· ≠ opening) with
  | [] => none
  | _ :: tail =>
      let email := tail.takeWhile (· ≠ closing)
      match tail.dropWhile (· ≠ closing) with
      | [] => none
      | _ :: rest =>
          if email.contains opening then none
          else some
            { name := Utf8.lossy (Bytes.trim (value.takeWhile (· ≠ opening)))
              email := Utf8.lossy email
              timestamp := timestampOf (Blank.asciiWords (Utf8.lossy rest)) }

def encode (s : Signature) : Bytes :=
  Utf8.encode (s!"{s.name} <{s.email}> {s.timestamp.time} "
    ++ String.ofList (Timestamp.offsetText s.timestamp.offset))

end Signature

end ChatSpace
