import ChatSpace.Text.Bytes
import ChatSpace.Text.Fields

namespace ChatSpace.Files

abbrev Name := Bytes

abbrev Location := List Name

namespace Path

def slash : UInt8 := 0x2F

def dot : Name := [0x2E]

def dotDot : Name := [0x2E, 0x2E]

def isAbsolute (path : Bytes) : Bool :=
  path.head? = some slash

def names (path : Bytes) : List Name :=
  (Fields.split slash path).filter fun name => !name.isEmpty

/-- The names to go through. A slash at the end asks for a directory, as a last name `.` does. -/
def steps (path : Bytes) : List Name :=
  names path ++ if path.getLast? = some slash then [dot] else []

def normalNames (path : Bytes) : List Name :=
  match names path with
  | [] => []
  | first :: rest =>
      (if first = dot ∧ isAbsolute path then [] else [first]) ++ rest.filter (· ≠ dot)

def ofNames (absolute : Bool) (names : List Name) : Bytes :=
  (if absolute then [slash] else []) ++ Fields.join slash names

def join (base rest : Bytes) : Bytes :=
  if isAbsolute rest then rest
  else if base.isEmpty then rest
  else if base.getLast? = some slash then base ++ rest
  else base ++ slash :: rest

def ofLocation (location : Location) : Bytes :=
  slash :: Fields.join slash location

end Path

end ChatSpace.Files
