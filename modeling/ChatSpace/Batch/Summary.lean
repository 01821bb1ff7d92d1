import ChatSpace.ObjectId
import ChatSpace.Text.Decimal
import ChatSpace.Text.Fields
import ChatSpace.Text.Quoted

namespace ChatSpace.Batch

structure Delimiter where
  token : String
deriving DecidableEq, Repr, Inhabited

def Delimiter.ofNumber (n : Nat) : Delimiter :=
  ⟨String.ofList ((List.range 16).map fun i => Nat.digitChar (n / Nat.pow 16 (15 - i) % 16))⟩

def Delimiter.format (d : Delimiter) : String :=
  s!"--batch={d.token} %(objectname) %(objecttype) %(objectsize)"

inductive ProtocolError where
  | delimiterMismatch (line : String)
  | malformedSummary (line : String)
  | invalidObjectId (source : ObjectIdError)
  | unexpectedType (oid : ObjectId) (kind : String)
  | missingTerminator (oid : ObjectId)
  | trailingBytes (count : Nat)
deriving DecidableEq, Repr

def ProtocolError.message : ProtocolError → String
  | .delimiterMismatch line =>
      "summary line does not carry this traversal's delimiter: " ++ Quoted.quote line
  | .malformedSummary line => "malformed summary line: " ++ Quoted.quote line
  | .invalidObjectId _ => "invalid object id in summary line"
  | .unexpectedType oid kind => s!"object {oid.hex} is a {kind}, expected commit"
  | .missingTerminator oid => s!"object {oid.hex} is not followed by a newline"
  | .trailingBytes count => s!"{count} unparsed bytes at end of batch output"

def ProtocolError.causes : ProtocolError → List String
  | .invalidObjectId source => [source.message]
  | _ => []

structure Summary where
  oid : ObjectId
  size : Nat
deriving DecidableEq, Repr

namespace Summary

def expectedType : Bytes := Utf8.encode "commit"

def limit : Nat := 0x10000000000000000

def ofFields (line : Bytes) : List Bytes → Except ProtocolError Summary
  | [oid, kind, size] => do
      match ObjectId.ofHex oid with
      | .error source => .error (.invalidObjectId source)
      | .ok oid =>
          if kind ≠ expectedType then .error (.unexpectedType oid (Utf8.lossy kind))
          else
            match Decimal.unsignedUpTo? (limit - 1) size with
            | none => .error (.malformedSummary (Utf8.lossy line))
            | some size => .ok ⟨oid, size⟩
  | _ => .error (.malformedSummary (Utf8.lossy line))

def parse (d : Delimiter) (line : Bytes) : Except ProtocolError Summary :=
  match Fields.split Bytes.space line with
  | [] => .error (.delimiterMismatch (Utf8.lossy line))
  | first :: fields =>
      if first ≠ Utf8.encode d.token then .error (.delimiterMismatch (Utf8.lossy line))
      else ofFields line fields

def encode (d : Delimiter) (s : Summary) : Bytes :=
  Fields.join Bytes.space
    [Utf8.encode d.token, s.oid.encode, expectedType,
      Utf8.encode (String.ofList (Decimal.digits s.size))]

end Summary

end ChatSpace.Batch
