import ChatSpace.Commit.Signature
import ChatSpace.ObjectId
import ChatSpace.Text.Fields
import ChatSpace.Text.Lines

namespace ChatSpace

structure Commit where
  oid : ObjectId
  tree : ObjectId
  parents : List ObjectId
  author : Signature
  committer : Signature
  body : String
deriving DecidableEq, Repr, Inhabited

namespace Commit

inductive Header where
  | tree
  | parent
  | author
  | committer
deriving DecidableEq, Repr

def Header.name : Header → String
  | .tree => "tree"
  | .parent => "parent"
  | .author => "author"
  | .committer => "committer"

inductive ParseError where
  | missingTree (oid : ObjectId)
  | duplicateTree (oid : ObjectId)
  | invalidObjectId (oid : ObjectId) (header : Header) (source : ObjectIdError)
  | missingSignature (oid : ObjectId) (header : Header)
  | malformedSignature (oid : ObjectId) (header : Header) (line : String)
deriving DecidableEq, Repr

def ParseError.message : ParseError → String
  | .missingTree oid => s!"invalid commit object {oid.hex}: missing tree line"
  | .duplicateTree oid => s!"invalid commit object {oid.hex}: duplicate tree line"
  | .invalidObjectId oid header _ => s!"invalid commit object {oid.hex}: invalid {header.name} id"
  | .missingSignature oid header => s!"invalid commit object {oid.hex}: missing {header.name} line"
  | .malformedSignature oid header line =>
      s!"invalid commit object {oid.hex}: malformed {header.name} line: {line}"

def ParseError.causes : ParseError → List String
  | .invalidObjectId _ _ source => [source.message]
  | _ => []

def Header.lead (header : Header) : Bytes :=
  Utf8.encode header.name ++ [Bytes.space]

def Header.value? (header : Header) (line : Bytes) : Option Bytes :=
  Bytes.after? header.lead line

def objectId (oid : ObjectId) (header : Header) (value : Bytes) : Except ParseError ObjectId :=
  match ObjectId.ofHex value with
  | .ok id => .ok id
  | .error source => .error (.invalidObjectId oid header source)

def takeTree (oid : ObjectId) : List Bytes → Except ParseError (ObjectId × List Bytes)
  | [] => .error (.missingTree oid)
  | line :: lines =>
      match Header.tree.value? line with
      | none => .error (.missingTree oid)
      | some value => do
          let tree ← objectId oid .tree value
          pure (tree, lines)

def takeParents (oid : ObjectId) : List Bytes → Except ParseError (List ObjectId × List Bytes)
  | [] => .ok ([], [])
  | line :: lines =>
      match Header.parent.value? line with
      | none => .ok ([], line :: lines)
      | some value => do
          let parent ← objectId oid .parent value
          let (parents, rest) ← takeParents oid lines
          pure (parent :: parents, rest)

def refuseTree (oid : ObjectId) : List Bytes → Except ParseError Unit
  | [] => .ok ()
  | line :: _ =>
      match Header.tree.value? line with
      | none => .ok ()
      | some _ => .error (.duplicateTree oid)

/-- A signature header. Lines with the same header just after it are passed over unread. -/
def takeSignature (oid : ObjectId) (header : Header) :
    List Bytes → Except ParseError (Signature × List Bytes)
  | [] => .error (.missingSignature oid header)
  | line :: lines =>
      match header.value? line with
      | none => .error (.missingSignature oid header)
      | some value =>
          match Signature.parse value with
          | none => .error (.malformedSignature oid header (Utf8.lossy value))
          | some signature =>
              .ok (signature, lines.dropWhile fun line => (header.value? line).isSome)

def bodyOf : List Bytes → Bytes
  | [] => []
  | line :: lines => if line.isEmpty then Fields.join Bytes.newline lines else bodyOf lines

def parseLines (oid : ObjectId) (lines : List Bytes) : Except ParseError Commit := do
  let (tree, lines) ← takeTree oid lines
  let (parents, lines) ← takeParents oid lines
  refuseTree oid lines
  let (author, lines) ← takeSignature oid .author lines
  let (committer, lines) ← takeSignature oid .committer lines
  pure { oid, tree, parents, author, committer, body := Utf8.lossy (Bytes.trim (bodyOf lines)) }

def parse (oid : ObjectId) (raw : Bytes) : Except ParseError Commit :=
  parseLines oid (Fields.split Bytes.newline raw)

def layout (headers : List Bytes) (body : Bytes) : Bytes :=
  headers.flatMap (· ++ [Bytes.newline]) ++ Bytes.newline :: body

def headerLines (tree : ObjectId) (parents : List ObjectId) (author committer : Signature)
    (extra : List Bytes) : List Bytes :=
  (Header.tree.lead ++ tree.encode) :: parents.map (Header.parent.lead ++ ·.encode) ++
    [Header.author.lead ++ author.encode, Header.committer.lead ++ committer.encode] ++ extra

def shortMessage (c : Commit) : String :=
  Lines.first c.body

end Commit

end ChatSpace
