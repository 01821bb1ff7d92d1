import ChatSpace.Text.Bytes

namespace ChatSpace.Batch

structure Backlog where
  front : Bytes
  late : List Bytes
  lateLength : Nat
  lateLength_eq : lateLength = late.flatten.length
deriving DecidableEq, Repr

namespace Backlog

def ofBytes (bytes : Bytes) : Backlog :=
  ⟨bytes, [], 0, rfl⟩

def toBytes (b : Backlog) : Bytes :=
  if b.late.isEmpty then b.front else b.front ++ b.late.reverse.flatten

def length (b : Backlog) : Nat :=
  b.front.length + b.lateLength

def push (b : Backlog) (part : Bytes) : Backlog :=
  ⟨b.front, part :: b.late, b.lateLength + part.length, by
    rw [b.lateLength_eq, List.flatten_cons, List.length_append, Nat.add_comm]⟩

theorem toBytes_eq (b : Backlog) : b.toBytes = b.front ++ b.late.reverse.flatten := by
  unfold toBytes
  split
  · next h => simp [List.isEmpty_iff.mp h]
  · rfl

@[simp] theorem toBytes_ofBytes (bytes : Bytes) : (ofBytes bytes).toBytes = bytes := rfl

@[simp] theorem toBytes_push (b : Backlog) (part : Bytes) :
    (b.push part).toBytes = b.toBytes ++ part := by
  simp [toBytes_eq, push]

theorem length_flatten_reverse (parts : List Bytes) :
    parts.reverse.flatten.length = parts.flatten.length := by
  induction parts with
  | nil => rfl
  | cons part parts ih =>
      rw [List.reverse_cons, List.flatten_append, List.length_append, ih, List.flatten_singleton,
        List.flatten_cons, List.length_append, Nat.add_comm]

@[simp] theorem length_toBytes (b : Backlog) : b.toBytes.length = b.length := by
  rw [toBytes_eq, length, List.length_append, length_flatten_reverse, ← b.lateLength_eq]

end Backlog

end ChatSpace.Batch
