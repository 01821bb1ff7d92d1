import ChatSpace.Writing.Pager

namespace ChatSpace.Writing

open Processes

/-- An output that keeps the parts that it takes, the last one first. With `room`, it takes so many
bytes and then refuses. -/
structure Sink where
  room : Option Nat := none
  refusal : WriteError := default
  parts : List Bytes := []
deriving DecidableEq, Repr

namespace Sink

def written (s : Sink) : Bytes :=
  s.parts.reverse.flatten

def taken (s : Sink) (data : Bytes) : Bytes :=
  match s.room with
  | none => data
  | some room => data.take room

def writeAll (s : Sink) (data : Bytes) : Except WriteError Unit × Sink :=
  match s.room with
  | none => (.ok (), { s with parts := data :: s.parts })
  | some room =>
      (if data.length ≤ room then .ok () else .error s.refusal,
        { s with room := some (room - data.length), parts := data.take room :: s.parts })

theorem written_writeAll (s : Sink) (data : Bytes) :
    (s.writeAll data).2.written = s.written ++ s.taken data := by
  cases h : s.room <;> simp [writeAll, taken, written, h]

end Sink

inductive Writer where
  | sink (sink : Sink)
  | pager (pager : Pager)
deriving DecidableEq, Repr

namespace Writer

variable {σ : Type}

def writeAll (writer : Writer) (data : Bytes) (w : World σ) :
    Except WriteError Unit × Writer × World σ :=
  match writer with
  | sink s =>
      match s.writeAll data with
      | (result, s') => (result, sink s', w.speak (s.taken data))
  | pager p =>
      match p.writeAll data w with
      | (result, p, w) => (result, pager p, w)

def written : Writer → Bytes
  | sink s => s.written
  | pager _ => []

end Writer

end ChatSpace.Writing
