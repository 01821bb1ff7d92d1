import ChatSpace.Processes.World

namespace ChatSpace.Writing

open Processes

structure WriteError where
  brokenPipe : Bool
  text : String
deriving DecidableEq, Repr, Inhabited

def WriteError.ofSystem (e : SystemError) : WriteError :=
  ⟨e = .brokenPipe, e.message⟩

def WriteError.stuck : WriteError :=
  ⟨false, "failed to write whole buffer"⟩

structure Channel (S : Type) where
  send : Bytes → S → Sent × S
  flushOnce : S → Sent × S
  close : S → S

namespace Channel

variable {S : Type}

def write (c : Channel S) (isOpen : Bool) (data : Bytes) (s : S) :
    Except WriteError Nat × Bool × S :=
  if isOpen then
    match c.send data s with
    | (.accepted n, s) => (.ok n, true, s)
    | (.brokenPipe, s) => (.ok data.length, false, c.close s)
    | (.failed e, s) => (.error (.ofSystem e), true, s)
  else (.ok data.length, false, s)

def writeAll (c : Channel S) (isOpen : Bool) (data : Bytes) (s : S) :
    Except WriteError Unit × Bool × S :=
  if hd : data = [] then (.ok (), isOpen, s)
  else
    match c.write isOpen data s with
    | (.error e, isOpen, s) => (.error e, isOpen, s)
    | (.ok 0, isOpen, s) => (.error .stuck, isOpen, s)
    | (.ok (n + 1), isOpen, s) =>
        have := List.length_pos_iff.mpr hd
        c.writeAll isOpen (data.drop (n + 1)) s
termination_by data.length
decreasing_by
  simp only [List.length_drop]
  omega

def flush (c : Channel S) (isOpen : Bool) (s : S) : Except WriteError Unit × Bool × S :=
  if isOpen then
    match c.flushOnce s with
    | (.accepted _, s) => (.ok (), true, s)
    | (.brokenPipe, s) => (.ok (), false, c.close s)
    | (.failed e, s) => (.error (.ofSystem e), true, s)
  else (.ok (), false, s)

theorem writeAll_closed (c : Channel S) (data : Bytes) (s : S) :
    c.writeAll false data s = (.ok (), false, s) := by
  unfold writeAll
  split
  · rfl
  · next hd =>
    have hlen : data.length = data.length - 1 + 1 := by
      have := List.length_pos_iff.mpr hd
      omega
    simp only [write, Bool.false_eq_true, if_false]
    rw [hlen]
    simp only
    rw [← hlen, List.drop_length]
    unfold writeAll
    simp

end Channel

end ChatSpace.Writing
