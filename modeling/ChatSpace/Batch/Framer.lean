import ChatSpace.Batch.Backlog
import ChatSpace.Batch.Summary

namespace ChatSpace.Batch

structure Object where
  oid : ObjectId
  content : Bytes
deriving DecidableEq, Repr

/-- The longest summary line that may lack its newline. -/
def Summary.maxLength : Nat := 128

namespace Object

def cut (line rest : Bytes) (s : Summary) : Except ProtocolError (Option (Object × Bytes)) :=
  if Summary.limit ≤ line.length + 1 + s.size then .error (.malformedSummary (Utf8.lossy line))
  else
    match rest.drop s.size with
    | [] => .ok none
    | b :: tail =>
        if b = Bytes.newline then .ok (some (⟨s.oid, rest.take s.size⟩, tail))
        else .error (.missingTerminator s.oid)

def take (d : Delimiter) (dump : Bytes) : Except ProtocolError (Option (Object × Bytes)) :=
  let line := dump.takeWhile (· ≠ Bytes.newline)
  match dump.dropWhile (· ≠ Bytes.newline) with
  | [] =>
      if Summary.maxLength < dump.length then
        .error (.malformedSummary (Utf8.lossy (dump.take Summary.maxLength)))
      else .ok none
  | _ :: rest =>
      match Summary.parse d line with
      | .error e => .error e
      | .ok s => cut line rest s

theorem cut_eq_some {line rest tail : Bytes} {s : Summary} {o : Object}
    (h : cut line rest s = .ok (some (o, tail))) :
    rest = o.content ++ Bytes.newline :: tail ∧ o.oid = s.oid ∧ o.content.length = s.size := by
  unfold cut at h
  split at h
  · cases h
  · split at h
    · simp at h
    · next b tail' hdrop =>
      split at h
      · next hb =>
        simp only [Except.ok.injEq, Option.some.injEq, Prod.mk.injEq] at h
        obtain ⟨rfl, rfl⟩ := h
        have hlen : s.size < rest.length := by
          have := congrArg List.length hdrop
          simp at this
          omega
        refine ⟨?_, rfl, by simp; omega⟩
        rw [← hb, ← hdrop, List.take_append_drop]
      · cases h

theorem eq_append_of_take {d : Delimiter} {dump tail : Bytes} {o : Object}
    (h : take d dump = .ok (some (o, tail))) :
    ∃ line, Summary.parse d line = .ok ⟨o.oid, o.content.length⟩ ∧
      dump = line ++ Bytes.newline :: o.content ++ Bytes.newline :: tail := by
  unfold take at h
  simp only at h
  split at h
  · split at h <;> simp at h
  · next b rest hdrop =>
    split at h
    · cases h
    · next s hs =>
      obtain ⟨hrest, hoid, hlen⟩ := cut_eq_some h
      refine ⟨_, by rw [hs, hoid, hlen], ?_⟩
      have hb : b = Bytes.newline := by
        have := List.head?_dropWhile_not (fun x => decide (x ≠ Bytes.newline)) dump
        rw [hdrop] at this
        simpa using this
      have := List.takeWhile_append_dropWhile (p := (· ≠ Bytes.newline)) (l := dump)
      rw [hdrop, hb, hrest] at this
      simpa using this.symm

theorem take_append_eq_none {d : Delimiter} {front late rest : Bytes} {b : UInt8} {s : Summary}
    (hdrop : front.dropWhile (· ≠ Bytes.newline) = b :: rest)
    (hparse : Summary.parse d (front.takeWhile (· ≠ Bytes.newline)) = .ok s)
    (hlimit : (front.takeWhile (· ≠ Bytes.newline)).length + 1 + s.size < Summary.limit)
    (hsize : rest.length + late.length ≤ s.size) :
    take d (front ++ late) = .ok none := by
  have hline : (front ++ late).takeWhile (· ≠ Bytes.newline)
      = front.takeWhile (· ≠ Bytes.newline) := by
    rw [List.takeWhile_append]
    split
    · next hall =>
      have hsum := congrArg List.length
        (List.takeWhile_append_dropWhile (p := (· ≠ Bytes.newline)) (l := front))
      rw [hdrop, List.length_append, List.length_cons] at hsum
      omega
    · rfl
  have htail : (front ++ late).dropWhile (· ≠ Bytes.newline) = b :: (rest ++ late) := by
    rw [List.dropWhile_append, hdrop]
    rfl
  have hnone : (rest ++ late).drop s.size = [] := by
    rw [List.drop_eq_nil_iff, List.length_append]
    exact hsize
  simp only [take, htail, hline, hparse, cut, hnone, Nat.not_le.mpr hlimit, if_false]

end Object

structure Framer where
  delimiter : Delimiter
  backlog : Backlog := .ofBytes []
deriving DecidableEq, Repr

namespace Framer

def buffer (f : Framer) : Bytes :=
  f.backlog.toBytes

def buffered (f : Framer) : Nat :=
  f.backlog.length

def holding (d : Delimiter) (bytes : Bytes) : Framer :=
  ⟨d, .ofBytes bytes⟩

def extend (f : Framer) (bytes : Bytes) : Framer :=
  if f.backlog.front.contains Bytes.newline then { f with backlog := f.backlog.push bytes }
  else holding f.delimiter (f.buffer ++ bytes)

/-- Whether the line at the front announces more than has arrived. The front is counted only if it
does not reach past the content by itself. -/
def isWaiting (f : Framer) : Bool :=
  let line := f.backlog.front.takeWhile (· ≠ Bytes.newline)
  match f.backlog.front.dropWhile (· ≠ Bytes.newline), Summary.parse f.delimiter line with
  | _ :: rest, .ok s =>
      (rest.drop s.size).isEmpty && line.length + 1 + s.size < Summary.limit
        && rest.length + f.backlog.lateLength ≤ s.size
  | _, _ => false

def next (f : Framer) : Except ProtocolError (Option (Object × Framer)) :=
  if f.isWaiting then .ok none
  else
    match Object.take f.delimiter f.buffer with
    | .error e => .error e
    | .ok none => .ok none
    | .ok (some (o, tail)) => .ok (some (o, holding f.delimiter tail))

def finish (f : Framer) : Except ProtocolError Unit :=
  if f.buffered = 0 then .ok () else .error (.trailingBytes f.buffered)

@[simp] theorem buffer_holding (d : Delimiter) (bytes : Bytes) :
    (holding d bytes).buffer = bytes :=
  Backlog.toBytes_ofBytes bytes

@[simp] theorem buffer_extend (f : Framer) (bytes : Bytes) :
    (f.extend bytes).buffer = f.buffer ++ bytes := by
  unfold extend
  split
  · exact Backlog.toBytes_push f.backlog bytes
  · exact buffer_holding f.delimiter _

@[simp] theorem length_buffer (f : Framer) : f.buffer.length = f.buffered :=
  Backlog.length_toBytes f.backlog

theorem take_of_isWaiting {f : Framer} (h : f.isWaiting = true) :
    Object.take f.delimiter f.buffer = .ok none := by
  unfold isWaiting at h
  simp only at h
  split at h
  · next b rest s hdrop hparse =>
    simp only [Bool.and_eq_true, decide_eq_true_eq] at h
    rw [buffer, Backlog.toBytes_eq]
    refine Object.take_append_eq_none hdrop hparse h.1.2 ?_
    rw [Backlog.length_flatten_reverse, ← f.backlog.lateLength_eq]
    exact h.2
  · cases h

theorem next_eq (f : Framer) :
    f.next = (Object.take f.delimiter f.buffer).map
      (·.map fun (o, tail) => (o, holding f.delimiter tail)) := by
  unfold next
  split
  · next h => rw [take_of_isWaiting h]; rfl
  · rcases Object.take f.delimiter f.buffer with e | _ | ⟨o, tail⟩ <;> rfl

theorem buffer_eq_of_next {f g : Framer} {o : Object} (h : f.next = .ok (some (o, g))) :
    ∃ line, Summary.parse f.delimiter line = .ok ⟨o.oid, o.content.length⟩ ∧
      f.buffer = line ++ Bytes.newline :: o.content ++ Bytes.newline :: g.buffer ∧
      g.delimiter = f.delimiter := by
  rw [next_eq] at h
  rcases htake : Object.take f.delimiter f.buffer with e | _ | ⟨o', tail⟩
  · rw [htake] at h; cases h
  · rw [htake] at h; cases h
  · rw [htake] at h
    cases h
    obtain ⟨line, hparse, hbuf⟩ := Object.eq_append_of_take htake
    exact ⟨line, hparse, by rw [buffer_holding]; exact hbuf, rfl⟩

theorem buffered_lt_of_next {f g : Framer} {o : Object} (h : f.next = .ok (some (o, g))) :
    g.buffered < f.buffered := by
  obtain ⟨line, _, hbuf, _⟩ := buffer_eq_of_next h
  rw [← length_buffer, ← length_buffer, hbuf]
  simp only [List.length_append, List.length_cons]
  omega

structure Drained where
  objects : List Object
  fault : Option ProtocolError
  framer : Framer
deriving DecidableEq, Repr

def drain (f : Framer) : Drained :=
  match h : f.next with
  | .error e => ⟨[], some e, f⟩
  | .ok none => ⟨[], none, f⟩
  | .ok (some (o, g)) =>
      have := buffered_lt_of_next h
      let d := g.drain
      { d with objects := o :: d.objects }
termination_by f.buffered

end Framer

end ChatSpace.Batch
