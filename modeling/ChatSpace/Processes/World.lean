import ChatSpace.Processes.Child
import ChatSpace.Processes.Command
import ChatSpace.Processes.ExecError

namespace ChatSpace.Processes

inductive Handler where
  | returns
  | terminates
deriving DecidableEq, Repr

structure Wait where
  child : Nat
  held : List PipeEnd
deriving DecidableEq, Repr

structure Attempt where
  command : Command
  refusal : Option SystemError
deriving DecidableEq, Repr

structure Tally where
  started : Nat
  waited : Nat
  warned : Nat
  spoken : Bytes
  pipes : List Bytes
deriving DecidableEq, Repr

structure Alarm where
  error : ExecError
  tally : Tally
deriving DecidableEq, Repr

structure Journal where
  alarms : List Alarm := []
  warnings : List String := []
  labels : List String := []
  starts : List Attempt := []
  waits : List Wait := []
deriving DecidableEq, Repr

def Journal.reports (j : Journal) : List ExecError :=
  j.alarms.map Alarm.error

/-- The answers to the parent's requests from the next one on. Any of them may be a refusal. -/
structure Refusals where
  answer : Nat → Request → Option SystemError

namespace Refusals

def descriptors (exhausted : Bool) : Refusals :=
  ⟨fun _ r => if exhausted ∧ r ≠ .process then some .tooManyFiles else none⟩

instance : Coe Bool Refusals := ⟨descriptors⟩

def drop (r : Refusals) (count : Nat) : Refusals :=
  ⟨fun n => r.answer (count + n)⟩

end Refusals

/-- The parent with its pipe ends, its children and what they share. Programs may keep a state of
type `σ` from one launch to the next. `copies` are further descriptors of pipe ends, and `spoken` is
what the parent has written to its own output. -/
structure World (σ : Type) where
  state : σ
  programs : Launch → σ → Behaviour × σ
  formats : Bytes → Image := Image.ofContent
  directory : Files.Location := []
  environment : Variables := ⟨[]⟩
  plumbing : Plumbing := {}
  held : List PipeEnd := []
  copies : List PipeEnd := []
  children : List Child := []
  exhausted : Refusals := false
  handler : Handler := .returns
  journal : Journal := {}
  spoken : Bytes := []

inductive Sent where
  | accepted (count : Nat)
  | brokenPipe
  | failed (error : SystemError)
deriving DecidableEq, Repr

namespace World

variable {σ : Type}

def ends (w : World σ) : List PipeEnd :=
  w.held ++ w.copies ++ w.children.flatMap Child.ends

def weight (children : List Child) : Nat :=
  total Child.weight children

def pending (children : List Child) : Nat :=
  total Child.pending children

def stepFirst (ends : List PipeEnd) (p : Plumbing) : List Child → Option (List Child × Plumbing)
  | [] => none
  | c :: rest =>
      match c.step ends p with
      | some (c, p) => some (c :: rest, p)
      | none => (stepFirst ends p rest).map fun (rest, p) => (c :: rest, p)

theorem stepFirst_lt {ends : List PipeEnd} {p q : Plumbing} {cs ds : List Child}
    (h : stepFirst ends p cs = some (ds, q)) :
    weight ds < weight cs ∨
      weight ds = weight cs ∧ pending ds + q.load < pending cs + p.load := by
  induction cs generalizing ds with
  | nil => simp [stepFirst] at h
  | cons c rest ih =>
      unfold stepFirst at h
      split at h
      · next d p' hstep =>
        cases h
        have := Child.step_lt hstep
        unfold Child.Nearer at this
        simp only [weight, pending, total] at this ⊢
        omega
      · cases hrest : stepFirst ends p rest with
        | none => simp [hrest] at h
        | some moved =>
            obtain ⟨ds', p'⟩ := moved
            simp only [hrest, Option.map_some, Option.some.injEq, Prod.mk.injEq] at h
            obtain ⟨rfl, rfl⟩ := h
            have := ih hrest
            simp only [weight, pending, total] at this ⊢
            omega

def work (w : World σ) : Nat := weight w.children

def load (w : World σ) : Nat := pending w.children + w.plumbing.load

def settle (w : World σ) : World σ :=
  match h : stepFirst w.ends w.plumbing w.children with
  | none => w
  | some (children, plumbing) =>
      have := stepFirst_lt h
      settle { w with children, plumbing }
termination_by (w.work, w.load)
decreasing_by
  simp only [Prod.lex_def, work, load]
  omega

def NotFarther (w v : World σ) : Prop :=
  v.work < w.work ∨ v.work = w.work ∧ v.load ≤ w.load

theorem settle_notFarther (w : World σ) : w.NotFarther w.settle := by
  induction w using settle.induct with
  | case1 w h =>
      rw [settle]
      split
      · exact .inr ⟨rfl, Nat.le_refl _⟩
      · next h' => simp [h] at h'
  | case2 w children plumbing h hlt ih =>
      rw [settle]
      split
      · next h' => simp [h] at h'
      · next children' plumbing' h' =>
        rw [h] at h'
        cases h'
        simp only [NotFarther, work, load] at ih ⊢
        omega

def setPlumbing (w : World σ) (plumbing : Plumbing) : World σ :=
  { w with plumbing }

def speak (w : World σ) (data : Bytes) : World σ :=
  { w with spoken := w.spoken ++ data }

def tally (w : World σ) : Tally :=
  { started := w.children.length
    waited := w.journal.waits.length
    warned := w.journal.warnings.length
    spoken := w.spoken
    pipes := w.plumbing.pipes }

def content? (w : World σ) (pipe : Nat) : Option Bytes :=
  w.plumbing.pipes[pipe]?

def valueOf? (w : World σ) (name : String) : Option Bytes :=
  w.environment.get? (Utf8.encode name)

def asked (w : World σ) (count : Nat) : World σ :=
  { w with exhausted := w.exhausted.drop count }

def ask (w : World σ) (r : Request) : Option SystemError × World σ :=
  (w.exhausted.answer 0 r, w.asked 1)

def askAll (w : World σ) : List Request → Option SystemError × World σ
  | [] => (none, w)
  | r :: rest =>
      match w.ask r with
      | (some e, w) => (some e, w)
      | (none, w) => w.askAll rest

def withPipe (w : World σ) : World σ :=
  { w.asked 1 with
    plumbing := { w.plumbing with pipes := w.plumbing.pipes ++ [[]] }
    held :=
      ⟨w.plumbing.pipes.length, .reading⟩ :: ⟨w.plumbing.pipes.length, .writing⟩ :: w.held }

def openPipe (w : World σ) : Except SystemError Nat × World σ :=
  match w.exhausted.answer 0 .pipe with
  | some e => (.error e, w.asked 1)
  | none => (.ok w.plumbing.pipes.length, w.withPipe)

def copy (w : World σ) (e : PipeEnd) : World σ :=
  { w with copies := e :: w.copies }

def dropCopy (w : World σ) (e : PipeEnd) : World σ :=
  { w with copies := w.copies.erase e }

def close (w : World σ) (pipeEnd : PipeEnd) : World σ :=
  { w with held := w.held.filter (· ≠ pipeEnd) }

def closeAll (w : World σ) (ends : List PipeEnd) : World σ :=
  ends.foldl close w

def settleIfFull (w : World σ) (pipe : Nat) : World σ :=
  match w.content? pipe with
  | none => w
  | some bytes => if Plumbing.capacity ≤ bytes.length then w.settle else w

def sendFrom (w : World σ) (pipe count : Nat) (data : Bytes) : Sent × World σ :=
  let v := w.settleIfFull pipe
  match h : v.plumbing.deliver v.ends data (.pipe pipe) with
  | .done plumbing => (.accepted (count + data.length), v.setPlumbing plumbing)
  | .partly rest plumbing =>
      have := Plumbing.load_of_partly h
      (v.setPlumbing plumbing).sendFrom pipe (count + (data.length - rest.length)) rest
  | .blocked => (.failed .deadlock, v)
  | .broken => (if count = 0 then .brokenPipe else .accepted count, v)
termination_by data.length
decreasing_by exact this.1

def send (w : World σ) (pipe : Nat) (data : Bytes) : Sent × World σ :=
  w.sendFrom pipe 0 data

def settleIfEmpty (w : World σ) (pipe : Nat) : World σ :=
  if w.content? pipe = some [] then w.settle else w

/-- One read of at most `limit` bytes. No bytes mean that the pipe has come to its end. -/
def receive (w : World σ) (pipe limit : Nat) : Except SystemError Bytes × World σ :=
  let v := w.settleIfEmpty pipe
  match v.content? pipe with
  | none => (.ok [], v)
  | some [] => if ⟨pipe, .writing⟩ ∈ v.ends then (.error .deadlock, v) else (.ok [], v)
  | some bytes =>
      (.ok (bytes.take limit), v.setPlumbing (v.plumbing.setPipe pipe (bytes.drop limit)))

theorem settleIfEmpty_notFarther (w : World σ) (pipe : Nat) :
    w.NotFarther (w.settleIfEmpty pipe) := by
  unfold settleIfEmpty
  split
  · exact settle_notFarther w
  · exact .inr ⟨rfl, Nat.le_refl _⟩

def receiveAll (w : World σ) (pipe : Nat) : Except SystemError Bytes × World σ :=
  let v := w.settleIfEmpty pipe
  match h : v.content? pipe with
  | none => (.ok [], v)
  | some [] => if ⟨pipe, .writing⟩ ∈ v.ends then (.error .deadlock, v) else (.ok [], v)
  | some (b :: bytes) =>
      have := Plumbing.load_setPipe h []
      let (rest, u) := (v.setPlumbing (v.plumbing.setPipe pipe [])).receiveAll pipe
      (rest.map ((b :: bytes) ++ ·), u)
termination_by (w.work, w.load)
decreasing_by
  have hn : w.NotFarther v := settleIfEmpty_notFarther w pipe
  unfold NotFarther work load at hn
  simp only [v] at hn this
  simp only [Prod.lex_def, work, load, setPlumbing, List.length_cons, List.length_nil] at this ⊢
  omega

def wait (w : World σ) (child : Nat) : Except SystemError Exit × World σ :=
  let v := w.settle
  let waits := v.journal.waits ++ [⟨child, v.held ++ v.copies⟩]
  let v := { v with journal := { v.journal with waits } }
  match v.children[child]?.bind Child.ended with
  | some exit => (.ok exit, v)
  | none => (.error .deadlock, v)

def launchOf (w : World σ) (c : Command) : Except SystemError Launch := do
  if c.hasNul then throw .nulInArgument
  let directory ← c.directory w.plumbing.files w.directory
  let (image, args) ← c.load w.formats w.plumbing.files directory
  pure
    { image, args, directory
      environment := Command.visible c.environment
      files := w.plumbing.files }

def addChild (w : World σ) (c : Command) (l : Launch) : World σ :=
  { w with
    state := (w.programs l w.state).2
    children := w.children ++ [
      { streams := c.streams
        directory := l.directory
        actions := (w.programs l w.state).1.actions
        exit := (w.programs l w.state).1.exit
        broken := (w.programs l w.state).1.broken }] }

def noteStart (w : World σ) (c : Command) (refusal : Option SystemError) : World σ :=
  { w with journal := { w.journal with starts := w.journal.starts ++ [⟨c, refusal⟩] } }

def start (w : World σ) (c : Command) : Except SystemError Nat × World σ :=
  match w.askAll c.requests with
  | (some e, w) => (.error e, w.noteStart c (some e))
  | (none, w) =>
      match w.launchOf c with
      | .error e => (.error e, w.noteStart c (some e))
      | .ok l => (.ok w.children.length, (w.noteStart c none).addChild c l)

end World

end ChatSpace.Processes
