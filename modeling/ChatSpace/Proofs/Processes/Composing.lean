import ChatSpace.Proofs.Processes.Calm
import ChatSpace.Proofs.Processes.Starting

namespace ChatSpace.Processes

variable {σ α β : Type}

structure Mute (w w' : World σ) : Prop where
  handler : w'.handler = w.handler
  alarms : w'.journal.alarms = w.journal.alarms
  spoken : w'.spoken = w.spoken

structure Idle (w w' : World σ) : Prop extends Mute w w' where
  tally : w'.tally = w.tally

structure Composes (P : ∀ {α : Type}, Act (World σ) ExecError α → Prop) : Prop where
  pure {α : Type} (a : α) : P (pure a : Act (World σ) ExecError α)
  does {α : Type} {step : World σ → α × World σ} : (∀ w, Mute w (step w).2) → P (Act.does step)
  raise {α : Type} {e : ExecError} :
    e.isProgramming = false → P (Executor.raise e : Act (World σ) ExecError α)
  bind {α β : Type} {act : Act (World σ) ExecError α} {next : α → Act (World σ) ExecError β} :
    P act → (∀ a, P (next a)) → P (act >>= next)
  andThen {α : Type} {act : Act (World σ) ExecError α} {after : World σ → World σ} :
    P act → (∀ w, Idle w (after w)) → P (act.andThen after)
  onFailure {α : Type} {act : Act (World σ) ExecError α} {after : World σ → World σ} :
    P act → (∀ w, Idle w (after w)) → P (act.onFailure after)

theorem Mute.refl (w : World σ) : Mute w w :=
  ⟨rfl, rfl, rfl⟩

namespace World

theorem stable_mute (w : World σ) : Stable (Mute w) :=
  fun _ _ _ _ _ h _ _ => ⟨h.handler, h.alarms, h.spoken⟩

theorem mute_receive (w : World σ) (pipe limit : Nat) : Mute w (w.receive pipe limit).2 :=
  (stable_mute w).receive (fun _ _ h => ⟨h.handler, h.alarms, h.spoken⟩) limit (.refl w)

theorem mute_receiveAll (w : World σ) (pipe : Nat) : Mute w (w.receiveAll pipe).2 :=
  (stable_mute w).receiveAll (fun _ _ h => ⟨h.handler, h.alarms, h.spoken⟩) (.refl w)

theorem mute_wait (w : World σ) (child : Nat) : Mute w (w.wait child).2 :=
  (stable_mute w).wait (fun _ _ h => ⟨h.handler, h.alarms, h.spoken⟩) child (.refl w)

theorem idle_close (w : World σ) (e : PipeEnd) : Idle w (w.close e) :=
  ⟨⟨rfl, rfl, rfl⟩, rfl⟩

theorem idle_closeAll (w : World σ) (ends : List PipeEnd) : Idle w (w.closeAll ends) := by
  rw [closeAll_eq]
  exact ⟨⟨rfl, rfl, rfl⟩, rfl⟩

theorem idle_dropCopy (w : World σ) (e : PipeEnd) : Idle w (w.dropCopy e) :=
  ⟨⟨rfl, rfl, rfl⟩, rfl⟩

theorem mute_openPipe (w : World σ) : Mute w w.openPipe.2 := by
  unfold openPipe
  split <;> exact ⟨rfl, rfl, rfl⟩

theorem mute_start (w : World σ) (c : Command) : Mute w (w.start c).2 := by
  obtain ⟨n, ⟨e, -, hstart⟩ | ⟨l, -, hstart⟩⟩ := w.start_cases c <;> rw [hstart] <;>
    exact ⟨rfl, rfl, rfl⟩

end World

namespace Composes

variable {P : ∀ {α : Type}, Act (World σ) ExecError α → Prop} {s : Spec}

theorem change (h : Composes P) {f : World σ → World σ} (hf : ∀ w, Mute w (f w)) :
    P (Act.change f : Act (World σ) ExecError Unit) :=
  h.does hf

theorem openPipe (h : Composes P) : P (Executor.openPipe : Act (World σ) ExecError Nat) := by
  apply h.bind (h.does World.mute_openPipe)
  intro result
  cases result with
  | ok pipe => exact h.pure pipe
  | error source => exact h.raise rfl

theorem closeEnd (h : Composes P) (pipe : Nat) (side : Side) :
    P (Executor.closeEnd pipe side : Act (World σ) ExecError Unit) :=
  h.change fun w => (w.idle_close ⟨pipe, side⟩).toMute

theorem withCopies (h : Composes P) (s : Spec) {act : Act (World σ) ExecError α} (hact : P act)
    (streams : List Stream) : P (Executor.withCopies s act streams) := by
  induction streams with
  | nil => exact hact
  | cons stream rest ih =>
      unfold Executor.withCopies
      split
      · exact ih
      · next e _ =>
        have hcopy : P (Act.change (·.copy e) : Act (World σ) ExecError Unit) :=
          h.change fun _ => ⟨rfl, rfl, rfl⟩
        apply h.bind (h.does fun w => ⟨rfl, rfl, rfl⟩)
        intro answer
        cases answer with
        | some source => exact h.raise rfl
        | none => exact h.bind hcopy fun _ => h.andThen ih fun w => w.idle_dropCopy e

theorem startLast (h : Composes P) (s : Spec) (c : Command) :
    P (Executor.startLast s c : Act (World σ) ExecError Nat) := by
  apply h.bind (h.does fun w => w.mute_start c)
  rintro (source | child)
  · exact h.raise rfl
  · exact h.pure child

theorem startOr (h : Composes P) (s : Spec) (c : Command) {again : Act (World σ) ExecError Nat}
    (hagain : P again) : P (Executor.startOr s c again) := by
  apply h.bind (h.does fun w => w.mute_start c)
  rintro (source | child)
  · cases source with
    | notExecutable => exact hagain
    | _ => exact h.raise rfl
  · exact h.pure child

theorem startCommand (h : Composes P) (s : Spec) (c : Command) :
    P (Executor.startCommand s c : Act (World σ) ExecError Nat) :=
  h.withCopies s (h.startOr s c (h.withCopies s (h.startLast s _) _)) _

theorem spawn (h : Composes P) (s : Spec) :
    P (Executor.spawn s : Act (World σ) ExecError Handle) := by
  have hnote : P (Act.change (·.noteLabel s.streams.label) : Act (World σ) ExecError Unit) :=
    h.change fun _ => ⟨rfl, rfl, rfl⟩
  apply h.andThen ?_ fun w => w.idle_closeAll s.ends
  apply h.bind (h.does Mute.refl)
  intro w
  split
  · exact h.raise rfl
  · apply h.bind hnote
    intro _
    exact h.bind (h.startCommand s _) fun child => h.pure _

theorem reap (h : Composes P) (handle : Handle) (brokenPipeExpected : Bool) :
    P (Executor.reap handle brokenPipeExpected : Act (World σ) ExecError Nat) := by
  have hwarn (text : String) : P (Act.change (·.warn text) : Act (World σ) ExecError Unit) :=
    h.change fun _ => ⟨rfl, rfl, rfl⟩
  apply h.bind (h.does fun w => w.mute_wait handle.child)
  intro result
  cases result with
  | error source => exact h.raise rfl
  | ok exit =>
      simp only
      split
      · exact h.bind (hwarn _) fun _ => h.pure exit.status
      · exact h.pure exit.status

theorem run (h : Composes P) (hrefuse : ∀ stream, s.provisioned? = some stream →
      P (Executor.refuse s .run stream : Act (World σ) ExecError Nat)) :
    P (Executor.run s : Act (World σ) ExecError Nat) := by
  unfold Executor.run Executor.runBy
  split
  · next stream hstream => exact hrefuse stream hstream
  · exact h.bind (h.spawn s) fun handle => h.reap handle false

theorem capture (h : Composes P) (hrefuse : ∀ stream, s.provisioned? = some stream →
      P (Executor.refuse s .capture stream : Act (World σ) ExecError Captured)) :
    P (Executor.capture s : Act (World σ) ExecError Captured) := by
  unfold Executor.capture Executor.captureBy
  split
  · next stream hstream => exact hrefuse stream hstream
  · apply h.bind h.openPipe
    intro pipe
    apply h.bind (h.onFailure (h.spawn _) fun w => w.idle_close ⟨pipe, .reading⟩)
    intro handle
    apply h.bind (h.does fun w => w.mute_receiveAll pipe)
    intro output
    apply h.bind (h.closeEnd pipe .reading)
    intro _
    apply h.bind (h.reap handle false)
    intro code
    split
    · exact h.pure _
    · exact h.raise rfl

end Composes

end ChatSpace.Processes
