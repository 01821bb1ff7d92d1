import ChatSpace.Proofs.Files.Growth
import ChatSpace.Proofs.Processes.Fallback

namespace ChatSpace.Processes

open Files

variable {σ S ε α β : Type}

namespace Plumbing

theorem grows_append (p : Plumbing) (directory : Location) (path data : Bytes) :
    p.files.Grows (p.append directory path data).files := by
  simp only [append]
  split
  · next hwrite => exact Tree.grows_write hwrite
  · exact .refl p.files

theorem files_put {sink : Sink} (hsink : ∀ directory path, sink ≠ .file directory path)
    (p : Plumbing) (taken : Bytes) : (p.put taken sink).files = p.files := by
  cases sink with
  | file directory path => exact absurd rfl (hsink directory path)
  | _ => rfl

theorem grows_put (p : Plumbing) (taken : Bytes) (sink : Sink) :
    p.files.Grows (p.put taken sink).files := by
  cases sink with
  | file directory path => exact p.grows_append directory path taken
  | _ => exact .refl p.files

end Plumbing

namespace Child

variable {ends : List PipeEnd} {p q : Plumbing} {c d : Child}

theorem grows_step (h : c.step ends p = some (d, q)) : p.files.Grows q.files := by
  cases (steps_of_step h).2 with
  | created _ hwrite => exact Tree.grows_write hwrite
  | wrote => exact p.grows_put _ _
  | wrotePartly => exact p.grows_put _ _
  | _ => exact .refl p.files

end Child

namespace World

theorem stable_grows (t : Tree) : Stable fun v : World σ => t.Grows v.plumbing.files :=
  fun _ _ _ _ _ h _ hstep => h.trans (Child.grows_step hstep)

theorem grows_wait (w : World σ) (child : Nat) :
    w.plumbing.files.Grows (w.wait child).2.plumbing.files :=
  (stable_grows _).wait (fun _ _ h => h) child (.refl _)

theorem grows_sendFrom (w : World σ) (pipe count : Nat) (data : Bytes) :
    w.plumbing.files.Grows (w.sendFrom pipe count data).2.plumbing.files :=
  (stable_grows _).sendFrom (fun _ _ h => h) count data (.refl _)

end World

namespace Act

def Grows (files : S → Tree) (act : Act S ε α) : Prop :=
  ∀ s, (files s).Grows (files (act.start s).2)

theorem Grows.after {files : S → Tree} {act : Act S ε α} {s s' : S}
    {result : Except (Stop ε) α} (h : act.Grows files) (hstart : act.start s = (result, s')) :
    (files s).Grows (files s') := by
  have hact := h s
  rwa [hstart] at hact

theorem Grows.bind {files : S → Tree} {act : Act S ε α} {next : α → Act S ε β}
    (h : act.Grows files) (hnext : ∀ a, (next a).Grows files) : (act >>= next).Grows files := by
  intro s
  rcases hstart : act.start s with ⟨e | a, s'⟩
  · rw [start_bind_of_error hstart]
    exact h.after hstart
  · rw [start_bind_of_ok hstart]
    exact (h.after hstart).trans (hnext a s')

end Act

namespace Executor

def files (w : World σ) : Tree :=
  w.plumbing.files

theorem grows_raise (e : ExecError) :
    (raise e : Act (World σ) ExecError α).Grows files := by
  intro w
  rw [start_raise]
  exact .refl _

theorem grows_refuse (s : Spec) (operation : Operation) (stream : Stream) :
    (refuse s operation stream : Act (World σ) ExecError α).Grows files := by
  intro w
  rw [refuse, Act.start_andThen, start_raise, World.closeAll_eq]
  exact .refl _

theorem grows_spawn (s : Spec) : (spawn s : Act (World σ) ExecError Handle).Grows files := by
  intro w
  obtain ⟨n, labels, starts, ⟨e, hstart⟩ | ⟨c, l, -, hstart⟩⟩ := start_spawn_cases s w <;>
    rw [hstart, World.closeAll_eq] <;> exact .refl _

theorem grows_finish (h : Handle) : (finish h : Act (World σ) ExecError Nat).Grows files := by
  have hwait : (Act.does (·.wait h.child) : Act (World σ) ExecError _).Grows files :=
    fun w => w.grows_wait h.child
  apply hwait.bind
  intro result
  cases result with
  | error source => exact grows_raise _
  | ok exit =>
      intro w
      simp only
      split <;> exact .refl _

theorem grows_run (s : Spec) : (run s : Act (World σ) ExecError Nat).Grows files := by
  unfold run runBy
  split
  · exact grows_refuse s _ _
  · exact (grows_spawn s).bind grows_finish

theorem isDirectory_of_run {s : Spec} {w w' : World σ} {dir : Bytes} {code : Nat}
    (hdir : s.workDir = some dir) (h : (run s).start w = (.ok code, w')) :
    w.plumbing.files.isDirectory w.directory dir := by
  unfold run runBy at h
  split at h
  · rw [refuse, Act.start_andThen, start_raise] at h
    cases h
  obtain ⟨handle, v, hspawn, -⟩ := Act.start_bind_eq_ok h
  obtain ⟨path, n, starts, d, l, -, htries, -⟩ := spawn_eq_ok hspawn
  have hhere := htries.suits.2.directory
  have hworkDir : (commandOf w s path).workDir = some dir := hdir
  rw [Command.directory, hworkDir] at hhere
  simp only at hhere
  unfold Tree.isDirectory
  split at hhere
  · cases hhere
  · next hresolve => simp [hresolve]
  · cases hhere

end Executor

end ChatSpace.Processes
