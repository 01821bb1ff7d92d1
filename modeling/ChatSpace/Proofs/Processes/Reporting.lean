import ChatSpace.Proofs.Processes.Composing

namespace ChatSpace.Processes

variable {σ S T ε δ α β : Type}

structure Silent (w w' : World σ) : Prop where
  handler : w'.handler = w.handler
  reports : w'.journal.reports = w.journal.reports

def returned (exec? : ε → Option ExecError) : Except (Stop ε) α → Option ExecError
  | .error (.failed e) => exec? e
  | _ => none

/-- What reached the handler in between is what the step returns. A step that could not wait for a
child may have dropped an error that was reported before. -/
structure Reported (exec? : ε → Option ExecError) (w : World σ) (result : Except (Stop ε) α)
    (w' : World σ) : Prop where
  lives : ∀ text, result ≠ .error (.halted text)
  handler : w'.handler = .returns
  reports : (∀ program pid source, returned exec? result ≠ some (.wait program pid source)) →
    w'.journal.reports = w.journal.reports ++ (returned exec? result).toList

def Candid (world : S → World σ) (exec? : ε → Option ExecError) (act : Act S ε α) : Prop :=
  ∀ s, (world s).handler = .returns →
    Reported exec? (world s) (act.start s).1 (world (act.start s).2)

theorem Silent.refl (w : World σ) : Silent w w :=
  ⟨rfl, rfl⟩

theorem Silent.trans {u v w : World σ} (h : Silent u v) (h' : Silent v w) : Silent u w :=
  ⟨h'.handler.trans h.handler, h'.reports.trans h.reports⟩

theorem Mute.silent {w w' : World σ} (h : Mute w w') : Silent w w' where
  handler := h.handler
  reports := congrArg (List.map _) h.alarms

theorem Calm.silent {w w' : World σ} (h : Calm w w') : Silent w w' where
  handler := h.handler
  reports := by rw [h.journal]

namespace World

theorem reports_report (w : World σ) (e : ExecError) :
    (w.report e).journal.reports = w.journal.reports ++ [e] :=
  List.map_append

theorem silent_closeAll (w : World σ) (ends : List PipeEnd) : Silent w (w.closeAll ends) :=
  (w.idle_closeAll ends).silent

theorem silent_wait (w : World σ) (child : Nat) : Silent w (w.wait child).2 :=
  (w.mute_wait child).silent

end World

section Steps

variable {world : S → World σ} {exec? : ε → Option ExecError}

theorem ok_ne_halted (a : α) (text : String) :
    (.ok a : Except (Stop ε) α) ≠ .error (.halted text) := by
  simp

theorem failed_ne_halted (e : ε) (text : String) :
    (.error (.failed e) : Except (Stop ε) α) ≠ .error (.halted text) := by
  simp

theorem reported_ok {w w' : World σ} (a : α) (hreturns : w.handler = .returns)
    (h : Silent w w') : Reported exec? w (.ok a) w' where
  lives := ok_ne_halted a
  handler := h.handler.trans hreturns
  reports _ := h.reports.trans (List.append_nil _).symm

theorem Reported.silent {w w' w'' : World σ} {result : Except (Stop ε) α}
    (h : Reported exec? w result w') (hafter : Silent w' w'') : Reported exec? w result w'' where
  lives := h.lives
  handler := hafter.handler.trans h.handler
  reports hwait := hafter.reports.trans (h.reports hwait)

theorem Reported.reports_eq {w w' : World σ} {a : α} (h : Reported exec? w (.ok a) w') :
    w'.journal.reports = w.journal.reports := by
  simpa [returned] using h.reports

theorem Reported.of_error {w w' : World σ} {e : Stop ε}
    (h : Reported exec? w (.error e : Except (Stop ε) α) w') :
    Reported exec? w (.error e : Except (Stop ε) β) w' := by
  cases e with
  | failed e => exact ⟨failed_ne_halted e, h.handler, h.reports⟩
  | halted text => exact absurd rfl (h.lives text)

theorem candid_pure (a : α) : Candid world exec? (pure a) :=
  fun s hreturns => reported_ok a hreturns (.refl (world s))

theorem candid_does {step : S → α × S} (h : ∀ s, Silent (world s) (world (step s).2)) :
    Candid world exec? (Act.does step) :=
  fun s hreturns => reported_ok (step s).1 hreturns (h s)

theorem candid_change {f : S → S} (h : ∀ s, Silent (world s) (world (f s))) :
    Candid world exec? (Act.change f) :=
  candid_does h

theorem candid_current : Candid world exec? (Act.current : Act S ε S) :=
  candid_does fun s => .refl (world s)

theorem candid_fail {e : ε} (h : exec? e = none) :
    Candid world exec? (Act.fail e : Act S ε α) := by
  intro s hreturns
  refine ⟨failed_ne_halted e, hreturns, fun _ => ?_⟩
  have hsame : returned exec? ((Act.fail e : Act S ε α).start s).1 = none := h
  rw [hsame]
  exact (List.append_nil _).symm

theorem Candid.bind_result {act : Act S ε α} {next : α → Act S ε β}
    (h : Candid world exec? act)
    (hnext : ∀ s a s', act.start s = (.ok a, s') → Candid world exec? (next a)) :
    Candid world exec? (act >>= next) := by
  intro s hreturns
  have hact := h s hreturns
  rcases hstart : act.start s with ⟨e | a, s'⟩ <;> rw [hstart] at hact
  · rw [Act.start_bind_of_error hstart]
    exact hact.of_error
  · have hsame := hact.reports_eq
    have hlast := hnext s a s' hstart s' hact.handler
    rw [Act.start_bind_of_ok hstart]
    exact ⟨hlast.lives, hlast.handler, fun hwait => by rw [hlast.reports hwait, hsame]⟩

theorem Candid.bind {act : Act S ε α} {next : α → Act S ε β} (h : Candid world exec? act)
    (hnext : ∀ a, Candid world exec? (next a)) : Candid world exec? (act >>= next) :=
  h.bind_result fun _ a _ _ => hnext a

theorem Candid.andThen {after : S → S} {act : Act S ε α} (h : Candid world exec? act)
    (hafter : ∀ s, Silent (world s) (world (after s))) :
    Candid world exec? (act.andThen after) :=
  fun s hreturns => (h s hreturns).silent (hafter _)

theorem Candid.onFailure {after : S → S} {act : Act S ε α} (h : Candid world exec? act)
    (hafter : ∀ s, Silent (world s) (world (after s))) :
    Candid world exec? (act.onFailure after) := by
  intro s hreturns
  have hact := h s hreturns
  rcases hstart : act.start s with ⟨e | a, s'⟩ <;> rw [hstart] at hact
  · rw [Act.start_onFailure_of_error hstart]
    exact hact.silent (hafter s')
  · rw [Act.start_onFailure_of_ok hstart]
    exact hact

end Steps

namespace Executor

theorem candid_raise (e : ExecError) :
    Candid id some (raise e : Act (World σ) ExecError α) := by
  intro w hreturns
  rw [start_raise, stopOf, show w.handler = .returns from hreturns]
  exact ⟨failed_ne_halted e, hreturns, fun _ => w.reports_report e⟩

theorem composes_candid :
    Composes (σ := σ) fun act => Candid id some act where
  pure := candid_pure
  does h := candid_does fun w => (h w).silent
  raise _ := candid_raise _
  bind := Candid.bind
  andThen h hafter := h.andThen fun w => (hafter w).silent
  onFailure h hafter := h.onFailure fun w => (hafter w).silent

theorem candid_openPipe : Candid id some (openPipe : Act (World σ) ExecError Nat) :=
  composes_candid.openPipe

theorem candid_closeEnd (pipe : Nat) (side : Side) :
    Candid id some (closeEnd pipe side : Act (World σ) ExecError Unit) :=
  composes_candid.closeEnd pipe side

theorem candid_spawn (s : Spec) : Candid id some (spawn s : Act (World σ) ExecError Handle) :=
  composes_candid.spawn s

theorem candid_reap (h : Handle) (brokenPipeExpected : Bool) :
    Candid id some (reap h brokenPipeExpected : Act (World σ) ExecError Nat) :=
  composes_candid.reap h brokenPipeExpected

theorem reap_eq_error {h : Handle} {brokenPipeExpected : Bool} {w w' : World σ}
    {stop : Stop ExecError} (hreap : (reap h brokenPipeExpected).start w = (.error stop, w')) :
    ∃ source, stop = stopOf (w.wait h.child).2 (.wait h.program (h.child + 1) source) := by
  rw [reap, Act.start_bind_does] at hreap
  cases hresult : (w.wait h.child).1 with
  | error source =>
      simp only [hresult] at hreap
      rw [start_raise] at hreap
      cases hreap
      exact ⟨source, rfl⟩
  | ok exit =>
      simp only [hresult] at hreap
      split at hreap <;> cases hreap

theorem candid_refuse (s : Spec) (operation : Operation) (stream : Stream) :
    Candid id some (refuse s operation stream : Act (World σ) ExecError α) :=
  (candid_raise _).andThen fun w => w.silent_closeAll s.ends

theorem candid_run (s : Spec) : Candid id some (run s : Act (World σ) ExecError Nat) :=
  composes_candid.run fun _ _ => candid_refuse s _ _

theorem candid_capture (s : Spec) :
    Candid id some (capture s : Act (World σ) ExecError Captured) :=
  composes_candid.capture fun _ _ => candid_refuse s _ _

end Executor

end ChatSpace.Processes
