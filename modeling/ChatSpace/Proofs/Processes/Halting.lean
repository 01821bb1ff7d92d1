import ChatSpace.Proofs.Processes.Composing
import ChatSpace.Proofs.Processes.Reading

namespace ChatSpace.Processes

variable {σ S T ε δ α β : Type}

inductive Ends (exec? : ε → Option ExecError) (w w' : World σ) : Except (Stop ε) α → Prop
  | ok {a : α} : w'.journal.alarms = w.journal.alarms → Ends exec? w w' (.ok a)
  | failed {e : ε} : exec? e = none → w'.journal.alarms = w.journal.alarms →
      Ends exec? w w' (.error (.failed e))
  | halted {e : ExecError} : w'.journal.alarms = w.journal.alarms ++ [⟨e, w'.tally⟩] →
      Ends exec? w w' (.error (.halted s!"fatal: {e.text}"))

def Strict (world : S → World σ) (keeps : S → Prop) (exec? : ε → Option ExecError)
    (act : Act S ε α) : Prop :=
  ∀ s, keeps s → keeps (act.start s).2 ∧
    Ends exec? (world s) (world (act.start s).2) (act.start s).1

/-- The handler halts the parent, and what the parent has said so far is as it should be. -/
structure Armed (said : Bytes → Prop) (w : World σ) : Prop where
  handler : w.handler = .terminates
  spoken : said w.spoken

theorem Armed.of_mute {said : Bytes → Prop} {w w' : World σ} (hw : Armed said w) (h : Mute w w') :
    Armed said w' :=
  ⟨h.handler.trans hw.handler, h.spoken ▸ hw.spoken⟩

section Steps

variable {world : S → World σ} {keeps : S → Prop} {exec? : ε → Option ExecError}

theorem Ends.trans {w w' w'' : World σ} {result : Except (Stop ε) α}
    (h : w'.journal.alarms = w.journal.alarms) (hend : Ends exec? w' w'' result) :
    Ends exec? w w'' result := by
  cases hend with
  | ok hsame => exact .ok (hsame.trans h)
  | failed hnone hsame => exact .failed hnone (hsame.trans h)
  | halted hlast => exact .halted (h ▸ hlast)

theorem Ends.idle {w w' w'' : World σ} {result : Except (Stop ε) α} (h : Ends exec? w w' result)
    (hidle : Idle w' w'') : Ends exec? w w'' result := by
  cases h with
  | ok hsame => exact .ok (hidle.alarms.trans hsame)
  | failed hnone hsame => exact .failed hnone (hidle.alarms.trans hsame)
  | halted hlast => exact .halted (hidle.tally ▸ hidle.alarms.trans hlast)

theorem Ends.of_error {w w' : World σ} {stop : Stop ε}
    (h : Ends exec? w w' (.error stop : Except (Stop ε) α)) :
    Ends exec? w w' (.error stop : Except (Stop ε) β) := by
  cases h with
  | failed hnone hsame => exact .failed hnone hsame
  | halted hlast => exact .halted hlast

theorem strict_pure (a : α) : Strict world keeps exec? (pure a) :=
  fun _ hs => ⟨hs, .ok rfl⟩

theorem strict_does {step : S → α × S}
    (h : ∀ s, keeps s → keeps (step s).2 ∧
      (world (step s).2).journal.alarms = (world s).journal.alarms) :
    Strict world keeps exec? (Act.does step) :=
  fun s hs => ⟨(h s hs).1, .ok (h s hs).2⟩

theorem strict_current : Strict world keeps exec? (Act.current : Act S ε S) :=
  strict_does fun _ hs => ⟨hs, rfl⟩

theorem strict_fail {e : ε} (h : exec? e = none) :
    Strict world keeps exec? (Act.fail e : Act S ε α) :=
  fun _ hs => ⟨hs, .failed h rfl⟩

theorem Strict.bind_result {act : Act S ε α} {next : α → Act S ε β}
    (h : Strict world keeps exec? act)
    (hnext : ∀ s a s', act.start s = (.ok a, s') → Strict world keeps exec? (next a)) :
    Strict world keeps exec? (act >>= next) := by
  intro s hs
  obtain ⟨hs', hend⟩ := h s hs
  rcases hstart : act.start s with ⟨stop | a, s'⟩ <;> rw [hstart] at hs' hend
  · rw [Act.start_bind_of_error hstart]
    exact ⟨hs', hend.of_error⟩
  · obtain ⟨hs'', hlast⟩ := hnext s a s' hstart s' hs'
    cases hend with
    | ok hsame =>
        rw [Act.start_bind_of_ok hstart]
        exact ⟨hs'', hlast.trans hsame⟩

theorem Strict.bind {act : Act S ε α} {next : α → Act S ε β} (h : Strict world keeps exec? act)
    (hnext : ∀ a, Strict world keeps exec? (next a)) : Strict world keeps exec? (act >>= next) :=
  h.bind_result fun _ a _ _ => hnext a

theorem strict_when {p : Prop} [Decidable p] {act : Act S ε Unit} {next : Unit → Act S ε β}
    (hact : Strict world keeps exec? act) (hnext : Strict world keeps exec? (next ())) :
    Strict world keeps exec? (if p then act >>= next else next ()) := by
  split
  · exact hact.bind fun _ => hnext
  · exact hnext

theorem strict_unless {p : Prop} [Decidable p] {e : ε} {next : Unit → Act S ε β}
    (he : exec? e = none) (h : Strict world keeps exec? (next ())) :
    Strict world keeps exec? (if p then Act.fail e >>= next else next ()) :=
  strict_when (strict_fail he) h

theorem Strict.bind_attempt {exec?' : δ → Option ExecError} {act : Act S ε α}
    {next : Except ε α → Act S δ β} (h : Strict world keeps exec? act)
    (hnext : ∀ result, (∀ e, result = .error e → exec? e = none) →
      Strict world keeps exec?' (next result)) :
    Strict world keeps exec?' (act.attempt >>= next) := by
  intro s hs
  obtain ⟨hs', hend⟩ := h s hs
  rcases hstart : act.start s with ⟨(e | text) | a, s'⟩ <;> rw [hstart] at hs' hend
  · rw [Act.start_bind_of_ok (Act.start_attempt_of_failed hstart)]
    cases hend with
    | failed hnone hsame =>
        obtain ⟨hs'', hlast⟩ := hnext (.error e) (fun _ heq => Except.error.inj heq ▸ hnone) s' hs'
        exact ⟨hs'', hlast.trans hsame⟩
  · rw [Act.start_bind_of_error (Act.start_attempt_of_halted hstart)]
    cases hend with
    | halted hlast => exact ⟨hs', .halted hlast⟩
  · rw [Act.start_bind_of_ok (Act.start_attempt_of_ok hstart)]
    cases hend with
    | ok hsame =>
        obtain ⟨hs'', hlast⟩ := hnext (.ok a) nofun s' hs'
        exact ⟨hs'', hlast.trans hsame⟩

theorem Strict.within {part : T → World σ} {inner : S → T → Prop} {exec?' : δ → Option ExecError}
    {act : Act T ε α} {get : S → T} {set : T → S → S} {f : ε → δ}
    (h : ∀ s, Strict part (inner s) exec? act) (hget : ∀ s, keeps s → inner s (get s))
    (hset : ∀ s t, inner s t → keeps (set t s)) (hpart : ∀ s, part (get s) = world s)
    (hworld : ∀ s t, world (set t s) = part t) (hf : ∀ e, exec? e = none → exec?' (f e) = none) :
    Strict world keeps exec?' ((act.within get set).mapError f) := by
  intro s hs
  obtain ⟨ht, hend⟩ := h s (get s) (hget s hs)
  rw [Act.start_mapError, Act.start_within]
  simp only [hworld]
  refine ⟨hset s _ ht, ?_⟩
  rw [hpart] at hend
  rcases hresult : (act.start (get s)).1 with stop | a <;> rw [hresult] at hend
  · cases hend with
    | failed hnone hsame => exact .failed (hf _ hnone) hsame
    | halted hlast => exact .halted hlast
  · cases hend with
    | ok hsame => exact .ok hsame

end Steps

section World

variable {said : Bytes → Prop}

theorem strict_does_of_mute {step : World σ → α × World σ} (h : ∀ w, Mute w (step w).2) :
    Strict id (Armed said) some (Act.does step : Act (World σ) ExecError α) :=
  strict_does fun w hw => ⟨hw.of_mute (h w), (h w).alarms⟩

theorem Strict.ne_failed {act : Act (World σ) ExecError α} (h : Strict id (Armed said) some act)
    {w w' : World σ} {e : ExecError} (hw : Armed said w) :
    act.start w ≠ (.error (.failed e), w') := by
  intro hstart
  have hend := (h w hw).2
  rw [hstart] at hend
  cases hend with
  | failed hnone hsame => cases hnone

theorem Strict.andThen {after : World σ → World σ} {act : Act (World σ) ExecError α}
    (h : Strict id (Armed said) some act) (hidle : ∀ w, Idle w (after w)) :
    Strict id (Armed said) some (act.andThen after) := by
  intro w hw
  obtain ⟨hw', hend⟩ := h w hw
  exact ⟨hw'.of_mute (hidle _).toMute, hend.idle (hidle _)⟩

theorem Strict.onFailure {after : World σ → World σ} {act : Act (World σ) ExecError α}
    (h : Strict id (Armed said) some act) (hidle : ∀ w, Idle w (after w)) :
    Strict id (Armed said) some (act.onFailure after) := by
  intro w hw
  obtain ⟨hw', hend⟩ := h w hw
  rcases hstart : act.start w with ⟨stop | a, w'⟩ <;> rw [hstart] at hw' hend
  · rw [Act.start_onFailure_of_error hstart]
    exact ⟨hw'.of_mute (hidle _).toMute, hend.idle (hidle _)⟩
  · rw [Act.start_onFailure_of_ok hstart]
    exact ⟨hw', hend⟩

end World

namespace Executor

variable {said : Bytes → Prop}

theorem stopOf_of_armed {w : World σ} (hw : Armed said w) (e : ExecError) :
    stopOf w e = .halted s!"fatal: {e.text}" := by
  rw [stopOf, hw.handler]

theorem strict_raise (e : ExecError) :
    Strict id (Armed said) some (raise e : Act (World σ) ExecError α) := by
  intro w hw
  rw [start_raise, stopOf_of_armed hw]
  exact ⟨⟨hw.handler, hw.spoken⟩, .halted rfl⟩

theorem composes_strict :
    Composes (σ := σ) fun act => Strict id (Armed said) some act where
  pure := strict_pure
  does := strict_does_of_mute
  raise _ := strict_raise _
  bind := Strict.bind
  andThen := Strict.andThen
  onFailure := Strict.onFailure

theorem strict_openPipe :
    Strict id (Armed said) some (openPipe : Act (World σ) ExecError Nat) :=
  composes_strict.openPipe

theorem strict_closeEnd (pipe : Nat) (side : Side) :
    Strict id (Armed said) some (closeEnd pipe side : Act (World σ) ExecError Unit) :=
  composes_strict.closeEnd pipe side

theorem strict_spawn (s : Spec) :
    Strict id (Armed said) some (spawn s : Act (World σ) ExecError Handle) :=
  composes_strict.spawn s

theorem strict_reap (h : Handle) (brokenPipeExpected : Bool) :
    Strict id (Armed said) some (reap h brokenPipeExpected : Act (World σ) ExecError Nat) :=
  composes_strict.reap h brokenPipeExpected

theorem strict_refuse (s : Spec) (operation : Operation) (stream : Stream) :
    Strict id (Armed said) some (refuse s operation stream : Act (World σ) ExecError α) :=
  (strict_raise _).andThen fun w => w.idle_closeAll s.ends

theorem strict_run (s : Spec) :
    Strict id (Armed said) some (run s : Act (World σ) ExecError Nat) :=
  composes_strict.run fun _ _ => strict_refuse s _ _

theorem strict_capture (s : Spec) :
    Strict id (Armed said) some (capture s : Act (World σ) ExecError Captured) :=
  composes_strict.capture fun _ _ => strict_refuse s _ _

end Executor

end ChatSpace.Processes
