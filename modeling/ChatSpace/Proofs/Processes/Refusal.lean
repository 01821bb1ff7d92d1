import ChatSpace.Proofs.Processes.Reporting

namespace ChatSpace.Processes

variable {σ α β : Type}

namespace Streams

variable {s : Streams} {stream : Stream}

inductive First (s : Streams) : Stream → Prop
  | stdin : s.stdin.isProvisioned → First s .stdin
  | stdout : ¬ s.stdin.isProvisioned → s.stdout.isProvisioned → First s .stdout
  | stderr : ¬ s.stdin.isProvisioned → ¬ s.stdout.isProvisioned → s.stderr.isProvisioned →
      First s .stderr

theorem provisioned?_of_first (h : s.First stream) : s.provisioned? = some stream := by
  cases h with
  | stdin hin => simp [provisioned?, order, get, hin]
  | stdout hin hout => simp [provisioned?, order, get, hin, hout]
  | stderr hin hout herr => simp [provisioned?, order, get, hin, hout, herr]

theorem exists_first (h : ∃ stream, (s.get stream).isProvisioned) :
    ∃ stream, s.First stream := by
  obtain ⟨stream, h⟩ := h
  by_cases hin : s.stdin.isProvisioned
  · exact ⟨.stdin, .stdin hin⟩
  by_cases hout : s.stdout.isProvisioned
  · exact ⟨.stdout, .stdout hin hout⟩
  cases stream with
  | stdin => exact absurd h hin
  | stdout => exact absurd h hout
  | stderr => exact ⟨.stderr, .stderr hin hout h⟩

theorem provisioned?_of_none (h : ¬ ∃ stream, (s.get stream).isProvisioned) :
    s.provisioned? = none := by
  have hfree (stream : Stream) : (s.get stream).isProvisioned = false := by
    simpa using not_exists.mp h stream
  simp [provisioned?, order, hfree]

end Streams

structure Blameless (w : World σ) (result : Except (Stop ExecError) α) (w' : World σ) : Prop where
  failed : ∀ e, result = .error (.failed e) → e.isProgramming = false
  reports : ∃ late, w'.journal.reports = w.journal.reports ++ late ∧
    ∀ e ∈ late, e.isProgramming = false

def Forgiving (act : Act (World σ) ExecError α) : Prop :=
  ∀ w, Blameless w (act.start w).1 (act.start w).2

theorem Silent.blameless {w w' : World σ} (h : Silent w w') (a : α) :
    Blameless w (.ok a) w' :=
  ⟨nofun, [], h.reports.trans (List.append_nil _).symm, by simp⟩

theorem Blameless.silent {w w' w'' : World σ} {result : Except (Stop ExecError) α}
    (h : Blameless w result w') (hafter : Silent w' w'') : Blameless w result w'' := by
  obtain ⟨late, hreports, hlate⟩ := h.reports
  exact ⟨h.failed, late, hafter.reports.trans hreports, hlate⟩

theorem Blameless.of_error {w w' : World σ} {stop : Stop ExecError}
    (h : Blameless w (.error stop : Except _ α) w') :
    Blameless w (.error stop : Except _ β) w' :=
  ⟨fun e he => h.failed e (by cases he; rfl), h.reports⟩

theorem Blameless.trans {u v w : World σ} {a : α} {result : Except (Stop ExecError) β}
    (h : Blameless u (.ok a : Except _ α) v) (h' : Blameless v result w) :
    Blameless u result w := by
  obtain ⟨late, hreports, hlate⟩ := h.reports
  obtain ⟨later, hreports', hlater⟩ := h'.reports
  refine ⟨h'.failed, late ++ later, by rw [hreports', hreports, List.append_assoc], ?_⟩
  intro e he
  exact (List.mem_append.mp he).elim (hlate e) (hlater e)

theorem forgiving_pure (a : α) : Forgiving (pure a : Act (World σ) ExecError α) :=
  fun w => (Silent.refl w).blameless a

theorem forgiving_does {step : World σ → α × World σ} (h : ∀ w, Silent w (step w).2) :
    Forgiving (Act.does step : Act (World σ) ExecError α) :=
  fun w => (h w).blameless (step w).1

theorem Forgiving.bind {act : Act (World σ) ExecError α} {next : α → Act (World σ) ExecError β}
    (h : Forgiving act) (hnext : ∀ a, Forgiving (next a)) : Forgiving (act >>= next) := by
  intro w
  have hact := h w
  rcases hstart : act.start w with ⟨stop | a, w'⟩ <;> rw [hstart] at hact
  · rw [Act.start_bind_of_error hstart]
    exact hact.of_error
  · rw [Act.start_bind_of_ok hstart]
    exact hact.trans (hnext a w')

theorem Forgiving.andThen {act : Act (World σ) ExecError α} {after : World σ → World σ}
    (h : Forgiving act) (hafter : ∀ w, Silent w (after w)) : Forgiving (act.andThen after) :=
  fun w => (h w).silent (hafter _)

theorem Forgiving.onFailure {act : Act (World σ) ExecError α} {after : World σ → World σ}
    (h : Forgiving act) (hafter : ∀ w, Silent w (after w)) : Forgiving (act.onFailure after) := by
  intro w
  have hact := h w
  rcases hstart : act.start w with ⟨stop | a, w'⟩ <;> rw [hstart] at hact
  · rw [Act.start_onFailure_of_error hstart]
    exact hact.silent (hafter w')
  · rw [Act.start_onFailure_of_ok hstart]
    exact hact

namespace Executor

variable {s : Spec}

theorem forgiving_raise {e : ExecError} (h : e.isProgramming = false) :
    Forgiving (raise e : Act (World σ) ExecError α) := by
  intro w
  rw [start_raise]
  refine ⟨fun other hother => ?_, [e], w.reports_report e, by simpa using h⟩
  rw [stopOf] at hother
  split at hother <;> cases hother
  exact h

theorem composes_forgiving : Composes (σ := σ) fun act => Forgiving act where
  pure := forgiving_pure
  does h := forgiving_does fun w => (h w).silent
  raise := forgiving_raise
  bind := Forgiving.bind
  andThen h hafter := h.andThen fun w => (hafter w).silent
  onFailure h hafter := h.onFailure fun w => (hafter w).silent

theorem forgiving_run (h : s.provisioned? = none) :
    Forgiving (run s : Act (World σ) ExecError Nat) :=
  composes_forgiving.run fun _ hstream => absurd (h.symm.trans hstream) nofun

theorem forgiving_capture (h : s.provisioned? = none) :
    Forgiving (capture s : Act (World σ) ExecError Captured) :=
  composes_forgiving.capture fun _ hstream => absurd (h.symm.trans hstream) nofun

end Executor

namespace Executor

variable {s : Spec} {stream : Stream}

theorem refuses_provisioned (s : Spec) :
    ((∃ stream, (s.streams.get stream).isProvisioned) → ∃ stream, s.streams.First stream ∧
      ∀ (w : World σ) spawn,
        (run s).start w = (.error (stopOf w (.provisionedStream .run stream)),
          w.refusing s.ends (.provisionedStream .run stream)) ∧
        (capture s).start w = (.error (stopOf w (.provisionedStream .capture stream)),
          w.refusing s.ends (.provisionedStream .capture stream)) ∧
        runBy spawn s = (run s : Act (World σ) _ _) ∧
        captureBy spawn s = (capture s : Act (World σ) _ _)) ∧
    ((¬ ∃ stream, (s.streams.get stream).isProvisioned) →
      Forgiving (run s : Act (World σ) _ _) ∧ Forgiving (capture s : Act (World σ) _ _)) := by
  constructor
  · intro hprovisioned
    obtain ⟨stream, hfirst⟩ := Streams.exists_first hprovisioned
    refine ⟨stream, hfirst, fun w spawn => ?_⟩
    have hstream : s.provisioned? = some stream := Streams.provisioned?_of_first hfirst
    have hrun : (run s : Act (World σ) _ _) = refuse s .run stream :=
      runBy_of_provisioned hstream Executor.spawn
    have hcapture : (capture s : Act (World σ) _ _) = refuse s .capture stream :=
      captureBy_of_provisioned hstream Executor.spawn
    rw [hrun, hcapture, runBy_of_provisioned hstream, captureBy_of_provisioned hstream]
    exact ⟨start_refuse s .run stream w, start_refuse s .capture stream w, rfl, rfl⟩
  · intro hnone
    have hstream : s.provisioned? = none := Streams.provisioned?_of_none hnone
    exact ⟨forgiving_run hstream, forgiving_capture hstream⟩

def starvedWorld : World Unit :=
  { state := ()
    programs := fun _ s => (⟨[], .code 0, .code 0⟩, s)
    plumbing := { pipes := [Utf8.encode "kept"], input := Utf8.encode "unread" }
    held := [⟨0, .reading⟩, ⟨0, .writing⟩]
    exhausted := true }

def doubleSpec : Spec :=
  { program := .named (Utf8.encode "missing")
    workDir := some (Utf8.encode "nowhere")
    streams := { stdout := .provisioned ⟨0, .writing⟩, stderr := .provisioned ⟨0, .writing⟩ } }

theorem refuses_provisioned_starved :
    (∃ stream, (doubleSpec.streams.get stream).isProvisioned) ∧
      (capture doubleSpec).start starvedWorld =
        (.error (.failed (.provisionedStream .capture .stdout)),
          { starvedWorld with
            held := [⟨0, .reading⟩]
            journal :=
              { alarms := [⟨.provisionedStream .capture .stdout, starvedWorld.tally⟩] } }) := by
  have hprovisioned : ∃ stream, (doubleSpec.streams.get stream).isProvisioned := ⟨.stdout, rfl⟩
  obtain ⟨stream, hfirst, hrefuses⟩ := (refuses_provisioned doubleSpec).1 hprovisioned
  obtain ⟨-, hcapture, -, -⟩ := hrefuses starvedWorld Executor.spawn
  refine ⟨hprovisioned, ?_⟩
  rw [hcapture]
  cases hfirst with
  | stdin hin => cases hin
  | stdout _ _ => rfl
  | stderr _ hout _ => exact absurd rfl hout

end Executor

end ChatSpace.Processes
