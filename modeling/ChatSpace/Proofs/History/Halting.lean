import ChatSpace.Proofs.History.Reporting
import ChatSpace.Proofs.Processes.Halting

namespace ChatSpace.History

open Batch Processes

variable {σ τ α β : Type} {said : τ → Bytes → Prop}

def AsSaid (said : τ → Bytes → Prop) (s : World σ × τ) : Prop :=
  Armed (said s.2) s.1

theorem strict_onWorld {act : Act (World σ) ExecError α}
    (h : ∀ said, Strict id (Armed said) some act) :
    Strict Prod.fst (AsSaid said) TraversalError.exec?
      (onWorld act : Act (World σ × τ) TraversalError α) :=
  Strict.within (fun s => h (said s.2)) (fun _ hs => hs) (fun _ _ hw => hw) (fun _ => rfl)
    (fun _ _ => rfl) nofun

theorem strict_onWorldClosing {act : Act (World σ) ExecError α}
    (h : ∀ said, Strict id (Armed said) some act) (ends : List PipeEnd) :
    Strict Prod.fst (AsSaid said) TraversalError.exec?
      (onWorldClosing ends act : Act (World σ × τ) TraversalError α) :=
  strict_onWorld fun said => (h said).onFailure fun w => w.idle_closeAll ends

theorem strict_attempt {act : Act (World σ) ExecError α}
    {next : Except ExecError α → Act (World σ × τ) TraversalError β}
    (h : ∀ said, Strict id (Armed said) some act)
    (hnext : ∀ a, Strict Prod.fst (AsSaid said) TraversalError.exec? (next (.ok a))) :
    Strict Prod.fst (AsSaid said) TraversalError.exec?
      ((onWorld (Act.attempt act) : Act (World σ × τ) TraversalError _) >>= next) := by
  rintro ⟨w, t⟩ hs
  obtain ⟨hs', hend⟩ := h (said t) w hs
  rcases hstart : act.start w with ⟨(e | text) | a, w'⟩
  · exact absurd hstart ((h (said t)).ne_failed hs)
  · rw [hstart] at hs' hend
    rw [Act.start_bind_of_error
      (start_onWorld_of_error (Act.start_attempt_of_halted hstart) t)]
    cases hend with
    | halted hlast => exact ⟨hs', .halted hlast⟩
  · rw [hstart] at hs' hend
    obtain ⟨hs'', hlast⟩ := hnext a (w', t) hs'
    rw [Act.start_bind_of_ok (start_onWorld_of_ok (Act.start_attempt_of_ok hstart) t)]
    cases hend with
    | ok hsame => exact ⟨hs'', hlast.trans hsame⟩

theorem strict_startHelpers (q : Query) (link output : Nat) :
    Strict Prod.fst (AsSaid said) TraversalError.exec?
      (startHelpers q link output : Act (World σ × τ) TraversalError (Handle × Handle)) := by
  apply (strict_onWorldClosing (fun _ => Executor.strict_spawn (q.lister link)) _).bind
  intro lister
  apply strict_attempt fun _ => Executor.strict_spawn (q.dumper link output)
  intro dumper
  exact strict_pure _

theorem strict_reapLister (lister dumper : Handle) (v : Verdict) :
    Strict Prod.fst (AsSaid said) TraversalError.exec?
      (reapLister lister dumper v : Act (World σ × τ) TraversalError Nat) := by
  apply strict_attempt fun _ => Executor.strict_reap lister _
  intro code
  exact strict_pure code

theorem strict_conclude {v : Verdict} (hv : ∀ e, v ≠ .failed (.exec e))
    (listerCode dumperCode : Nat) :
    Strict Prod.fst (AsSaid said) TraversalError.exec?
      (conclude v listerCode dumperCode : Act (World σ × τ) TraversalError Outcome) := by
  cases v with
  | failed e =>
      refine strict_fail ?_
      cases e with
      | exec e => exact absurd rfl (hv e)
      | _ => rfl
  | unread source => exact strict_onWorld fun _ => Executor.strict_raise _
  | ended outcome =>
      cases outcome with
      | stopped => exact strict_pure _
      | completed =>
          simp only [conclude]
          split
          · exact strict_fail rfl
          · split
            · exact strict_fail rfl
            · exact strict_pure _

def Honest (said : τ → Bytes → Prop)
    (callback : Commit → World σ × τ → Answer × (World σ × τ)) : Prop :=
  ∀ c s, AsSaid said s → AsSaid said (callback c s).2 ∧
    (callback c s).2.1.journal.alarms = s.1.journal.alarms

theorem Honest.stream {callback : Commit → World σ × τ → Answer × (World σ × τ)}
    (h : Honest said callback) (q : Query) (output : Nat) {s : World σ × τ} (hs : AsSaid said s) :
    AsSaid said (stream q output callback s).2 ∧
      (stream q output callback s).2.1.journal.alarms = s.1.journal.alarms := by
  let keeps (s' : World σ × τ) : Prop :=
    AsSaid said s' ∧ s'.1.journal.alarms = s.1.journal.alarms
  have hread (s' : World σ × τ) (hs' : keeps s') : keeps (beside (readOutput output) s').2 := by
    have hmute := s'.1.mute_receive output readSize
    exact ⟨hs'.1.of_mute hmute, hmute.alarms.trans hs'.2⟩
  have hcall (c : Commit) (s' : World σ × τ) (hs' : keeps s') : keeps (callback c s').2 :=
    ⟨(h c s' hs'.1).1, (h c s' hs'.1).2.trans hs'.2⟩
  obtain ⟨v, s', ⟨⟨hhandler, hspoken⟩, halarms⟩, hstream⟩ :=
    stream_keeps (q := q) hread hcall (s := s) ⟨hs, rfl⟩
  rw [hstream]
  exact ⟨⟨hhandler, hspoken⟩, halarms⟩

theorem strict_traverse {callback : Commit → World σ × τ → Answer × (World σ × τ)}
    (h : Honest said callback) (q : Query) :
    Strict Prod.fst (AsSaid said) TraversalError.exec? (traverse q callback) := by
  apply (strict_onWorld fun _ => Executor.strict_openPipe).bind
  intro link
  apply (strict_onWorldClosing (fun _ => Executor.strict_openPipe) _).bind
  intro output
  apply (strict_startHelpers q link output).bind
  rintro ⟨lister, dumper⟩
  have hstream : Strict Prod.fst (AsSaid said) TraversalError.exec?
      (Act.does (stream q output callback) : Act (World σ × τ) TraversalError Verdict) :=
    strict_does fun s hs => h.stream q output hs
  apply hstream.bind_result
  rintro s v s' hresult
  have hv (e : ExecError) : v ≠ .failed (.exec e) := by
    cases hresult
    exact stream_ne_exec e
  apply (strict_reapLister lister dumper v).bind
  intro listerCode
  apply (strict_onWorld fun _ => Executor.strict_reap dumper _).bind
  intro dumperCode
  exact strict_conclude hv listerCode dumperCode

end ChatSpace.History
