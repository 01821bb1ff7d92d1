import ChatSpace.Proofs.History.Verdict
import ChatSpace.Proofs.Processes.Reporting
import ChatSpace.Writing.Pager

namespace ChatSpace.History

open Batch Processes Writing

variable {σ τ S α : Type}

def TraversalError.exec? : TraversalError → Option ExecError
  | .exec error => some error
  | _ => none

theorem candid_onWorld {act : Act (World σ) ExecError α} (h : Candid id some act) :
    Candid Prod.fst TraversalError.exec?
      (onWorld act : Act (World σ × τ) TraversalError α) := by
  rintro ⟨w, t⟩ hreturns
  have hact := h w hreturns
  rcases hstart : act.start w with ⟨stop | a, w'⟩ <;> rw [hstart] at hact
  · rw [start_onWorld_of_error hstart]
    cases stop with
    | failed e => exact ⟨failed_ne_halted _, hact.handler, hact.reports⟩
    | halted text => exact absurd rfl (hact.lives text)
  · rw [start_onWorld_of_ok hstart]
    exact ⟨ok_ne_halted a, hact.handler, hact.reports⟩

theorem candid_onWorldClosing {act : Act (World σ) ExecError α} (h : Candid id some act)
    (ends : List PipeEnd) :
    Candid Prod.fst TraversalError.exec?
      (onWorldClosing ends act : Act (World σ × τ) TraversalError α) :=
  candid_onWorld (h.onFailure fun w => w.silent_closeAll ends)

theorem silent_stream {callback : Commit → World σ × τ → Answer × (World σ × τ)}
    (hcall : ∀ c s, Silent s.1 (callback c s).2.1) (q : Query) (output : Nat) (s : World σ × τ) :
    Silent s.1 (stream q output callback s).2.1 := by
  have hread (s' : World σ × τ) (h : Silent s.1 s'.1) :
      Silent s.1 (beside (readOutput output) s').2.1 :=
    h.trans (World.calm_receive s'.1 output readSize).silent
  have hkeep (c : Commit) (s' : World σ × τ) (h : Silent s.1 s'.1) :
      Silent s.1 (callback c s').2.1 :=
    h.trans (hcall c s')
  obtain ⟨v, s', hsilent, hstream⟩ := stream_keeps (q := q) hread hkeep (Silent.refl s.1)
  rw [hstream]
  exact hsilent.trans ⟨rfl, rfl⟩

theorem candid_startHelpers (q : Query) (link output : Nat) :
    Candid Prod.fst TraversalError.exec?
      (startHelpers q link output : Act (World σ × τ) TraversalError (Handle × Handle)) := by
  apply Candid.bind (candid_onWorldClosing (Executor.candid_spawn (q.lister link)) _)
  rintro lister ⟨w, t⟩ hreturns
  have hdumper := Executor.candid_spawn (q.dumper link output) w hreturns
  rcases hspawn : (Executor.spawn (q.dumper link output)).start w with ⟨(e | text) | dumper, w'⟩ <;>
    rw [hspawn] at hdumper
  · have hstart : (onWorld (Act.attempt (Executor.spawn (q.dumper link output))) :
        Act (World σ × τ) TraversalError _).start (w, t) = (.ok (.error e), (w', t)) :=
      start_onWorld_of_ok (Act.start_attempt_of_failed hspawn) t
    rw [Act.start_bind_of_ok hstart]
    simp only
    have hlister := Executor.candid_reap lister true w' hdumper.handler
    rcases hreap : (Executor.finishAfterClose lister).start w' with ⟨stop | code, w''⟩ <;>
      rw [show (Executor.reap lister true).start w' = _ from hreap] at hlister
    · obtain ⟨source, rfl⟩ := Executor.reap_eq_error hreap
      have hreturns' : (w'.wait lister.child).2.handler = .returns :=
        (w'.silent_wait lister.child).handler.trans hdumper.handler
      have hreap := start_onWorldClosing_of_error hreap [⟨output, .reading⟩] t
      rw [Act.start_bind_of_error hreap, Executor.stopOf, hreturns']
      have hclose := w''.silent_closeAll [⟨output, .reading⟩]
      exact ⟨failed_ne_halted _, hclose.handler.trans hlister.handler,
        fun hwait => absurd rfl (hwait _ _ source)⟩
    · have hreap := start_onWorldClosing_of_ok hreap [⟨output, .reading⟩] t
      have hfirst := hdumper.reports
      rw [Act.start_bind_of_ok hreap]
      exact ⟨failed_ne_halted _, hlister.handler,
        fun hwait => hlister.reports_eq.trans (hfirst hwait)⟩
  · exact absurd rfl (hdumper.lives text)
  · have hstart : (onWorld (Act.attempt (Executor.spawn (q.dumper link output))) :
        Act (World σ × τ) TraversalError _).start (w, t) = (.ok (.ok dumper), (w', t)) :=
      start_onWorld_of_ok (Act.start_attempt_of_ok hspawn) t
    rw [Act.start_bind_of_ok hstart]
    exact ⟨ok_ne_halted _, hdumper.handler, hdumper.reports⟩

theorem candid_reapLister (lister dumper : Handle) (v : Verdict) :
    Candid Prod.fst TraversalError.exec?
      (reapLister lister dumper v : Act (World σ × τ) TraversalError Nat) := by
  rintro ⟨w, t⟩ hreturns
  have hlister := Executor.candid_reap lister (v ≠ .ended .completed) w hreturns
  rcases hreap : (reapHelper lister v).start w with ⟨(e | text) | code, w'⟩ <;>
    rw [show (Executor.reap lister (v ≠ .ended .completed)).start w = _ from hreap] at hlister
  · have hstart : (onWorld (Act.attempt (reapHelper lister v)) :
        Act (World σ × τ) TraversalError _).start (w, t) = (.ok (.error e), (w', t)) :=
      start_onWorld_of_ok (Act.start_attempt_of_failed hreap) t
    have hdrop := w'.silent_wait dumper.child
    rw [reapLister, Act.start_bind_of_ok hstart]
    exact ⟨failed_ne_halted _, hdrop.handler.trans hlister.handler,
      fun hwait => hdrop.reports.trans (hlister.reports hwait)⟩
  · exact absurd rfl (hlister.lives text)
  · rw [start_reapLister_of_ok hreap]
    exact ⟨ok_ne_halted code, hlister.handler, hlister.reports⟩

theorem candid_conclude {v : Verdict} (hv : ∀ e, v ≠ .failed (.exec e))
    (listerCode dumperCode : Nat) :
    Candid Prod.fst TraversalError.exec?
      (conclude v listerCode dumperCode : Act (World σ × τ) TraversalError Outcome) := by
  cases v with
  | failed e =>
      refine candid_fail ?_
      cases e with
      | exec e => exact absurd rfl (hv e)
      | _ => rfl
  | unread source => exact candid_onWorld (Executor.candid_raise _)
  | ended outcome =>
      cases outcome with
      | stopped => exact candid_pure _
      | completed =>
          simp only [conclude]
          split
          · exact candid_fail rfl
          · split
            · exact candid_fail rfl
            · exact candid_pure _

theorem candid_traverse {callback : Commit → World σ × τ → Answer × (World σ × τ)}
    (hcall : ∀ c s, Silent s.1 (callback c s).2.1) (q : Query) :
    Candid Prod.fst TraversalError.exec? (traverse q callback) := by
  apply Candid.bind (candid_onWorld Executor.candid_openPipe)
  intro link
  apply Candid.bind (candid_onWorldClosing Executor.candid_openPipe _)
  intro output
  apply Candid.bind (candid_startHelpers q link output)
  rintro ⟨lister, dumper⟩
  have hstream : Candid Prod.fst TraversalError.exec?
      (Act.does (stream q output callback) : Act (World σ × τ) TraversalError Verdict) :=
    candid_does (silent_stream hcall q output)
  apply hstream.bind_result
  rintro s v s' hresult
  have hv (e : ExecError) : v ≠ .failed (.exec e) := by
    cases hresult
    exact stream_ne_exec e
  apply Candid.bind (candid_reapLister lister dumper v)
  intro listerCode
  apply Candid.bind (candid_onWorld (Executor.candid_reap dumper _))
  intro dumperCode
  exact candid_conclude hv listerCode dumperCode

theorem candid_spawnPager (command : String) :
    Candid id some (Pager.spawn command : Act (World σ) ExecError Pager) := by
  apply Candid.bind Executor.candid_openPipe
  intro pipe
  apply Candid.bind candid_current
  intro w
  have hclose (w : World σ) : Silent w (w.close ⟨pipe, .writing⟩) := ⟨rfl, rfl⟩
  apply Candid.bind ((Executor.candid_spawn _).onFailure hclose)
  intro handle
  exact candid_pure _

theorem candid_finishPager (p : Pager) :
    Candid id some (p.finish : Act (World σ) ExecError (Nat × Pager)) := by
  obtain ⟨input, handle⟩ := p
  cases handle with
  | none =>
      cases input with
      | none => exact candid_pure _
      | some pipe => exact (Executor.candid_closeEnd pipe .writing).bind fun _ => candid_pure _
  | some handle =>
      have hfinish : Candid id some (do
          let code ← Executor.finish handle
          pure (code, (⟨none, none⟩ : Pager)) : Act (World σ) ExecError (Nat × Pager)) :=
        (Executor.candid_reap handle false).bind fun code => candid_pure _
      cases input with
      | none => exact hfinish
      | some pipe => exact (Executor.candid_closeEnd pipe .writing).bind fun _ => hfinish

/-- The calls that run programs. A walk shows its commits, and other things happen in between,
without calls of their own. -/
inductive Call (σ τ : Type) where
  | run (s : Spec)
  | capture (s : Spec)
  | spawn (s : Spec)
  | finish (h : Handle)
  | finishAfterClose (h : Handle)
  | drop (h : Handle)
  | traverse (q : Query) (callback : Commit → World σ × τ → Answer × (World σ × τ))
      (silent : ∀ c s, Silent s.1 (callback c s).2.1)
  | spawnPager (command : String)
  | finishPager (p : Pager)
  | elsewhere (step : World σ × τ → World σ × τ) (silent : ∀ s, Silent s.1 (step s).1)

def attempted {ε : Type} (exec? : ε → Option ExecError) (act : Act S ε α) (s : S) :
    Option ExecError × S :=
  (returned exec? (act.start s).1, (act.start s).2)

def attemptedBeside (act : Act (World σ) ExecError α) (s : World σ × τ) :
    Option ExecError × (World σ × τ) :=
  ((attempted some act s.1).1, ((attempted some act s.1).2, s.2))

def Call.perform : Call σ τ → World σ × τ → Option ExecError × (World σ × τ)
  | run s => attemptedBeside (Executor.run s)
  | capture s => attemptedBeside (Executor.capture s)
  | spawn s => attemptedBeside (Executor.spawn s)
  | finish h => attemptedBeside (Executor.finish h)
  | finishAfterClose h => attemptedBeside (Executor.finishAfterClose h)
  | drop h => attemptedBeside (Executor.drop h)
  | traverse q callback _ => attempted TraversalError.exec? (History.traverse q callback)
  | spawnPager command => attemptedBeside (Pager.spawn command)
  | finishPager p => attemptedBeside p.finish
  | elsewhere step _ => fun s => (none, step s)

structure Turn (σ : Type) where
  before : World σ
  returned : Option ExecError
  after : World σ

def turns : List (Call σ τ) → World σ × τ → List (Turn σ)
  | [], _ => []
  | call :: calls, s =>
      ⟨s.1, (call.perform s).1, (call.perform s).2.1⟩ :: turns calls (call.perform s).2

structure Turn.Reported (turn : Turn σ) : Prop where
  handler : turn.after.handler = .returns
  reports : (∀ program pid source, turn.returned ≠ some (.wait program pid source)) →
    turn.after.journal.reports = turn.before.journal.reports ++ turn.returned.toList

theorem reported_attemptedBeside {act : Act (World σ) ExecError α} (h : Candid id some act)
    {s : World σ × τ} (hreturns : s.1.handler = .returns) :
    Turn.Reported ⟨s.1, (attemptedBeside act s).1, (attemptedBeside act s).2.1⟩ :=
  ⟨(h s.1 hreturns).handler, (h s.1 hreturns).reports⟩

theorem reported_perform (call : Call σ τ) {s : World σ × τ} (hreturns : s.1.handler = .returns) :
    Turn.Reported ⟨s.1, (call.perform s).1, (call.perform s).2.1⟩ := by
  cases call with
  | run spec => exact reported_attemptedBeside (Executor.candid_run spec) hreturns
  | capture spec => exact reported_attemptedBeside (Executor.candid_capture spec) hreturns
  | spawn spec => exact reported_attemptedBeside (Executor.candid_spawn spec) hreturns
  | finish h => exact reported_attemptedBeside (Executor.candid_reap h false) hreturns
  | finishAfterClose h => exact reported_attemptedBeside (Executor.candid_reap h true) hreturns
  | drop h =>
      have hdrop : Candid id some (Executor.drop h : Act (World σ) ExecError Unit) :=
        candid_change fun w => w.silent_wait h.child
      exact reported_attemptedBeside hdrop hreturns
  | traverse q callback silent =>
      have htraverse := candid_traverse silent q s hreturns
      exact ⟨htraverse.handler, htraverse.reports⟩
  | spawnPager command => exact reported_attemptedBeside (candid_spawnPager command) hreturns
  | finishPager p => exact reported_attemptedBeside (candid_finishPager p) hreturns
  | elsewhere step silent =>
      have hstep := silent s
      exact ⟨hstep.handler.trans hreturns, fun _ => hstep.reports.trans (List.append_nil _).symm⟩

theorem reported_turns (calls : List (Call σ τ)) {s : World σ × τ}
    (hreturns : s.1.handler = .returns) : ∀ turn ∈ turns calls s, turn.Reported := by
  induction calls generalizing s with
  | nil => simp [turns]
  | cons call calls ih =>
      have hfirst := reported_perform call hreturns
      intro turn hturn
      rcases List.mem_cons.mp hturn with rfl | hturn
      · exact hfirst
      · exact ih hfirst.handler turn hturn

theorem reports_of_mem_turns {calls : List (Call σ τ)} {s : World σ × τ}
    (hreturns : s.1.handler = .returns) {turn : Turn σ} (hturn : turn ∈ turns calls s)
    (hwait : ∀ program pid source, turn.returned ≠ some (.wait program pid source)) :
    turn.after.journal.reports = turn.before.journal.reports ++ turn.returned.toList :=
  (reported_turns calls hreturns turn hturn).reports hwait

def secondPipe : Refusals :=
  ⟨fun n r => if n = 1 ∧ r = .pipe then some .tooManyFiles else none⟩

def lostWorld : World Unit :=
  { state := ()
    programs := fun _ s => ({ actions := [], exit := .code 0 }, s)
    exhausted := secondPipe }

def lostWalk : Call Unit Unit :=
  .traverse hushedQuery (fun _ s => (.proceed, s)) fun _ s => .refl s.1

def lostCalls : List (Call Unit Unit) :=
  [lostWalk, .spawn { program := .engine },
    .run { program := .engine, streams := { stdout := .provisioned ⟨0, .writing⟩ } },
    .finishPager ⟨none, none⟩, lostWalk]

def lostErrors : List (Option ExecError) :=
  [some (.pipe .tooManyFiles), some (.programNotFound "git"),
    some (.provisionedStream .run .stdout), none, some (.programNotFound "git")]

theorem reports_of_mem_turns_lost :
    lostWorld.handler = .returns ∧
      (turns lostCalls (lostWorld, ())).map Turn.returned = lostErrors ∧
      ∀ turn ∈ turns lostCalls (lostWorld, ()),
        turn.after.journal.reports = turn.before.journal.reports ++ turn.returned.toList := by
  have hreturned : (turns lostCalls (lostWorld, ())).map Turn.returned = lostErrors := rfl
  refine ⟨rfl, hreturned, fun turn hturn => reports_of_mem_turns rfl hturn ?_⟩
  have hmem : turn.returned ∈ lostErrors := hreturned ▸ List.mem_map_of_mem hturn
  intro program pid source hwait
  rw [hwait] at hmem
  simp [lostErrors] at hmem

end ChatSpace.History
