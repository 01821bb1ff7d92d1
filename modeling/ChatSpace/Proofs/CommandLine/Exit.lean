import ChatSpace.CommandLine.Run
import ChatSpace.Proofs.History.Halting
import ChatSpace.Proofs.History.Reaping

namespace ChatSpace

open Processes Writing

variable {σ α : Type}

def CommandError.exec? : CommandError → Option ExecError
  | .exec error => some error
  | .history error => error.exec?
  | _ => none

namespace Writing.Pager

variable {said : Bytes → Prop}

theorem strict_spawn (command : String) :
    Strict id (Armed said) some (Pager.spawn command : Act (World σ) ExecError Pager) := by
  apply Executor.strict_openPipe.bind
  intro pipe
  apply strict_current.bind
  intro w
  apply ((Executor.strict_spawn _).onFailure fun w => w.idle_close ⟨pipe, .writing⟩).bind
  intro handle
  exact strict_pure _

theorem strict_finish (p : Pager) :
    Strict id (Armed said) some (p.finish : Act (World σ) ExecError (Nat × Pager)) := by
  have hwait (handle : Handle) : Strict id (Armed said) some (Executor.finish handle >>= fun code =>
      pure (code, ⟨none, none⟩) : Act (World σ) ExecError (Nat × Pager)) :=
    (Executor.strict_reap handle false).bind fun _ => strict_pure _
  have hclose (pipe : Nat) {act : Act (World σ) ExecError (Nat × Pager)}
      (hact : Strict id (Armed said) some act) :
      Strict id (Armed said) some (Executor.closeEnd pipe .writing >>= fun _ => act) :=
    (Executor.strict_closeEnd pipe .writing).bind fun _ => hact
  rcases p with ⟨_ | pipe, _ | handle⟩
  · exact strict_pure _
  · exact hwait handle
  · exact hclose pipe (strict_pure _)
  · exact hclose pipe (hwait handle)

theorem strict_drop (p : Pager) :
    Strict id (Armed said) some (p.drop : Act (World σ) ExecError Unit) :=
  p.strict_finish.bind_attempt fun _ _ => strict_pure ()

end Writing.Pager

namespace Session

variable {said : Writer → Bytes → Prop}

def AsSaid (said : Writer → Bytes → Prop) (s : Session σ) : Prop :=
  Armed (said s.writer) s.world

def heard (before : Bytes) (writer : Writer) (spoken : Bytes) : Prop :=
  ∀ sink, writer = .sink sink → spoken = before ++ sink.written

theorem strict_onWorld {act : Act (World σ) ExecError α}
    (h : ∀ said, Strict id (Armed said) some act) :
    Strict Session.world (AsSaid said) CommandError.exec? (onWorld act) :=
  Strict.within (fun s => h (said s.writer)) (fun _ hs => hs) (fun _ _ hw => hw) (fun _ => rfl)
    (fun _ _ => rfl) nofun

theorem strict_changeFiles
    (f : Files.Tree → Files.Location → Except (SystemError × Files.Tree) Files.Tree)
    {e : SystemError → CommandError} (he : ∀ source, (e source).exec? = none) :
    Strict Session.world (AsSaid said) CommandError.exec?
      (changeFiles f e : Act (Session σ) CommandError Unit) := by
  apply strict_current.bind
  intro s
  have hchange (files : Files.Tree) : Strict Session.world (AsSaid said) CommandError.exec?
      (Act.change (·.withFiles files) : Act (Session σ) CommandError Unit) :=
    strict_does fun s hs => ⟨⟨hs.handler, hs.spoken⟩, rfl⟩
  apply (hchange _).bind
  intro _
  split
  · exact strict_pure ()
  · exact strict_fail (he _)

theorem strict_finishWriter :
    Strict Session.world (AsSaid said) CommandError.exec?
      (finishWriter : Act (Session σ) CommandError Unit) := by
  apply strict_current.bind
  intro s
  split
  · exact strict_pure ()
  · next p _ => exact strict_onWorld fun _ => p.strict_drop

section Heard

variable {before : Bytes}

theorem heard_writeAll {writer : Writer} {w : World σ} (h : Armed (heard before writer) w)
    (data : Bytes) :
    Armed (heard before (writer.writeAll data w).2.1) (writer.writeAll data w).2.2 ∧
      (writer.writeAll data w).2.2.journal.alarms = w.journal.alarms := by
  have hcalm := writer.calm_writeAll data w
  refine ⟨⟨hcalm.handler.trans h.handler, ?_⟩, congrArg Journal.alarms hcalm.journal⟩
  cases writer with
  | sink sink =>
      intro _ heq
      obtain rfl := Writer.sink.inj heq
      change w.spoken ++ sink.taken data = before ++ (sink.writeAll data).2.written
      rw [Sink.written_writeAll, h.spoken sink rfl, List.append_assoc]
  | pager p => exact nofun

theorem strict_sayLine (line : String) :
    Strict Session.world (AsSaid (heard before)) CommandError.exec?
      (sayLine line : Act (Session σ) CommandError Unit) := by
  have hsay : Strict Session.world (AsSaid (heard before)) CommandError.exec?
      (Act.does (say (line ++ "\n")) : Act (Session σ) CommandError _) :=
    strict_does fun s hs => heard_writeAll hs (Utf8.encode (line ++ "\n"))
  apply hsay.bind
  rintro (e | ⟨⟩)
  · exact strict_fail rfl
  · exact strict_pure ()

end Heard

end Session

namespace Space

open Session

variable {said : Writer → Bytes → Prop} {before : Bytes}

theorem strict_openAt (dir : Bytes) (pager : Option String) (colour : Bool) :
    Strict Session.world (AsSaid said) CommandError.exec?
      (openAt dir pager colour : Act (Session σ) CommandError Space) := by
  apply strict_current.bind
  intro s
  apply strict_when (strict_changeFiles _ fun _ => rfl)
  apply strict_current.bind
  intro s
  split
  · exact strict_unless rfl (strict_pure _)
  · exact strict_fail rfl

theorem strict_runEngine (space : Space) (args : List String) :
    Strict Session.world (AsSaid said) CommandError.exec?
      (space.runEngine args : Act (Session σ) CommandError Unit) := by
  apply (strict_onWorld fun _ => Executor.strict_run _).bind
  intro code
  split
  · exact strict_fail rfl
  · exact strict_pure ()

theorem strict_captureEngine (space : Space) (args : List String) :
    Strict Session.world (AsSaid said) CommandError.exec?
      (space.captureEngine args : Act (Session σ) CommandError String) := by
  apply (strict_onWorld fun _ => Executor.strict_capture _).bind
  intro captured
  apply strict_unless rfl
  split
  · exact strict_pure _
  · exact strict_fail rfl

theorem strict_startPager (space : Space) :
    Strict Session.world (AsSaid (heard before)) CommandError.exec?
      (space.startPager : Act (Session σ) CommandError Unit) := by
  unfold startPager
  split
  · exact strict_pure ()
  · next command _ =>
    apply (strict_onWorld fun _ => Pager.strict_spawn command).bind
    intro pager
    apply strict_finishWriter.bind
    intro _
    exact strict_does fun s hs => ⟨⟨hs.handler, nofun⟩, rfl⟩

theorem strict_init (space : Space) :
    Strict Session.world (AsSaid (heard before)) CommandError.exec?
      (space.init : Act (Session σ) CommandError Unit) := by
  have hconfig : Strict Session.world (AsSaid (heard before)) CommandError.exec?
      (space.writeConfig : Act (Session σ) CommandError Unit) :=
    (strict_changeFiles _ fun _ => rfl).bind fun _ => strict_changeFiles _ fun _ => rfl
  apply strict_current.bind
  intro s
  apply strict_unless rfl
  apply (space.strict_runEngine _).bind
  intro _
  apply hconfig.bind
  intro _
  apply (space.strict_runEngine _).bind
  intro _
  apply (space.strict_runEngine _).bind
  intro _
  exact strict_sayLine _

theorem strict_message (space : Space) (text : String) :
    Strict Session.world (AsSaid (heard before)) CommandError.exec?
      (space.message text : Act (Session σ) CommandError Unit) := by
  unfold message
  apply strict_unless rfl
  apply (space.strict_runEngine _).bind
  intro _
  apply (space.strict_captureEngine _).bind
  intro head
  split
  · exact strict_sayLine _
  · exact strict_fail rfl

theorem honest_showCommit (space : Space) (options : ReadOptions) :
    History.Honest (fun showing => heard before showing.writer)
      (space.showCommit options : Commit → World σ × Showing → _) := by
  rintro c ⟨w, showing⟩ hs
  have hwrite := heard_writeAll hs
    (Utf8.encode (text (lines space.colour options (0 < showing.shown) c)))
  unfold showCommit
  split <;> next heq =>
    rw [heq] at hwrite
    exact hwrite

theorem strict_read (space : Space) (delimiter : Batch.Delimiter) (options : ReadOptions) :
    Strict Session.world (AsSaid (heard before)) CommandError.exec?
      (space.read delimiter options : Act (Session σ) CommandError Unit) := by
  have hhonest : History.Honest (fun t : Showing => heard before t.writer)
      (space.showCommit options : Commit → World σ × Showing → _) := space.honest_showCommit options
  have hwalk := History.strict_traverse hhonest (space.query delimiter options)
  apply Strict.bind
  · exact Strict.within (fun _ => hwalk) (fun _ hs => hs) (fun _ _ ht => ht) (fun _ => rfl)
      (fun _ _ => rfl) fun _ hnone => hnone
  · exact fun _ => strict_pure ()

end Space

namespace CommandLine

open Session

variable {before : Bytes} {c : Conditions} {request : Request}

theorem strict_perform (c : Conditions) (request : Request) :
    Strict Session.world (AsSaid (heard before)) CommandError.exec?
      (perform c request : Act (Session σ) CommandError Unit) := by
  have hopen (path : Bytes) : Strict Session.world (AsSaid (heard before)) CommandError.exec?
      (openSpace c path : Act (Session σ) CommandError Space) :=
    strict_current.bind fun s => Space.strict_openAt path _ _
  apply strict_current.bind
  intro s
  simp only
  split
  · exact (hopen _).bind fun space => space.strict_init
  · next text _ => exact (hopen _).bind fun space => space.strict_message text
  · apply (hopen _).bind
    intro space
    split
    · exact space.strict_startPager.bind fun _ => space.strict_read _ _
    · exact space.strict_read _ _

theorem strict_carryOut (c : Conditions) (request : Request) :
    Strict Session.world (AsSaid (heard before)) CommandError.exec?
      (carryOut c request : Act (Session σ) CommandError Unit) := by
  apply (strict_perform c request).bind_attempt
  intro result hnone
  apply strict_finishWriter.bind
  intro _
  cases result with
  | ok _ => exact strict_pure ()
  | error e => exact strict_fail (hnone e rfl)

theorem finishWriter_ne_failed (s : Session σ) (e : CommandError) :
    (finishWriter.start s).1 ≠ .error (.failed e) := by
  rw [finishWriter, Act.start_bind_of_ok (Act.start_current s)]
  split
  · exact nofun
  · next p _ =>
    -- a pager is dropped without asking what came of it
    rw [onWorld, Act.start_mapError, Act.start_within, Pager.drop, Act.start_bind]
    rcases hfinish : p.finish.start s.world with ⟨(error | text) | result, w⟩
    · rw [Act.start_attempt_of_failed hfinish]
      exact nofun
    · rw [Act.start_attempt_of_halted hfinish]
      exact nofun
    · rw [Act.start_attempt_of_ok hfinish]
      exact nofun

theorem start_finishWriter_bind_cases {act : Act (Session σ) CommandError Unit}
    {ended : Except (Stop CommandError) Unit} (hact : ∀ s, (act.start s).1 = ended)
    (s : Session σ) :
    (∃ text, ((finishWriter >>= fun _ => act).start s).1 = .error (.halted text)) ∨
      ((finishWriter >>= fun _ => act).start s).1 = ended := by
  rcases hfinish : finishWriter.start s with ⟨(e | text) | ⟨⟩, s'⟩
  · exact absurd (congrArg Prod.fst hfinish) (finishWriter_ne_failed s e)
  · rw [Act.start_bind_of_error hfinish]
    exact .inl ⟨text, rfl⟩
  · rw [Act.start_bind_of_ok hfinish]
    exact .inr (hact s')

theorem carryOut_cases (c : Conditions) (request : Request) (s : Session σ) :
    (∃ text, ((carryOut c request).start s).1 = .error (.halted text)) ∨
      ((carryOut c request).start s).1 = ((perform c request).start s).1 := by
  rcases hperform : (perform c request).start s with ⟨(e | text) | ⟨⟩, s'⟩
  · rw [carryOut, Act.start_bind_of_ok (Act.start_attempt_of_failed hperform)]
    exact start_finishWriter_bind_cases (fun _ => rfl) s'
  · rw [carryOut, Act.start_bind_of_error (Act.start_attempt_of_halted hperform)]
    exact .inl ⟨text, rfl⟩
  · rw [carryOut, Act.start_bind_of_ok (Act.start_attempt_of_ok hperform)]
    exact start_finishWriter_bind_cases (fun _ => rfl) s'

structure Exits (w : World σ) (returned : Except (Stop CommandError) Unit) (report : Report)
    (after : World σ) (raised : List Alarm) : Prop where
  alarms : after.journal.alarms = w.journal.alarms ++ raised
  fatal : report.code = 128 ↔ raised ≠ []
  failed : report.code = 1 ↔ raised = [] ∧ ∃ e, returned = .error (.failed e)
  done : report.code = 0 ↔ raised = [] ∧ ∀ e, returned ≠ .error (.failed e)
  last : ∀ alarm ∈ raised, raised = [alarm] ∧ alarm.tally = after.tally ∧
    report.stderr = Utf8.encode s!"fatal: {alarm.error.text}\n"
  spoken : report.stdout ≠ [] → after.spoken = w.spoken ++ report.stdout
  ordinary (e) : returned = .error (.failed e) → e.exec? = none

theorem spoken_of_asSaid {before : Bytes} {s : Session σ} (h : AsSaid (heard before) s)
    (hwritten : s.writer.written ≠ []) : s.world.spoken = before ++ s.writer.written := by
  obtain ⟨w, writer⟩ := s
  cases writer with
  | sink sink => exact h.spoken sink rfl
  | pager p => exact absurd rfl hwritten

theorem runRequest_exits (c : Conditions) (request : Request) (w : World σ) :
    ∃ raised, Exits w ((perform c request).start (opening w)).1 (runRequest c request w).1
      (runRequest c request w).2 raised := by
  have hopening : AsSaid (heard w.spoken) (opening w) := by
    refine ⟨rfl, ?_⟩
    rintro sink heq
    obtain rfl := Writer.sink.inj heq
    exact (List.append_nil _).symm
  have hordinary (e : CommandError)
      (he : ((perform c request).start (opening w)).1 = .error (.failed e)) : e.exec? = none := by
    have hend := (strict_perform c request (opening w) hopening).2
    rw [he] at hend
    cases hend with
    | failed hnone hsame => exact hnone
  obtain ⟨hsaid, hend⟩ := strict_carryOut c request (opening w) hopening
  have hcases := carryOut_cases c request (opening w)
  unfold runRequest
  rcases hstart : (carryOut c request).start (opening w) with ⟨result, s⟩
  rw [hstart] at hsaid hend hcases
  dsimp only at hsaid hend hcases ⊢
  have hspoken := spoken_of_asSaid hsaid
  cases hend with
  | ok hsame =>
      rw [← hcases.resolve_left nofun]
      refine ⟨[], hsame.trans (List.append_nil _).symm, ?_, ?_, ?_, nofun, hspoken, nofun⟩
      all_goals simp [reportOf]
  | @failed e hnone hsame =>
      rw [← hcases.resolve_left nofun]
      refine ⟨[], hsame.trans (List.append_nil _).symm, ?_, ?_, ?_, nofun, hspoken, ?_⟩
      all_goals simp [reportOf, hnone]
  | @halted e hlast =>
      refine ⟨[_], hlast, ?_, ?_, ?_, ?_, hspoken, hordinary⟩
      all_goals simp [reportOf, fatalCode]

def crowdedWorld : World Unit :=
  { state := ()
    programs := fun _ s => ({ actions := [], exit := .code 0 }, s)
    exhausted := true }

def crowdedConditions : Conditions :=
  { terminal := false, delimiter := ⟨"00112233aabbccdd"⟩ }

def crowdedRequest : Request :=
  { directory := none, task := .read none none false false }

def crowdedText : String :=
  "fatal: cannot create pipe: Too many open files (os error 24)"

def crowdedEnd : Session Unit :=
  { opening crowdedWorld with
    world := ((opening crowdedWorld).world.asked 1).report (.pipe .tooManyFiles) }

theorem start_read_crowded (space : Space) (options : Space.ReadOptions) :
    (space.read crowdedConditions.delimiter options).start (opening crowdedWorld) =
      (.error (.halted crowdedText), crowdedEnd) := by
  have hpipe : (Executor.openPipe : Act (World Unit) ExecError Nat).start
      (opening crowdedWorld).world =
        (.error (.halted crowdedText), crowdedEnd.world) :=
    rfl
  rw [Space.read]
  apply Act.start_bind_of_error
  rw [Act.start_mapError, Act.start_within, History.traverse,
    Act.start_bind_of_error (History.start_onWorld_of_error hpipe _)]
  rfl

theorem start_openSpace_crowded :
    (openSpace crowdedConditions (Files.Path.ofLocation [])).start (opening crowdedWorld) =
      (.ok ⟨[], some Settings.defaultPager, false⟩, opening crowdedWorld) := by
  have hpager : (Settings.ofBytes (opening crowdedWorld).world.valueOf?).pager =
      some Settings.defaultPager := by
    decide
  have hroot : (opening crowdedWorld).files.root = .directory [] := rfl
  have hresolve : (opening crowdedWorld).files.resolve (opening crowdedWorld).world.directory
      (Files.Path.ofLocation []) = .ok ([], .directory []) :=
    Files.Tree.resolve_root [] hroot
  have hpresent : (opening crowdedWorld).files.present (opening crowdedWorld).world.directory
      (Files.Path.ofLocation []) = true := by
    rw [Files.Tree.present, hresolve]
    rfl
  rw [openSpace, Act.start_bind_of_ok (Act.start_current _), hpager, Space.openAt,
    Act.start_bind_of_ok (Act.start_current _)]
  simp only [hpresent, Bool.not_true, Bool.false_eq_true, if_false]
  rw [Act.start_bind_of_ok (Act.start_current _)]
  simp only [hresolve]
  rfl

theorem start_perform_crowded :
    (perform crowdedConditions crowdedRequest).start (opening crowdedWorld) =
      (.error (.halted crowdedText), crowdedEnd) := by
  have hperform : (perform crowdedConditions crowdedRequest).start (opening crowdedWorld) =
      (openSpace crowdedConditions (Files.Path.ofLocation []) >>= fun space =>
        space.read crowdedConditions.delimiter {}).start (opening crowdedWorld) :=
    rfl
  rw [hperform, Act.start_bind_of_ok start_openSpace_crowded, start_read_crowded]

end CommandLine

end ChatSpace
