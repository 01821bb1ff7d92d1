import ChatSpace.Processes.Executor
import ChatSpace.Proofs.Processes.Rest

namespace ChatSpace.Processes

namespace Act

variable {S T ε δ α β : Type}

@[simp] theorem start_does (step : S → α × S) (s : S) :
    (does step : Act S ε α).start s = (.ok (step s).1, (step s).2) :=
  rfl

@[simp] theorem start_current (s : S) : (current : Act S ε S).start s = (.ok s, s) :=
  rfl

@[simp] theorem start_change (f : S → S) (s : S) :
    (change f : Act S ε Unit).start s = (.ok (), f s) :=
  rfl

@[simp] theorem start_mapError (f : ε → δ) (act : Act S ε α) (s : S) :
    (act.mapError f).start s = ((act.start s).1.mapError (Stop.map f), (act.start s).2) :=
  rfl

@[simp] theorem start_within (get : S → T) (set : T → S → S) (act : Act T ε α) (s : S) :
    (act.within get set).start s = ((act.start (get s)).1, set (act.start (get s)).2 s) :=
  rfl

@[simp] theorem start_andThen (after : S → S) (act : Act S ε α) (s : S) :
    (act.andThen after).start s = ((act.start s).1, after (act.start s).2) :=
  rfl

theorem start_onFailure_of_ok {after : S → S} {act : Act S ε α} {s s' : S} {a : α}
    (h : act.start s = (.ok a, s')) : (act.onFailure after).start s = (.ok a, s') := by
  simp only [start, ExceptT.run, StateT.run] at h
  simp only [start, onFailure, of, ExceptT.run, StateT.run, h]

theorem start_onFailure_of_error {after : S → S} {act : Act S ε α} {s s' : S} {e : Stop ε}
    (h : act.start s = (.error e, s')) : (act.onFailure after).start s = (.error e, after s') := by
  simp only [start, ExceptT.run, StateT.run] at h
  simp only [start, onFailure, of, ExceptT.run, StateT.run, h]

theorem start_of_onFailure_eq_ok {after : S → S} {act : Act S ε α} {s s' : S} {a : α}
    (h : (act.onFailure after).start s = (.ok a, s')) : act.start s = (.ok a, s') := by
  rcases hact : act.start s with ⟨e | b, t⟩
  · rw [start_onFailure_of_error hact] at h
    cases h
  · rwa [start_onFailure_of_ok hact] at h

theorem start_attempt_of_ok {act : Act S ε α} {s s' : S} {a : α}
    (h : act.start s = (.ok a, s')) : (attempt act : Act S δ _).start s = (.ok (.ok a), s') := by
  simp only [start, ExceptT.run, StateT.run] at h
  simp only [start, attempt, of, ExceptT.run, StateT.run, h]

theorem start_attempt_of_failed {act : Act S ε α} {s s' : S} {e : ε}
    (h : act.start s = (.error (.failed e), s')) :
    (attempt act : Act S δ _).start s = (.ok (.error e), s') := by
  simp only [start, ExceptT.run, StateT.run] at h
  simp only [start, attempt, of, ExceptT.run, StateT.run, h]

theorem start_attempt_of_halted {act : Act S ε α} {s s' : S} {text : String}
    (h : act.start s = (.error (.halted text), s')) :
    (attempt act : Act S δ _).start s = (.error (.halted text), s') := by
  simp only [start, ExceptT.run, StateT.run] at h
  simp only [start, attempt, of, ExceptT.run, StateT.run, h]

theorem start_bind_eq_ok {act : Act S ε α} {next : α → Act S ε β} {s s'' : S} {b : β}
    (h : (act >>= next).start s = (.ok b, s'')) :
    ∃ a s', act.start s = (.ok a, s') ∧ (next a).start s' = (.ok b, s'') := by
  rw [start_bind] at h
  rcases hact : act.start s with ⟨_ | a, s'⟩ <;> rw [hact] at h
  · cases h
  · exact ⟨a, s', rfl, h⟩

theorem start_bind_of_ok {act : Act S ε α} {next : α → Act S ε β} {s s' : S} {a : α}
    (h : act.start s = (.ok a, s')) : (act >>= next).start s = (next a).start s' := by
  rw [start_bind, h]

theorem start_bind_of_error {act : Act S ε α} {next : α → Act S ε β} {s s' : S} {e : Stop ε}
    (h : act.start s = (.error e, s')) : (act >>= next).start s = (.error e, s') := by
  rw [start_bind, h]

theorem start_bind_does {step : S → α × S} {next : α → Act S ε β} {s : S} :
    (does step >>= next).start s = (next (step s).1).start (step s).2 :=
  start_bind_of_ok (start_does step s)

end Act

namespace World

variable {σ : Type}

theorem closeAll_eq (w : World σ) (ends : List PipeEnd) :
    w.closeAll ends = { w with held := w.held.filter (· ∉ ends) } := by
  induction ends generalizing w with
  | nil => rw [closeAll, List.foldl_nil, List.filter_eq_self.mpr (by simp)]
  | cons e ends ih =>
      rw [closeAll, List.foldl_cons]
      change (w.close e).closeAll ends = _
      rw [ih]
      simp only [close, List.filter_filter]
      congr 1
      apply List.filter_congr
      intro f _
      simp [Bool.and_comm]

variable {w w' : World σ} {c : Command}

section Loading

variable {formats : Bytes → Image} {t : Files.Tree} {here : Files.Location} {content : Bytes}

theorem load_of_native (hslash : c.path.contains Files.Path.slash)
    (hlong : c.isTooLong c.path = false)
    (hcontent : Command.runnableContent t here c.path = .ok content)
    (hnative : formats content = .native) : c.load formats t here = .ok (content, c.args) := by
  simp only [Command.load, if_pos hslash, Command.loadFile, Command.interpret, Command.maxDepth,
    hlong, hcontent, hnative, bind, Except.bind]
  rfl

theorem load_of_text (hslash : c.path.contains Files.Path.slash)
    (hlong : c.isTooLong c.path = false)
    (hcontent : Command.runnableContent t here c.path = .ok content)
    (htext : formats content = .text) : c.load formats t here = .error .notExecutable := by
  simp only [Command.load, if_pos hslash, Command.loadFile, Command.interpret, Command.maxDepth,
    hlong, hcontent, htext, bind, Except.bind]
  rfl

end Loading

theorem launchOf_of_load {here : Files.Location} {image : Bytes} {args : List Bytes}
    (hnul : c.hasNul = false) (hhere : c.directory w.plumbing.files w.directory = .ok here)
    (hload : c.load w.formats w.plumbing.files here = .ok (image, args)) :
    w.launchOf c = .ok
      { image, args
        environment := Command.visible c.environment
        directory := here
        files := w.plumbing.files } := by
  simp [launchOf, bind, Except.bind, pure, Except.pure, hnul, hhere, hload]

theorem launchOf_eq_ok {l : Launch} (h : w.launchOf c = .ok l) :
    c.directory w.plumbing.files w.directory = .ok l.directory ∧
      c.load w.formats w.plumbing.files l.directory = .ok (l.image, l.args) ∧
      l.environment = Command.visible c.environment := by
  simp only [launchOf, bind, Except.bind, pure, Except.pure] at h
  split at h
  · cases h
  · split at h
    · cases h
    · next hdirectory =>
      split at h
      · cases h
      · next hload =>
        cases h
        exact ⟨hdirectory, hload, rfl⟩

theorem searchPath_of_environment {τ : Type} {v : World τ} (h : v.environment = w.environment) :
    v.searchPath = w.searchPath := by
  rw [searchPath, searchPath, valueOf?, valueOf?, h]

theorem launchOf_of_refused {here : Files.Location} {e : SystemError}
    (hnul : c.hasNul = false) (hhere : c.directory w.plumbing.files w.directory = .ok here)
    (hload : c.load w.formats w.plumbing.files here = .error e) : w.launchOf c = .error e := by
  simp [launchOf, bind, Except.bind, hnul, hhere, hload]

@[simp] theorem asked_zero (w : World σ) : w.asked 0 = w := by
  simp only [asked, Refusals.drop, Nat.zero_add]

@[simp] theorem asked_asked (w : World σ) (m n : Nat) :
    (w.asked m).asked n = w.asked (m + n) := by
  simp only [asked, Refusals.drop, Nat.add_assoc]

@[simp] theorem wiring_withPipe (w : World σ) : w.withPipe.wiring = w.wiring := rfl

def Refuses (w : World σ) (c : Command) (e : SystemError) : Prop :=
  w.launchOf c = .error e ∨ ∃ r ∈ c.requests, ∃ n, w.exhausted.answer n r = some e

theorem exists_askAll (w : World σ) (requests : List Request) :
    ∃ n, (w.askAll requests).2 = w.asked n ∧ ∀ e, (w.askAll requests).1 = some e →
      ∃ r ∈ requests, ∃ m, w.exhausted.answer m r = some e := by
  induction requests generalizing w with
  | nil => exact ⟨0, (asked_zero w).symm, nofun⟩
  | cons r rest ih =>
      rw [askAll, ask]
      rcases hanswer : w.exhausted.answer 0 r with _ | e
      · obtain ⟨n, hafter, hrefused⟩ := ih (w.asked 1)
        refine ⟨1 + n, hafter.trans (asked_asked w 1 n), fun e he => ?_⟩
        obtain ⟨r', hr, m, hm⟩ := hrefused e he
        exact ⟨r', List.mem_cons_of_mem r hr, 1 + m, hm⟩
      · exact ⟨1, rfl, fun e' he => ⟨r, List.mem_cons_self, 0, hanswer.trans he⟩⟩

theorem asked_of_free (hfree : w.exhausted = false) (n : Nat) : w.asked n = w := by
  rw [asked, hfree]
  cases w
  cases hfree
  rfl

theorem answer_of_free (hfree : w.exhausted = false) (n : Nat) (r : Request) :
    w.exhausted.answer n r = none := by
  rw [hfree]
  simp [Refusals.descriptors]

theorem refuses_iff_of_free (hfree : w.exhausted = false) {e : SystemError} :
    w.Refuses c e ↔ w.launchOf c = .error e := by
  simp [Refuses, answer_of_free hfree]

def refusing (w : World σ) (ends : List PipeEnd) (e : ExecError) : World σ :=
  { w with
    held := w.held.filter (· ∉ ends)
    journal := { w.journal with alarms := w.journal.alarms ++ [⟨e, w.tally⟩] } }

theorem start_cases (w : World σ) (c : Command) :
    ∃ n, (∃ e, w.Refuses c e ∧ w.start c = (.error e, (w.asked n).noteStart c (some e))) ∨
      ∃ l, w.launchOf c = .ok l ∧
        w.start c = (.ok w.children.length, ((w.asked n).noteStart c none).addChild c l) := by
  obtain ⟨n, hafter, hrefused⟩ := w.exists_askAll c.requests
  refine ⟨n, ?_⟩
  rcases hask : w.askAll c.requests with ⟨_ | e, v⟩ <;> rw [hask] at hafter hrefused
  · obtain rfl : v = w.asked n := hafter
    have hsame : (w.asked n).launchOf c = w.launchOf c := rfl
    rcases hlaunch : w.launchOf c with e | l
    · exact .inl ⟨e, .inl hlaunch, by simp only [start, hask, hsame, hlaunch]⟩
    · refine .inr ⟨l, rfl, ?_⟩
      simp only [start, hask, hsame, hlaunch]
      rfl
  · obtain rfl : v = w.asked n := hafter
    exact .inl ⟨e, .inr (hrefused e rfl), by simp only [start, hask]⟩

end World

namespace Executor

variable {σ : Type} {w w' : World σ}

def stopOf (w : World σ) (e : ExecError) : Stop ExecError :=
  match w.handler with
  | .returns => .failed e
  | .terminates => .halted s!"fatal: {e.text}"

theorem start_raise {α : Type} (e : ExecError) (w : World σ) :
    (raise e : Act (World σ) ExecError α).start w = (.error (stopOf w e), w.report e) := by
  rw [raise, Act.start_bind_of_ok (Act.start_change _ _),
    Act.start_bind_of_ok (Act.start_current _), stopOf]
  have hsame : (w.report e).handler = w.handler := rfl
  rw [hsame]
  cases w.handler <;> rfl

theorem start_refuse {α : Type} (s : Spec) (operation : Operation) (stream : Stream)
    (w : World σ) :
    (refuse s operation stream : Act (World σ) ExecError α).start w =
      (.error (stopOf w (.provisionedStream operation stream)),
        w.refusing s.ends (.provisionedStream operation stream)) := by
  rw [refuse, Act.start_andThen, start_raise, World.closeAll_eq]
  rfl

theorem runBy_of_provisioned {s : Spec} {stream : Stream} (h : s.provisioned? = some stream)
    (spawn : Spec → Act (World σ) ExecError Handle) : runBy spawn s = refuse s .run stream := by
  unfold runBy
  rw [h]

theorem captureBy_of_provisioned {s : Spec} {stream : Stream} (h : s.provisioned? = some stream)
    (spawn : Spec → Act (World σ) ExecError Handle) :
    captureBy spawn s = refuse s .capture stream := by
  unfold captureBy
  rw [h]

theorem start_openPipe_cases (w : World σ) :
    (∃ e, w.exhausted.answer 0 .pipe = some e ∧
      (openPipe : Act (World σ) ExecError Nat).start w =
        (.error (stopOf w (.pipe e)), (w.asked 1).report (.pipe e))) ∨
      w.exhausted.answer 0 .pipe = none ∧
        (openPipe : Act (World σ) ExecError Nat).start w =
          (.ok w.plumbing.pipes.length, w.withPipe) := by
  rw [openPipe, Act.start_bind_does, World.openPipe]
  rcases w.exhausted.answer 0 .pipe with _ | e
  · exact .inr ⟨rfl, rfl⟩
  · exact .inl ⟨e, rfl, start_raise _ _⟩

theorem openPipe_eq_ok {pipe : Nat} (h : (openPipe : Act (World σ) ExecError Nat).start w =
    (.ok pipe, w')) : pipe = w.plumbing.pipes.length ∧ w' = w.withPipe := by
  rcases start_openPipe_cases w with ⟨e, -, hopen⟩ | ⟨-, hopen⟩
  · cases hopen.symm.trans h
  · cases hopen.symm.trans h
    exact ⟨rfl, rfl⟩

theorem start_run_of_spawn {s : Spec} {h : Handle} (hnone : s.provisioned? = none)
    (hspawn : (spawn s).start w = (.ok h, w')) : (run s).start w = (finish h).start w' := by
  rw [run, runBy, hnone]
  exact Act.start_bind_of_ok hspawn

theorem start_reap {h : Handle} {exit : Exit}
    (hended : w.settle.children[h.child]?.bind Child.ended = some exit)
    (brokenPipeExpected : Bool) :
    (reap h brokenPipeExpected).start w =
      (.ok exit.status,
        { w.settle with
          journal :=
            { w.journal with
              warnings := w.journal.warnings ++ (exit.warning? brokenPipeExpected).toList
              waits := w.journal.waits ++ [⟨h.child, w.held ++ w.copies⟩] } }) := by
  have hwait : w.wait h.child =
      (.ok exit,
        { w.settle with
          journal :=
            { w.journal with
              waits := w.journal.waits ++ [⟨h.child, w.held ++ w.copies⟩] } }) := by
    simp [World.wait, hended]
  rw [reap, Act.start_bind_does, hwait]
  cases hwarning : exit.warning? brokenPipeExpected with
  | none =>
      simp only [hwarning, Option.toList_none, List.append_nil]
      rfl
  | some text =>
      simp only [hwarning, Option.toList_some]
      rfl

end Executor

end ChatSpace.Processes
