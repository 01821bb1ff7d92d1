import ChatSpace.Proofs.Files.Walk
import ChatSpace.Proofs.Processes.Starting
import ChatSpace.Proofs.Programs.Shell
import ChatSpace.Proofs.Text.Utf8

namespace ChatSpace.Processes

open Programs

/-- The words that a shell reads in a line, whatever its variables and parameters are. Outside
quotes nothing has a meaning of its own. -/
structure Command.Says (line : String) (words : List String) : Prop where
  split : ShellWord.split line = some words
  inactive : ∀ c ∈ ShellWord.active, c ∉ ShellWord.bare line
  tokens (scope : Shell.Scope) : Shell.tokens scope (Utf8.encode line) =
    words.map fun word => .word (Utf8.encode word)

theorem Command.says_line (words : List String) : Says (ShellWord.line words) words where
  split := ShellWord.split_line words
  inactive _ hc := ShellWord.not_mem_bare_line hc words
  tokens scope := Shell.tokens_line scope words

variable {σ : Type}

namespace World

variable {w : World σ} {c : Command} {l : Launch}

structure Suits (w : World σ) (c : Command) (l : Launch) : Prop where
  environment : l.environment = Command.visible c.environment
  directory : c.directory w.plumbing.files w.directory = .ok l.directory

theorem suits_of_launchOf (h : w.launchOf c = .ok l) : w.Suits c l := by
  obtain ⟨hdirectory, -, henvironment⟩ := launchOf_eq_ok h
  exact ⟨henvironment, hdirectory⟩

def tried (w : World σ) (requests : Nat) (starts : List Attempt) : World σ :=
  { w with
    exhausted := w.exhausted.drop requests
    journal := { w.journal with starts := w.journal.starts ++ starts } }

theorem tried_nil (w : World σ) (n : Nat) : w.tried n [] = w.asked n := by
  simp only [tried, List.append_nil, asked]

theorem tried_asked (w : World σ) (m n : Nat) (starts : List Attempt) :
    (w.asked m).tried n starts = w.tried (m + n) starts := by
  simp only [tried, asked, Refusals.drop, Nat.add_assoc]

theorem tried_tried (w : World σ) (m n : Nat) (starts more : List Attempt) :
    (w.tried m starts).tried n more = w.tried (m + n) (starts ++ more) := by
  simp only [tried, Refusals.drop, Nat.add_assoc, List.append_assoc]

def prepared (w : World σ) (requests : Nat) (labels : List String) (starts : List Attempt) :
    World σ :=
  { w with
    exhausted := w.exhausted.drop requests
    journal :=
      { w.journal with
        labels := w.journal.labels ++ labels
        starts := w.journal.starts ++ starts } }

theorem prepared_zero (w : World σ) : w.prepared 0 [] [] = w := by
  simp only [prepared, Refusals.drop, Nat.zero_add, List.append_nil]

theorem noteStart_asked (w : World σ) (n : Nat) (c : Command) (refusal : Option SystemError) :
    (w.asked n).noteStart c refusal = w.tried n [⟨c, refusal⟩] :=
  rfl

end World

namespace Executor

variable {w u : World σ} {s : Spec} {c : Command} {l : Launch} {starts : List Attempt}

/-- The attempts to start a command, and what comes of them. An attempt is made with duplicates of
the pipe ends, each of which may be refused. -/
inductive Tries (w : World σ) (s : Spec) (c : Command) :
    List Attempt → Except ExecError (Command × Launch) → Prop
  | uncopied {stream source} : (s.streams.get stream).isProvisioned →
      (∃ n, w.exhausted.answer n .copy = some source) →
      Tries w s c [] (.error (.descriptor s.program.display stream source))
  | refused {source} : w.Refuses c source → source ≠ .notExecutable →
      Tries w s c [⟨c, some source⟩] (.error (.start s.program.display source))
  | started {launch} : w.launchOf c = .ok launch → Tries w s c [⟨c, none⟩] (.ok (c, launch))
  | uncopiedAgain {stream source} : w.Refuses c .notExecutable →
      (s.streams.get stream).isProvisioned → (∃ n, w.exhausted.answer n .copy = some source) →
      Tries w s c [⟨c, some .notExecutable⟩] (.error (.descriptor s.program.display stream source))
  | refusedAgain {source} : w.Refuses c .notExecutable → w.Refuses c.throughShell source →
      Tries w s c [⟨c, some .notExecutable⟩, ⟨c.throughShell, some source⟩]
        (.error (.start s.program.display source))
  | startedAgain {launch} : w.Refuses c .notExecutable → w.launchOf c.throughShell = .ok launch →
      Tries w s c [⟨c, some .notExecutable⟩, ⟨c.throughShell, none⟩]
        (.ok (c.throughShell, launch))

theorem Tries.suits {starts : List Attempt} {d : Command}
    (h : Tries w s c starts (.ok (d, l))) : (d = c ∨ d = c.throughShell) ∧ w.Suits c l := by
  cases h with
  | started hlaunch => exact ⟨.inl rfl, World.suits_of_launchOf hlaunch⟩
  | startedAgain _ hlaunch =>
      have hshell := World.suits_of_launchOf hlaunch
      exact ⟨.inr rfl, hshell.environment, hshell.directory⟩

def outcome (w : World σ) :
    Except ExecError (Command × Launch) → Except (Stop ExecError) Nat × World σ
  | .error e => (.error (stopOf w e), w.report e)
  | .ok (c, l) => (.ok w.children.length, w.addChild c l)

structure Follows (w u : World σ) : Prop where
  launchOf : ∀ c, u.launchOf c = w.launchOf c
  answer : ∃ m, ∀ n r, u.exhausted.answer n r = w.exhausted.answer (m + n) r

theorem Follows.refl (w : World σ) : Follows w w :=
  ⟨fun _ => rfl, 0, fun n r => by rw [Nat.zero_add]⟩

theorem Follows.asked (h : Follows w u) (n : Nat) : Follows w (u.asked n) := by
  obtain ⟨m, hm⟩ := h.answer
  refine ⟨h.launchOf, m + n, fun k r => ?_⟩
  rw [Nat.add_assoc]
  exact hm (n + k) r

theorem Follows.refuses (h : Follows w u) {e : SystemError} (he : u.Refuses c e) :
    w.Refuses c e := by
  obtain ⟨m, hm⟩ := h.answer
  rcases he with he | ⟨r, hr, n, hn⟩
  · exact .inl ((h.launchOf c).symm.trans he)
  · exact .inr ⟨r, hr, m + n, (hm n r).symm.trans hn⟩

def Attempts (w : World σ) (ways : List Attempt → Except ExecError (Command × Launch) → Prop)
    (act : Act (World σ) ExecError Nat) : Prop :=
  ∀ u, Follows w u → ∃ n starts answer, ways starts answer ∧
    act.start u = outcome (u.tried n starts) answer

variable {ways later : List Attempt → Except ExecError (Command × Launch) → Prop}

theorem outcome_copy (w : World σ) (e : PipeEnd) (n : Nat) (starts : List Attempt)
    (answer : Except ExecError (Command × Launch)) :
    let result := outcome (((w.asked 1).copy e).tried n starts) answer
    (result.1, result.2.dropCopy e) = outcome (w.tried (1 + n) starts) answer := by
  rw [← World.tried_asked]
  rcases answer with source | ⟨c, l⟩
  · simp [outcome, World.tried, World.copy, World.dropCopy, World.report, stopOf, World.tally]
  · simp [outcome, World.tried, World.copy, World.dropCopy, World.addChild]

theorem attempts_withCopies {act : Act (World σ) ExecError Nat} (h : Attempts w ways act)
    (huncopied : ∀ stream source, (s.streams.get stream).isProvisioned →
      (∃ n, w.exhausted.answer n .copy = some source) →
      ways [] (.error (.descriptor s.program.display stream source))) (streams : List Stream) :
    Attempts w ways (withCopies s act streams) := by
  induction streams with
  | nil => exact h
  | cons stream rest ih =>
      intro u hu
      unfold withCopies
      split
      · exact ih u hu
      · next e hend =>
        rw [Act.start_bind_does]
        rcases hask : u.exhausted.answer 0 .copy with _ | source
        · have hgo : (u.ask .copy).1 = none := hask
          simp only [hgo]
          rw [Act.start_bind_of_ok (Act.start_change _ _), Act.start_andThen]
          have hcopied : Follows w ((u.asked 1).copy e) :=
            ⟨(hu.asked 1).launchOf, (hu.asked 1).answer⟩
          obtain ⟨n, starts, answer, hway, hstart⟩ := ih _ hcopied
          refine ⟨1 + n, starts, answer, hway, ?_⟩
          rw [← outcome_copy u e]
          exact congrArg (fun result => (result.1, World.dropCopy result.2 e)) hstart
        · have hstop : (u.ask .copy).1 = some source := hask
          simp only [hstop]
          obtain ⟨m, hm⟩ := hu.answer
          refine ⟨1, [], .error (.descriptor s.program.display stream source),
            huncopied stream source ?_ ⟨m + 0, (hm 0 .copy).symm.trans hask⟩, ?_⟩
          · rw [Disposition.isProvisioned, hend]
            rfl
          · rw [start_raise, World.tried_nil]
            rfl

theorem attempts_startLast
    (hrefused : ∀ source, w.Refuses c source →
      ways [⟨c, some source⟩] (.error (.start s.program.display source)))
    (hstarted : ∀ l, w.launchOf c = .ok l → ways [⟨c, none⟩] (.ok (c, l))) :
    Attempts w ways (startLast s c) := by
  intro u hu
  obtain ⟨n, ⟨source, hrefuses, hstart⟩ | ⟨l, hlaunch, hstart⟩⟩ := u.start_cases c
  · refine ⟨n, _, _, hrefused source (hu.refuses hrefuses), ?_⟩
    rw [startLast, Act.start_bind_does, hstart]
    exact start_raise _ _
  · refine ⟨n, _, _, hstarted l ((hu.launchOf c).symm.trans hlaunch), ?_⟩
    rw [startLast, Act.start_bind_does, hstart]
    rfl

theorem attempts_startOr {again : Act (World σ) ExecError Nat} (hagain : Attempts w later again)
    (hlater : ∀ starts answer, w.Refuses c .notExecutable → later starts answer →
      ways (⟨c, some .notExecutable⟩ :: starts) answer)
    (hrefused : ∀ source, w.Refuses c source → source ≠ .notExecutable →
      ways [⟨c, some source⟩] (.error (.start s.program.display source)))
    (hstarted : ∀ l, w.launchOf c = .ok l → ways [⟨c, none⟩] (.ok (c, l))) :
    Attempts w ways (startOr s c again) := by
  intro u hu
  obtain ⟨n, ⟨source, hrefuses, hstart⟩ | ⟨l, hlaunch, hstart⟩⟩ := u.start_cases c
  · by_cases hsource : source = .notExecutable
    · subst hsource
      have hnext : Follows w (u.tried n [⟨c, some .notExecutable⟩]) :=
        ⟨(hu.asked n).launchOf, (hu.asked n).answer⟩
      obtain ⟨m, starts, answer, hway, hthen⟩ := hagain _ hnext
      refine ⟨n + m, _, answer, hlater _ _ (hu.refuses hrefuses) hway, ?_⟩
      rw [startOr, Act.start_bind_does, hstart]
      simp only
      rw [World.noteStart_asked, hthen, World.tried_tried]
      rfl
    · refine ⟨n, _, _, hrefused source (hu.refuses hrefuses) hsource, ?_⟩
      rw [startOr, Act.start_bind_does, hstart]
      cases source with
      | notExecutable => exact absurd rfl hsource
      | _ => exact start_raise _ _
  · refine ⟨n, _, _, hstarted l ((hu.launchOf c).symm.trans hlaunch), ?_⟩
    rw [startOr, Act.start_bind_does, hstart]
    rfl

theorem attempts_startCommand (w : World σ) (s : Spec) (c : Command) :
    Attempts w (Tries w s c) (startCommand s c) := by
  -- what is tried the second time, after the refusal of the first
  let later (starts : List Attempt) (answer : Except ExecError (Command × Launch)) : Prop :=
    w.Refuses c .notExecutable → Tries w s c (⟨c, some .notExecutable⟩ :: starts) answer
  have hlast : Attempts w later (startLast s c.throughShell) :=
    attempts_startLast (fun _ hshell hdirect => .refusedAgain hdirect hshell)
      fun _ hlaunch hdirect => .startedAgain hdirect hlaunch
  have hagain : Attempts w later
      (withCopies s (startLast s c.throughShell) Streams.order) :=
    attempts_withCopies hlast (fun _ _ hend hcopy hdirect => .uncopiedAgain hdirect hend hcopy) _
  have hfirst : Attempts w (Tries w s c) (startOr s c _) :=
    attempts_startOr hagain (fun _ _ hdirect hway => hway hdirect)
      (fun _ hrefuses hsource => .refused hrefuses hsource) fun _ hlaunch => .started hlaunch
  exact attempts_withCopies hfirst (fun _ _ hend hcopy => .uncopied hend hcopy) _

def spawned (w : World σ) (s : Spec) :
    Except ExecError (Command × Launch) → Except (Stop ExecError) Handle × World σ
  | .error e => (.error (stopOf w e), (w.report e).closeAll s.ends)
  | .ok (c, l) => (.ok ⟨w.children.length, s.program.display⟩, (w.addChild c l).closeAll s.ends)

theorem start_spawn_of_find {path : Bytes}
    (hpath : Lookup.find? w.plumbing.files w.directory w.searchPath s.program = some path) :
    ∃ requests starts answer, Tries w s (commandOf w s path) starts answer ∧
      (spawn s).start w = spawned (w.prepared requests [s.streams.label] starts) s answer := by
  have hnoted : Follows w (w.noteLabel s.streams.label) := ⟨fun _ => rfl, (Follows.refl w).answer⟩
  obtain ⟨n, starts, answer, htries, hstart⟩ :=
    attempts_startCommand w s (commandOf w s path) _ hnoted
  refine ⟨n, starts, answer, htries, ?_⟩
  rw [spawn, Act.start_andThen, spawnHolding, Act.start_bind_of_ok (Act.start_current w), hpath]
  simp only
  rw [Act.start_bind_of_ok (Act.start_change _ w), Act.start_bind, hstart]
  rcases answer with e | ⟨d, l⟩ <;> rfl

theorem start_spawn_of_missing
    (hmissing : Lookup.find? w.plumbing.files w.directory w.searchPath s.program = none) :
    let e := .programNotFound s.program.display
    (spawn s).start w = (.error (stopOf w e), (w.report e).closeAll s.ends) := by
  intro e
  rw [spawn, Act.start_andThen, spawnHolding, Act.start_bind_of_ok (Act.start_current w), hmissing]
  simp only
  rw [start_raise]

theorem spawn_eq_ok {h : Handle} {v : World σ} (hspawn : (spawn s).start w = (.ok h, v)) :
    ∃ path requests starts d l,
      Lookup.find? w.plumbing.files w.directory w.searchPath s.program = some path ∧
      Tries w s (commandOf w s path) starts (.ok (d, l)) ∧
      v = ((w.prepared requests [s.streams.label] starts).addChild d l).closeAll s.ends := by
  rcases hpath : Lookup.find? w.plumbing.files w.directory w.searchPath s.program with _ | path
  · cases (start_spawn_of_missing hpath).symm.trans hspawn
  obtain ⟨n, starts, answer, htries, hstart⟩ := start_spawn_of_find hpath
  rcases answer with e | ⟨d, l⟩
  · cases hstart.symm.trans hspawn
  · cases hstart.symm.trans hspawn
    exact ⟨path, n, starts, d, l, rfl, htries, rfl⟩

theorem spawn_of_launchOf {path : Bytes} (hfree : w.exhausted = false)
    (hpath : Lookup.find? w.plumbing.files w.directory w.searchPath s.program = some path)
    (h : w.launchOf (commandOf w s path) = .ok l) :
    (spawn s).start w = (.ok ⟨w.children.length, s.program.display⟩,
      (((w.noteLabel s.streams.label).noteStart (commandOf w s path) none).addChild
        (commandOf w s path) l).closeAll s.ends) := by
  have hgo (e : SystemError) : ¬ w.Refuses (commandOf w s path) e := by
    rw [World.refuses_iff_of_free hfree, h]
    exact nofun
  obtain ⟨n, starts, answer, htries, hspawn⟩ := start_spawn_of_find hpath
  rw [hspawn]
  cases htries with
  | uncopied _ hcopy => simp [World.answer_of_free hfree] at hcopy
  | refused hrefuses _ => exact absurd hrefuses (hgo _)
  | uncopiedAgain hrefuses _ _ => exact absurd hrefuses (hgo _)
  | refusedAgain hrefuses _ => exact absurd hrefuses (hgo _)
  | startedAgain hrefuses _ => exact absurd hrefuses (hgo _)
  | started hlaunch =>
      cases h.symm.trans hlaunch
      have hsame : w.prepared n [s.streams.label] [⟨commandOf w s path, none⟩] =
          (w.noteLabel s.streams.label).noteStart (commandOf w s path) none :=
        congrArg (fun u => (u.noteLabel s.streams.label).noteStart (commandOf w s path) none)
          (World.asked_of_free hfree n)
      rw [hsame]
      rfl

theorem spawn_of_native {path image : Bytes} {here place : Files.Location} {mode : Nat}
    (hfree : w.exhausted = false)
    (hpath : Lookup.find? w.plumbing.files w.directory w.searchPath s.program = some path)
    (hslash : path.contains Files.Path.slash) (hnul : (commandOf w s path).hasNul = false)
    (hlong : (commandOf w s path).isTooLong path = false)
    (hhere : (commandOf w s path).directory w.plumbing.files w.directory = .ok here)
    (hfile : w.plumbing.files.resolve here path = .ok (place, .file mode image))
    (hrun : (Files.Entry.file mode image).isRunnable) (hnative : w.formats image = .native) :
    let c := commandOf w s path
    (spawn s).start w = (.ok ⟨w.children.length, s.program.display⟩,
      (((w.noteLabel s.streams.label).noteStart c none).addChild c
        ⟨image, c.args, Command.visible c.environment, here, w.plumbing.files⟩).closeAll
          s.ends) := by
  intro c
  have hcontent : Command.runnableContent w.plumbing.files here c.path = .ok image := by
    have hcommand : c.path = path := rfl
    simp only [Command.runnableContent, hcommand, hfile, hrun, if_true]
  exact spawn_of_launchOf hfree hpath
    (World.launchOf_of_load hnul hhere (World.load_of_native hslash hlong hcontent hnative))

theorem spawn_fallback {path : Bytes}
    (hpath : Lookup.find? w.plumbing.files w.directory w.searchPath s.program = some path) :
    let c := commandOf w s path
    (∃ line,
      c.throughShell =
        { c with
          path := Utf8.encode Command.shell
          args := [Utf8.encode "-c", Utf8.encode line] } ∧
      Command.Says line ((path :: s.args).map Utf8.lossy) ∧
      ∀ word ∈ path :: s.args, Utf8.isValid word → Utf8.encode (Utf8.lossy word) = word) ∧
    ∃ requests starts answer, Tries w s c starts answer ∧
      (∀ d l, answer = .ok (d, l) → d.streams = s.streams ∧ w.Suits c l) ∧
      ((spawn s).start w).2.journal.starts = w.journal.starts ++ starts ∧
      (spawn s).start w = spawned (w.prepared requests [s.streams.label] starts) s answer := by
  intro c
  refine ⟨⟨_, rfl, Command.says_line _, fun word _ => Utf8.encode_lossy⟩, ?_⟩
  obtain ⟨n, starts, answer, htries, hspawn⟩ := start_spawn_of_find hpath
  refine ⟨n, starts, answer, htries, ?_, ?_, hspawn⟩
  · rintro d l rfl
    obtain ⟨hd, hsuits⟩ := htries.suits
    exact ⟨by rcases hd with rfl | rfl <;> rfl, hsuits⟩
  · rw [hspawn]
    rcases answer with e | ⟨d, l⟩ <;> simp only [spawned, World.closeAll_eq] <;> rfl

theorem start_spawn_cases (s : Spec) (w : World σ) :
    ∃ n labels starts,
      (∃ e, (spawn s).start w =
        (.error (stopOf w e), ((w.prepared n labels starts).report e).closeAll s.ends)) ∨
      ∃ c l, c.streams = s.streams ∧ (spawn s).start w =
        (.ok ⟨w.children.length, s.program.display⟩,
          ((w.prepared n labels starts).addChild c l).closeAll s.ends) := by
  rcases hpath : Lookup.find? w.plumbing.files w.directory w.searchPath s.program with _ | path
  · refine ⟨0, [], [], .inl ⟨.programNotFound s.program.display, ?_⟩⟩
    rw [start_spawn_of_missing hpath, World.prepared_zero]
  · obtain ⟨n, starts, answer, htries, hspawn⟩ := start_spawn_of_find hpath
    refine ⟨n, [s.streams.label], starts, ?_⟩
    rw [hspawn]
    rcases answer with e | ⟨d, l⟩
    · exact .inl ⟨e, rfl⟩
    · obtain ⟨hd, -⟩ := htries.suits
      exact .inr ⟨d, l, by rcases hd with rfl | rfl <;> rfl, rfl⟩

theorem plumbing_spawn (s : Spec) (w : World σ) :
    ((spawn s).start w).2.plumbing = w.plumbing := by
  obtain ⟨n, labels, starts, ⟨e, hstart⟩ | ⟨c, l, -, hstart⟩⟩ := start_spawn_cases s w <;>
    rw [hstart, World.closeAll_eq] <;> rfl

structure Spawned (s : Spec) (w : World σ) (h : Handle) (w' : World σ) : Prop where
  handle : h = ⟨w.wiring.length, s.program.display⟩
  wiring : w'.wiring = w.wiring ++ [s.streams]
  held : w'.held = w.held.filter (· ∉ s.ends)
  copies : w'.copies = w.copies
  waits : w'.journal.waits = w.journal.waits
  warnings : w'.journal.warnings = w.journal.warnings

theorem Spawned.child {h : Handle} {w' : World σ} (hspawned : Spawned s w h w') :
    h.child = w.children.length := by
  rw [hspawned.handle, World.wiring, List.length_map]

structure Unspawned (s : Spec) (w : World σ) (stop : Stop ExecError) (w' : World σ) : Prop where
  stop : ∃ e, stop = stopOf w e
  wiring : w'.wiring = w.wiring
  held : w'.held = w.held.filter (· ∉ s.ends)
  copies : w'.copies = w.copies
  waits : w'.journal.waits = w.journal.waits
  warnings : w'.journal.warnings = w.journal.warnings

theorem spawned_of_ok {w' : World σ} {h : Handle} (hspawn : (spawn s).start w = (.ok h, w')) :
    Spawned s w h w' := by
  obtain ⟨n, labels, starts, ⟨e, hstart⟩ | ⟨c, l, hstreams, hstart⟩⟩ := start_spawn_cases s w
  · cases hstart.symm.trans hspawn
  · cases hstart.symm.trans hspawn
    rw [World.closeAll_eq]
    exact ⟨by simp [World.wiring], by simp [World.wiring, World.addChild, World.prepared, hstreams],
      rfl, rfl, rfl, rfl⟩

theorem unspawned_of_error {w' : World σ} {stop : Stop ExecError}
    (hspawn : (spawn s).start w = (.error stop, w')) : Unspawned s w stop w' := by
  obtain ⟨n, labels, starts, ⟨e, hstart⟩ | ⟨c, l, hstreams, hstart⟩⟩ := start_spawn_cases s w
  · cases hstart.symm.trans hspawn
    rw [World.closeAll_eq]
    exact ⟨⟨e, rfl⟩, rfl, rfl, rfl, rfl, rfl⟩
  · cases hstart.symm.trans hspawn

def scriptContent : Bytes :=
  Utf8.encode "#! \t\nprintf '<%s>' \"$@\"; exit 7"

def scriptWorld : World Unit :=
  { state := ()
    programs := fun l s => (Shell.behaviour l, s)
    plumbing :=
      { files := .ofList
          [([Utf8.encode "tool"], .file 0o755 scriptContent),
            ([Utf8.encode "bin", Utf8.encode "sh"], .file 0o755 Image.nativeMark)] } }

def scriptSpec : Spec :=
  { program := .named (Utf8.encode "/tool")
    args := [Utf8.encode "it's", [], Utf8.encode "$HOME; *\n", [0xFF]] }

def scriptCommand : Command :=
  commandOf scriptWorld scriptSpec (Utf8.encode "/tool")

def scriptLine : String :=
  "'/tool' 'it'\\''s' '' '$HOME; *\n' '\uFFFD'"

def scriptLaunch : Launch :=
  { image := Image.nativeMark
    args := [Utf8.encode "-c", Utf8.encode scriptLine]
    environment := .empty
    directory := []
    files := scriptWorld.plumbing.files }

theorem resolve_script (here : Files.Location) :
    scriptWorld.plumbing.files.resolve here (Utf8.encode "/tool") =
      .ok ([Utf8.encode "tool"], .file 0o755 scriptContent) :=
  Files.Tree.resolve_of_descend here (by decide) rfl (by simp)

theorem resolve_script_shell (here : Files.Location) :
    scriptWorld.plumbing.files.resolve here (Utf8.encode Command.shell) =
      .ok ([Utf8.encode "bin", Utf8.encode "sh"], .file 0o755 Image.nativeMark) :=
  Files.Tree.resolve_of_descend here (by decide) rfl (by simp)

theorem throughShell_script :
    scriptCommand.throughShell.args = [Utf8.encode "-c", Utf8.encode scriptLine] := by
  decide

theorem launchOf_script : scriptWorld.launchOf scriptCommand = .error .notExecutable := by
  have hcontent : Command.runnableContent scriptWorld.plumbing.files [] (Utf8.encode "/tool") =
      .ok scriptContent := by
    rw [Command.runnableContent, resolve_script]
    rfl
  exact World.launchOf_of_refused (by decide) rfl
    (World.load_of_text (by decide) (by decide) hcontent (by decide))

theorem launchOf_script_shell :
    scriptWorld.launchOf scriptCommand.throughShell = .ok scriptLaunch := by
  have hcontent : Command.runnableContent scriptWorld.plumbing.files []
      (Utf8.encode Command.shell) = .ok Image.nativeMark := by
    rw [Command.runnableContent, resolve_script_shell]
    rfl
  rw [World.launchOf_of_load (by decide) rfl
    (World.load_of_native (by decide) (by decide) hcontent (by decide)),
    throughShell_script]
  rfl

theorem spawn_fallback_script :
    Lookup.find? scriptWorld.plumbing.files scriptWorld.directory scriptWorld.searchPath
        scriptSpec.program = some (Utf8.encode "/tool") ∧
      Command.Says scriptLine ["/tool", "it's", "", "$HOME; *\n", "\uFFFD"] ∧
      ((spawn scriptSpec).start scriptWorld).1 = .ok ⟨0, "/tool"⟩ ∧
      ((spawn scriptSpec).start scriptWorld).2.journal.starts =
        [⟨scriptCommand, some .notExecutable⟩, ⟨scriptCommand.throughShell, none⟩] := by
  have hpath : Lookup.find? scriptWorld.plumbing.files scriptWorld.directory
      scriptWorld.searchPath scriptSpec.program = some (Utf8.encode "/tool") := by
    decide
  have hrefuses (c : Command) (e : SystemError) :
      scriptWorld.Refuses c e ↔ scriptWorld.launchOf c = .error e :=
    World.refuses_iff_of_free rfl
  have hnone (stream : Stream) : ¬ (scriptSpec.streams.get stream).isProvisioned := by
    cases stream <;> decide
  have hwords : (Utf8.encode "/tool" :: scriptSpec.args).map Utf8.lossy =
      ["/tool", "it's", "", "$HOME; *\n", "\uFFFD"] := by
    decide
  obtain ⟨⟨line, hcommand, hsays, -⟩, n, starts, answer, htries, -, hstarts, hspawn⟩ :=
    spawn_fallback hpath
  rw [hstarts, hspawn]
  refine ⟨hpath, ?_, ?_⟩
  · have hargs := (congrArg Command.args hcommand).symm.trans throughShell_script
    have hline : Utf8.encode line = Utf8.encode scriptLine := by
      simpa using hargs
    rw [← hwords, ← Utf8.lossy_encode scriptLine, ← hline, Utf8.lossy_encode]
    exact hsays
  · -- only the second start can have come about
    cases htries with
    | startedAgain _ _ => exact ⟨rfl, rfl⟩
    | started hlaunch => cases hlaunch.symm.trans launchOf_script
    | uncopied hend _ => exact absurd hend (hnone _)
    | uncopiedAgain _ hend _ => exact absurd hend (hnone _)
    | refused hdirect hsource =>
        cases ((hrefuses _ _).mp hdirect).symm.trans launchOf_script
        exact absurd rfl hsource
    | refusedAgain _ hshell =>
        cases ((hrefuses _ _).mp hshell).symm.trans launchOf_script_shell

end Executor

end ChatSpace.Processes
