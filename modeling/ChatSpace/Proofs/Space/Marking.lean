import ChatSpace.Proofs.Files.Making
import ChatSpace.Proofs.Processes.Growth
import ChatSpace.Proofs.Writing.Writer
import ChatSpace.Space.Init

namespace ChatSpace

open Files Processes Writing

variable {σ α : Type} {s s' : Session σ}

namespace Session

theorem start_onWorld (act : Act (World σ) ExecError α) (s : Session σ) :
    (onWorld act).start s =
      ((act.start s.world).1.mapError (Stop.map .exec),
        { s with world := (act.start s.world).2 }) := by
  rw [onWorld, Act.start_mapError, Act.start_within]

theorem grows_sayLine (line : String) :
    (sayLine line : Act (Session σ) CommandError Unit).Grows files := by
  have hsay : (Act.does (say (line ++ "\n")) : Act (Session σ) CommandError _).Grows files :=
    fun s => s.writer.grows_writeAll (Utf8.encode (line ++ "\n")) s.world
  apply hsay.bind
  intro result
  cases result with
  | ok => exact fun s => .refl _
  | error e => exact fun s => .refl _

theorem start_changeFiles
    (f : Tree → Location → Except (SystemError × Tree) Tree) (e : SystemError → CommandError)
    (s : Session σ) :
    let result := f s.files s.world.directory
    (changeFiles f e).start s =
      (match result with
        | .ok _ => .ok ()
        | .error (source, _) => .error (.failed (e source)),
        s.withFiles (Tree.after result)) := by
  intro result
  rw [changeFiles, Act.start_bind_of_ok (Act.start_current s)]
  have hresult : f s.world.plumbing.files s.world.directory = result := rfl
  simp only [hresult]
  rcases result with ⟨source, files⟩ | files <;> rfl

theorem grows_changeFiles {f : Tree → Location → Except (SystemError × Tree) Tree}
    {e : SystemError → CommandError}
    (h : ∀ (t : Tree) (here : Location), t.Grows (Tree.after (f t here))) :
    (changeFiles f e : Act (Session σ) CommandError Unit).Grows files := by
  intro s
  rw [start_changeFiles]
  exact h s.files s.world.directory

end Session

namespace Space

open Session

variable {space : Space} {args : List String} {t t' : Tree}

theorem start_openAt_of_resolve {dir : Bytes} {location : Location} {entry : Entry}
    (hdir : s.files.resolve s.world.directory dir = .ok (location, entry))
    (hlength : (Path.ofLocation location).length < Tree.maxPath) (pager : Option String)
    (colour : Bool) : (openAt dir pager colour).start s = (.ok ⟨location, pager, colour⟩, s) := by
  have hpresent : s.files.present s.world.directory dir = true := by
    rw [Tree.present, hdir]
    rfl
  rw [openAt, Act.start_bind_of_ok (Act.start_current _)]
  simp only [hpresent, Bool.not_true, Bool.false_eq_true, if_false]
  rw [Act.start_bind_of_ok (Act.start_current _)]
  simp only [hdir, if_neg (Nat.not_le.mpr hlength)]
  rfl

def IsMarked (space : Space) (t : Tree) : Prop :=
  t.present [] (space.inside configPath)

theorem isAbsolute_inside {relative : String}
    (h : Path.isAbsolute (Utf8.encode relative) = false) :
    Path.isAbsolute (space.inside relative) :=
  Path.isAbsolute_join rfl h

theorem isMarked_iff (here : Location) :
    space.IsMarked t ↔ t.present here (space.inside configPath) := by
  rw [IsMarked, Tree.present_of_isAbsolute (isAbsolute_inside (by decide)) [] here]

theorem IsMarked.grows (h : space.IsMarked t) (hgrows : t.Grows t') : space.IsMarked t' :=
  Tree.present_of_grows hgrows h

def quiet (space : Space) (args : List String) : Spec :=
  (space.engine args).connect .stdout .null

def Exits (space : Space) (args : List String) (s : Session σ) (code : Nat) (s' : Session σ) :
    Prop :=
  ∃ w, (Executor.run (space.quiet args)).start s.world = (.ok code, w) ∧ s' = { s with world := w }

theorem start_runEngine (space : Space) (args : List String) (s : Session σ) :
    let ran := (Executor.run (space.quiet args)).start s.world
    (space.runEngine args).start s =
      (match ran.1 with
        | .error stop => .error (stop.map .exec)
        | .ok code =>
            if code = 0 then .ok ()
            else .error (.failed (.exited (space.quiet args).commandLine code)),
        { s with world := ran.2 }) := by
  intro ran
  have hworld : (onWorld (Executor.run (space.quiet args)) : Act (Session σ) CommandError _).start s
      = (ran.1.mapError (Stop.map .exec), { s with world := ran.2 }) :=
    start_onWorld _ s
  rcases hran : ran.1 with stop | code <;> rw [hran] at hworld
  · exact Act.start_bind_of_error hworld
  · refine (Act.start_bind_of_ok hworld).trans ?_
    by_cases hcode : code = 0
    · simp only [hcode, ne_eq, not_true_eq_false, if_true, if_false]
      rfl
    · simp only [hcode, ne_eq, not_false_eq_true, if_true, if_false]
      rfl

theorem grows_runEngine (space : Space) (args : List String) :
    (space.runEngine args : Act (Session σ) CommandError Unit).Grows files := by
  intro s
  rw [start_runEngine]
  exact Executor.grows_run _ s.world

theorem runEngine_eq_ok_iff :
    (space.runEngine args).start s = (.ok (), s') ↔ space.Exits args s 0 s' := by
  rw [start_runEngine]
  constructor
  · intro h
    rcases hran : (Executor.run (space.quiet args)).start s.world with ⟨stop | code, w⟩ <;>
      rw [hran] at h
    · cases h
    · by_cases hcode : code = 0
      · subst hcode
        cases h
        exact ⟨w, hran, rfl⟩
      · simp [hcode] at h
  · rintro ⟨w, hrun, rfl⟩
    rw [hrun]
    rfl

theorem isDirectory_of_exits {code : Nat} (h : space.Exits args s code s') :
    s'.files.isDirectory [] space.path := by
  obtain ⟨w, hrun, rfl⟩ := h
  apply Tree.isDirectory_of_grows ((Executor.grows_run (space.quiet args)).after hrun)
  rw [Tree.isDirectory_of_isAbsolute rfl [] s.world.directory]
  exact Executor.isDirectory_of_run rfl hrun

theorem start_writeConfig (space : Space) (s : Session σ) :
    let dir := space.inside filesDirectory
    let path := space.inside configPath
    space.writeConfig.start s =
      match s.files.makeDirectories s.world.directory dir with
      | .error (source, left) =>
          (.error (.failed (.makeFiles (Utf8.lossy dir) source)), s.withFiles left)
      | .ok made =>
          match made.write s.world.directory path (Utf8.encode space.config) with
          | .error source =>
              (.error (.failed (.writeConfig (Utf8.lossy path) source)), s.withFiles made)
          | .ok written => (.ok (), s.withFiles written) := by
  intro dir path
  rw [writeConfig, Act.start_bind, start_changeFiles]
  rcases s.files.makeDirectories s.world.directory dir with ⟨source, left⟩ | made
  · rfl
  · have hwrite : (s.withFiles made).files.write (s.withFiles made).world.directory path
        (Utf8.encode space.config) =
          made.write s.world.directory path (Utf8.encode space.config) := rfl
    simp only [Tree.after]
    rw [start_changeFiles, hwrite]
    cases made.write s.world.directory path (Utf8.encode space.config) <;> rfl

theorem isMarked_of_writeConfig (h : space.writeConfig.start s = (.ok (), s')) :
    space.IsMarked s'.files := by
  rw [start_writeConfig] at h
  split at h
  · cases h
  · split at h
    · cases h
    · next hwritten =>
      cases h
      rw [isMarked_iff s.world.directory]
      exact Tree.present_of_write (isAbsolute_inside (by decide)) hwritten

theorem isMarked_of_writeConfig_error {stop : Stop CommandError}
    (hdir : s.files.isDirectory [] space.path)
    (h : space.writeConfig.start s = (.error stop, s')) (hmarked : space.IsMarked s'.files) :
    space.IsMarked s.files := by
  have hmade : s'.files =
      Tree.after (s.files.makeDirectories s.world.directory (space.inside filesDirectory)) := by
    rw [start_writeConfig] at h
    split at h
    · next hmake =>
      cases h
      rw [hmake]
      rfl
    · next hmake =>
      split at h
      · cases h
        rw [hmake]
        rfl
      · cases h
  have hnames : Path.names (Utf8.encode filesDirectory) = [Utf8.encode filesDirectory] := by
    decide
  have hsteps : Path.steps (Utf8.encode configPath) =
      [Utf8.encode filesDirectory, Utf8.encode "config"] := by
    decide
  rw [isMarked_iff s.world.directory] at hmarked ⊢
  rw [Tree.isDirectory_of_isAbsolute rfl [] s.world.directory] at hdir
  rw [hmade] at hmarked
  exact Tree.present_of_makeDirectories rfl hdir (by decide) hnames (by decide) hsteps
    (by decide) hmarked

theorem grows_writeConfig (space : Space) :
    (space.writeConfig : Act (Session σ) CommandError Unit).Grows files := by
  apply (grows_changeFiles fun t here => t.grows_makeDirectories here _).bind
  intro _
  apply grows_changeFiles
  intro t here
  cases hwrite : t.write here (space.inside configPath) (Utf8.encode space.config) with
  | error source => exact .refl t
  | ok written => exact Tree.grows_write hwrite

def initArgs : List String := ["init", "--quiet"]

def addArgs : List String := ["add", "--", configPath]

def commitArgs : List String := ["commit", "--quiet", "-m", "Create chat space"]

def make (space : Space) : Act (Session σ) CommandError Unit := do
  space.runEngine initArgs
  space.writeConfig
  space.runEngine addArgs
  space.runEngine commitArgs
  sayLine s!"Initialized chat space in {space.shownPath}"

theorem start_init_of_isMarked (h : space.IsMarked s.files) :
    space.init.start s = (.error (.failed (.alreadySpace space.shownPath)), s) := by
  rw [isMarked_iff s.world.directory] at h
  rw [init, Act.start_bind_of_ok (Act.start_current s), if_pos h]
  rfl

theorem start_init_of_not_isMarked (h : ¬ space.IsMarked s.files) :
    space.init.start s = space.make.start s := by
  rw [isMarked_iff s.world.directory] at h
  rw [init, Act.start_bind_of_ok (Act.start_current s), if_neg h]
  rfl

def Configures (space : Space) (s s' : Session σ) : Prop :=
  ∃ v, space.Exits initArgs s 0 v ∧ space.writeConfig.start v = (.ok (), s')

/-- The file was written, and something failed after that. -/
inductive FailsLate (space : Space) (s : Session σ) (stop : Stop CommandError) (s' : Session σ) :
    Prop
  | add {v} : space.Configures s v → (space.runEngine addArgs).start v = (.error stop, s') →
      FailsLate space s stop s'
  | commit {v u} : space.Configures s v → space.Exits addArgs v 0 u →
      (space.runEngine commitArgs).start u = (.error stop, s') → FailsLate space s stop s'
  | confirm {v u r} : space.Configures s v → space.Exits addArgs v 0 u →
      space.Exits commitArgs u 0 r →
      (sayLine s!"Initialized chat space in {space.shownPath}").start r = (.error stop, s') →
      FailsLate space s stop s'

def initialized (space : Space) (s : Session σ) : Tree :=
  ((Executor.run (space.quiet initArgs)).start s.world).2.plumbing.files

inductive Outcome (space : Space) (s : Session σ) :
    Except (Stop CommandError) Unit → Session σ → Prop
  | unset {stop s'} : (space.runEngine initArgs).start s = (.error stop, s') →
      Outcome space s (.error stop) s'
  | unwritten {stop v s'} : space.Exits initArgs s 0 v →
      space.writeConfig.start v = (.error stop, s') → Outcome space s (.error stop) s'
  | late {stop s'} : space.FailsLate s stop s' → Outcome space s (.error stop) s'
  | made {v u r s'} : space.Configures s v → space.Exits addArgs v 0 u →
      space.Exits commitArgs u 0 r →
      (sayLine s!"Initialized chat space in {space.shownPath}").start r = (.ok (), s') →
      Outcome space s (.ok ()) s'

theorem outcome_make (space : Space) (s : Session σ) :
    space.Outcome s (space.make.start s).1 (space.make.start s).2 := by
  unfold make
  rcases hinit : (space.runEngine initArgs).start s with ⟨stop | ⟨⟩, s₁⟩
  · rw [Act.start_bind_of_error hinit]
    exact .unset hinit
  have hexits := runEngine_eq_ok_iff.mp hinit
  rw [Act.start_bind_of_ok hinit]
  rcases hwrite : space.writeConfig.start s₁ with ⟨stop | ⟨⟩, v⟩
  · rw [Act.start_bind_of_error hwrite]
    exact .unwritten hexits hwrite
  have hconfigures : space.Configures s v := ⟨s₁, hexits, hwrite⟩
  rw [Act.start_bind_of_ok hwrite]
  rcases hadd : (space.runEngine addArgs).start v with ⟨stop | ⟨⟩, u⟩
  · rw [Act.start_bind_of_error hadd]
    exact .late (.add hconfigures hadd)
  rw [Act.start_bind_of_ok hadd]
  rcases hcommit : (space.runEngine commitArgs).start u with ⟨stop | ⟨⟩, r⟩
  · rw [Act.start_bind_of_error hcommit]
    exact .late (.commit hconfigures (runEngine_eq_ok_iff.mp hadd) hcommit)
  rw [Act.start_bind_of_ok hcommit]
  rcases hsay : (sayLine s!"Initialized chat space in {space.shownPath}").start r with
    ⟨stop | ⟨⟩, s'⟩
  · exact .late
      (.confirm hconfigures (runEngine_eq_ok_iff.mp hadd) (runEngine_eq_ok_iff.mp hcommit) hsay)
  · exact .made hconfigures (runEngine_eq_ok_iff.mp hadd) (runEngine_eq_ok_iff.mp hcommit) hsay

theorem Exits.grows {code : Nat} (h : space.Exits args s code s') : s.files.Grows s'.files := by
  obtain ⟨w, hrun, rfl⟩ := h
  exact (Executor.grows_run (space.quiet args)).after hrun

theorem Configures.isMarked (h : space.Configures s s') : space.IsMarked s'.files := by
  obtain ⟨v, -, hwrite⟩ := h
  exact isMarked_of_writeConfig hwrite

theorem FailsLate.isMarked {stop : Stop CommandError} (h : space.FailsLate s stop s') :
    space.IsMarked s'.files := by
  cases h with
  | add hconfigures hadd => exact hconfigures.isMarked.grows ((grows_runEngine _ _).after hadd)
  | commit hconfigures hadd hcommit =>
      exact (hconfigures.isMarked.grows hadd.grows).grows ((grows_runEngine _ _).after hcommit)
  | confirm hconfigures hadd hcommit hsay =>
      exact ((hconfigures.isMarked.grows hadd.grows).grows hcommit.grows).grows
        ((grows_sayLine _).after hsay)

theorem files_eq_initialized {result : Except (Stop CommandError) Unit}
    (h : (space.runEngine initArgs).start s = (result, s')) : s'.files = space.initialized s := by
  rw [start_runEngine] at h
  obtain ⟨-, rfl⟩ := Prod.mk.inj h
  rfl

theorem isMarked_iff_of_outcome_error {stop : Stop CommandError}
    (h : space.Outcome s (.error stop) s') :
    space.IsMarked s'.files ↔ space.IsMarked (space.initialized s) ∨ space.FailsLate s stop s' := by
  constructor
  · intro hmarked
    cases h with
    | unset hinit => exact .inl (files_eq_initialized hinit ▸ hmarked)
    | unwritten hinit hwrite =>
        have hbefore := isMarked_of_writeConfig_error (isDirectory_of_exits hinit) hwrite hmarked
        exact .inl (files_eq_initialized (runEngine_eq_ok_iff.mpr hinit) ▸ hbefore)
    | late hlate => exact .inr hlate
  · rintro (hmarked | hlate)
    · cases h with
      | unset hinit => exact files_eq_initialized hinit ▸ hmarked
      | unwritten hinit hwrite =>
          rw [← files_eq_initialized (runEngine_eq_ok_iff.mpr hinit)] at hmarked
          exact hmarked.grows ((grows_writeConfig space).after hwrite)
      | late hlate => exact hlate.isMarked
    · exact hlate.isMarked

theorem runEngine_ne_alreadySpace {path : String} :
    (space.runEngine args).start s ≠ (.error (.failed (.alreadySpace path)), s') := by
  intro h
  rw [start_runEngine] at h
  have hresult := congrArg Prod.fst h
  simp only at hresult
  split at hresult
  · next stop _ => cases stop <;> cases hresult
  · split at hresult <;> cases hresult

theorem writeConfig_ne_alreadySpace {path : String} :
    space.writeConfig.start s ≠ (.error (.failed (.alreadySpace path)), s') := by
  intro h
  rw [start_writeConfig] at h
  repeat' split at h
  all_goals cases h

theorem sayLine_ne_alreadySpace {line path : String} :
    (sayLine line).start s ≠ (.error (.failed (.alreadySpace path)), s') := by
  intro h
  rw [sayLine, Act.start_bind_does] at h
  cases hsaid : (say (line ++ "\n") s).1 <;> rw [hsaid] at h <;> cases h

theorem Outcome.ne_alreadySpace {path : String} :
    ¬ space.Outcome s (.error (.failed (.alreadySpace path))) s' := by
  intro h
  cases h with
  | unset hinit => exact runEngine_ne_alreadySpace hinit
  | unwritten _ hwrite => exact writeConfig_ne_alreadySpace hwrite
  | late hlate =>
      cases hlate with
      | add _ hadd => exact runEngine_ne_alreadySpace hadd
      | commit _ _ hcommit => exact runEngine_ne_alreadySpace hcommit
      | confirm _ _ _ hsay => exact sayLine_ne_alreadySpace hsay

theorem start_init_eq_alreadySpace_iff :
    (space.init.start s).1 = .error (.failed (.alreadySpace space.shownPath)) ↔
      space.IsMarked s.files := by
  constructor
  · intro h
    refine Classical.byContradiction fun hnew => ?_
    rw [start_init_of_not_isMarked hnew] at h
    have houtcome := space.outcome_make s
    rw [h] at houtcome
    exact houtcome.ne_alreadySpace
  · intro h
    rw [start_init_of_isMarked h]

theorem init_marks (space : Space) (s : Session σ) :
    match space.init.start s with
    | (.ok (), s') =>
        ¬ space.IsMarked s.files ∧ space.IsMarked s'.files ∧
          ∃ v u r, space.Configures s v ∧ space.Exits addArgs v 0 u ∧ space.Exits commitArgs u 0 r
    | (.error stop, s') =>
        (space.IsMarked s'.files ↔
          space.IsMarked s.files ∨ space.IsMarked (space.initialized s) ∨
            space.FailsLate s stop s') ∧
        ∀ retry : Session σ,
          (space.init.start (retry.withFiles s'.files)).1 =
              .error (.failed (.alreadySpace space.shownPath)) ↔
            space.IsMarked s'.files := by
  by_cases hold : space.IsMarked s.files
  · rw [start_init_of_isMarked hold]
    exact ⟨⟨.inl, fun _ => hold⟩, fun _ => start_init_eq_alreadySpace_iff⟩
  · rw [start_init_of_not_isMarked hold]
    have houtcome := space.outcome_make s
    rcases hmake : space.make.start s with ⟨stop | ⟨⟩, s'⟩ <;> rw [hmake] at houtcome
    · refine ⟨?_, fun _ => start_init_eq_alreadySpace_iff⟩
      rw [isMarked_iff_of_outcome_error houtcome, or_iff_right hold]
    · cases houtcome with
      | made hconfigures hadd hcommit hsay =>
          have hmarked := (hconfigures.isMarked.grows hadd.grows).grows hcommit.grows
          exact ⟨hold, hmarked.grows ((grows_sayLine _).after hsay),
            ⟨_, _, _, hconfigures, hadd, hcommit⟩⟩

def room : Space :=
  { location := [Utf8.encode "room"] }

def roomFiles : Tree :=
  .ofList
    [([Utf8.encode "bin", Utf8.encode "git"], .file 0o755 Image.nativeMark),
      ([Utf8.encode "room"], .directory [])]

def markedFiles : Tree :=
  (roomFiles.put [Utf8.encode "room", Utf8.encode filesDirectory] (.directory [])).put
    [Utf8.encode "room", Utf8.encode filesDirectory, Utf8.encode "config"]
    (.file Tree.defaultMode (Utf8.encode room.config))

def refusing : Session Unit :=
  { world :=
      { state := ()
        programs := fun launch s =>
          ({ actions := []
             exit := .code (if launch.args.head? = some (Utf8.encode "add") then 1 else 0) }, s)
        environment := [(Utf8.encode "PATH", Utf8.encode "/bin")]
        plumbing := { files := roomFiles } }
    writer := .sink {} }

def ranChild : Child :=
  { streams := { stdout := .null }
    directory := room.location
    actions := []
    exit := .code 0
    broken := .signal Signal.brokenPipe
    ended := some (.code 0) }

def initCommand : Command :=
  Executor.commandOf refusing.world (room.quiet initArgs) (Utf8.encode "/bin/git")

def refusingInitialized : Session Unit :=
  { refusing with
    world :=
      { refusing.world with
        children := [ranChild]
        exhausted := (refusing.world.exhausted.drop 1).drop 1
        journal :=
          { labels := [(room.quiet initArgs).streams.label]
            starts := [⟨initCommand, none⟩]
            waits := [⟨0, []⟩] } } }

theorem resolve_room_git (here : Location) :
    roomFiles.resolve here (Utf8.encode "/bin/git") =
      .ok ([Utf8.encode "bin", Utf8.encode "git"], .file 0o755 Image.nativeMark) :=
  Tree.resolve_of_descend here (by decide) rfl (by simp)

theorem resolve_room (here : Location) :
    roomFiles.resolve here room.path = .ok ([Utf8.encode "room"], .directory []) :=
  Tree.resolve_of_descend here (by decide) rfl (by simp)

theorem resolve_marked_git (here : Location) :
    markedFiles.resolve here (Utf8.encode "/bin/git") =
      .ok ([Utf8.encode "bin", Utf8.encode "git"], .file 0o755 Image.nativeMark) :=
  Tree.resolve_of_descend here (by decide) rfl (by simp)

theorem resolve_marked :
    ∃ entries, ∀ here, markedFiles.resolve here room.path =
      .ok ([Utf8.encode "room"], .directory entries) :=
  ⟨_, fun here => Tree.resolve_of_descend here (by decide) rfl (by simp)⟩

theorem spawn_room {w : World σ} (args : List String) (d : Disposition)
    {entries : List (Name × Entry)}
    (hgit : ∀ here, w.plumbing.files.resolve here (Utf8.encode "/bin/git") =
      .ok ([Utf8.encode "bin", Utf8.encode "git"], .file 0o755 Image.nativeMark))
    (hroom : ∀ here, w.plumbing.files.resolve here room.path =
      .ok (room.location, .directory entries))
    (henvironment : w.environment = refusing.world.environment) (hfree : w.exhausted = false)
    (hformats : w.formats = Image.ofContent)
    (hnul : (Executor.commandOf refusing.world (room.engine args)
      (Utf8.encode "/bin/git")).hasNul = false)
    (hlong : (Executor.commandOf refusing.world (room.engine args)
      (Utf8.encode "/bin/git")).isTooLong (Utf8.encode "/bin/git") = false) :
    let s := (room.engine args).connect .stdout d
    let c := Executor.commandOf w s (Utf8.encode "/bin/git")
    (Executor.spawn s).start w = (.ok ⟨w.children.length, "git"⟩,
      (((w.noteLabel s.streams.label).noteStart c none).addChild c
        ⟨Image.nativeMark, c.args, Command.visible c.environment, room.location,
          w.plumbing.files⟩).closeAll s.ends) := by
  intro s c
  have hpath : Lookup.find? w.plumbing.files w.directory w.searchPath .engine =
      some (Utf8.encode "/bin/git") := by
    rw [World.searchPath_of_environment henvironment]
    exact Lookup.search_of_head rfl (hgit w.directory) rfl
  have hhere : c.directory w.plumbing.files w.directory = .ok room.location := by
    have hdir : c.workDir = some room.path := rfl
    rw [Command.directory, hdir]
    simp only [hroom]
  -- neither depends on where the output goes
  have hnul' : c.hasNul = false := by
    simp only [c, s, Executor.commandOf, henvironment]
    exact hnul
  have hlong' : c.isTooLong (Utf8.encode "/bin/git") = false := by
    simp only [c, s, Executor.commandOf, henvironment]
    exact hlong
  exact Executor.spawn_of_native hfree hpath (by decide) hnul' hlong' hhere (hgit _) rfl
    (hformats ▸ by decide)

theorem exits_refusing : room.Exits initArgs refusing 0 refusingInitialized := by
  have hspawn := spawn_room (w := refusing.world) initArgs .null resolve_room_git resolve_room rfl
    rfl rfl (by decide) (by decide)
  refine ⟨refusingInitialized.world, ?_, rfl⟩
  rw [quiet, Executor.start_run_of_spawn rfl hspawn]
  generalize hstarted : World.closeAll _ _ = started
  have hsettle : started.settle = { started with children := [ranChild] } := by
    rw [← hstarted, World.settle_of_stepFirst rfl]
    exact World.settle_of_atRest (rfl : World.stepFirst _ _ _ = none)
  have hended : started.settle.children[0]?.bind Child.ended = some (.code 0) := by
    rw [hsettle]
    rfl
  refine (Executor.start_reap hended false).trans ?_
  rw [hsettle, ← hstarted]
  rfl

theorem steps_config :
    Path.steps (room.inside configPath) =
      [Utf8.encode "room", Utf8.encode filesDirectory, Utf8.encode "config"] := by
  decide

theorem configures_refusing :
    room.Configures refusing (refusingInitialized.withFiles markedFiles) := by
  have hroom : roomFiles.root.descend [Utf8.encode "room"] = some (.directory []) := rfl
  have hmake : roomFiles.makeDirectories [] (room.inside filesDirectory) =
      .ok (roomFiles.put [Utf8.encode "room", Utf8.encode filesDirectory] (.directory [])) :=
    Tree.makeDirectories_of_missing [] (by decide) (by decide) hroom rfl
  have hmade : (roomFiles.put [Utf8.encode "room", Utf8.encode filesDirectory]
      (.directory [])).root.descend [Utf8.encode "room", Utf8.encode filesDirectory] =
        some (.directory []) := rfl
  have hwrite := Tree.write_of_missing [] (by decide) (Utf8.encode room.config)
    steps_config hmade rfl
  refine ⟨refusingInitialized, exits_refusing, (start_writeConfig room _).trans ?_⟩
  have hfiles : refusingInitialized.files = roomFiles := rfl
  have hdirectory : refusingInitialized.world.directory = [] := rfl
  simp only [hfiles, hdirectory, hmake, hwrite]
  rfl

theorem start_add_refusing :
    ((room.runEngine addArgs).start (refusingInitialized.withFiles markedFiles)).1 =
      .error (.failed (.exited "git add -- .git-chat/config" 1)) := by
  obtain ⟨entries, hroom⟩ := resolve_marked
  have hspawn := spawn_room (w := (refusingInitialized.withFiles markedFiles).world) addArgs .null
    resolve_marked_git hroom rfl rfl rfl (by decide) (by decide)
  dsimp only at hspawn
  generalize hstarted : World.closeAll _ _ = started at hspawn
  have hended : started.settle.children[1]?.bind Child.ended = some (.code 1) := by
    rw [← hstarted, World.settle_of_stepFirst rfl,
      World.settle_of_atRest (rfl : World.stepFirst _ _ _ = none)]
    rfl
  have hrun := (Executor.start_run_of_spawn rfl hspawn).trans
    (Executor.start_reap (h := ⟨1, "git"⟩) hended false)
  have hline : (room.quiet addArgs).commandLine = "git add -- .git-chat/config" := by
    decide
  simp only [start_runEngine, quiet, hrun, Exit.status, if_neg Nat.one_ne_zero, ← hline]

theorem not_isMarked_refusing : ¬ room.IsMarked refusing.files := by
  have hroom : roomFiles.root.descend [Utf8.encode "room"] = some (.directory []) := rfl
  have habsent : roomFiles.present [] (room.inside configPath) = false :=
    Tree.not_present_of_missing [] (by decide) steps_config hroom rfl
  exact Bool.eq_false_iff.mp habsent

theorem init_leaves_mark :
    ¬ room.IsMarked refusing.files ∧
      ∃ s', room.init.start refusing =
          (.error (.failed (.exited "git add -- .git-chat/config" 1)), s') ∧
        room.IsMarked s'.files ∧
        ∀ retry : Session Unit,
          (room.init.start (retry.withFiles s'.files)).1 =
            .error (.failed (.alreadySpace "/room")) := by
  obtain ⟨v, hinit, hwrite⟩ := configures_refusing
  rcases hadd : (room.runEngine addArgs).start (refusingInitialized.withFiles markedFiles) with
    ⟨result, s'⟩
  obtain rfl := (congrArg Prod.fst hadd).symm.trans start_add_refusing
  have hmarked : room.IsMarked s'.files :=
    configures_refusing.isMarked.grows ((grows_runEngine room addArgs).after hadd)
  refine ⟨not_isMarked_refusing, s', ?_, hmarked, ?_⟩
  · rw [start_init_of_not_isMarked not_isMarked_refusing, make,
      Act.start_bind_of_ok (runEngine_eq_ok_iff.mpr hinit), Act.start_bind_of_ok hwrite,
      Act.start_bind_of_error hadd]
  · intro retry
    have hpath : room.shownPath = "/room" := by decide
    rw [← hpath]
    exact start_init_eq_alreadySpace_iff.mpr hmarked

end Space

end ChatSpace
