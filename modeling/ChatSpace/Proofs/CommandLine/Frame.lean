import ChatSpace.CommandLine.Run
import ChatSpace.Proofs.Files.Directories
import ChatSpace.Proofs.History.Verdict
import ChatSpace.Proofs.Processes.Guarding
import ChatSpace.Proofs.Space.Marking
import ChatSpace.Proofs.Writing.Pager
import ChatSpace.Proofs.Writing.Writer

namespace ChatSpace

open Files Processes Writing

variable {σ τ α : Type} {w : World σ}

theorem Writing.Writer.guarded_writeAll (writer : Writer) (data : Bytes) {v : World σ}
    (h : w.Guarded v) : w.Guarded (writer.writeAll data v).2.2 := by
  apply writer.writeAll_keeps (P := w.Guarded) ?_ ?_ ?_ data h
  · exact fun pipe _ data v h => World.guarded_sendFrom h pipe 0 data
  · exact fun pipe _ v h => World.guarded_close h _
  · exact fun said v h => h.of_alike ⟨rfl, rfl, rfl, rfl, rfl⟩ rfl rfl

namespace Writing.Pager

theorem keeps_spawn {command : String}
    (h : ∀ pipe, w.Harmless (Pager.spec command pipe w.environment)) :
    (Pager.spawn command : Act (World σ) ExecError Pager).Keeps w.Guarded := by
  apply Executor.keeps_openPipe.bind
  intro pipe
  apply Act.keeps_current_bind
  intro v hv
  have hspawn : (Executor.spawn (Pager.spec command pipe v.environment) :
      Act (World σ) ExecError Handle).Keeps w.Guarded :=
    Executor.keeps_spawn (hv.environment ▸ h pipe)
  exact (hspawn.onFailure fun v hv => World.guarded_close hv _).bind fun _ => Act.keeps_pure _

theorem keeps_finish (p : Pager) :
    (p.finish : Act (World σ) ExecError (Nat × Pager)).Keeps w.Guarded := by
  have hwait (handle : Handle) : (Executor.finish handle >>= fun code =>
      pure (code, ⟨none, none⟩) : Act (World σ) ExecError (Nat × Pager)).Keeps w.Guarded :=
    (Executor.keeps_reap handle false).bind fun _ => Act.keeps_pure _
  have hclose (pipe : Nat) {act : Act (World σ) ExecError (Nat × Pager)}
      (hact : act.Keeps w.Guarded) :
      (Executor.closeEnd pipe .writing >>= fun _ => act).Keeps w.Guarded :=
    (Executor.keeps_closeEnd pipe .writing).bind fun _ => hact
  rcases p with ⟨_ | pipe, _ | handle⟩
  · exact Act.keeps_pure _
  · exact hwait handle
  · exact hclose pipe (Act.keeps_pure _)
  · exact hclose pipe (hwait handle)

theorem keeps_drop (p : Pager) : (p.drop : Act (World σ) ExecError Unit).Keeps w.Guarded :=
  p.keeps_finish.attempt.bind fun _ => Act.keeps_pure ()

end Writing.Pager

namespace History

def Guarded (w : World σ) (s : World σ × τ) : Prop :=
  w.Guarded s.1

theorem keeps_onWorld {act : Act (World σ) ExecError α} (h : act.Keeps w.Guarded) :
    (onWorld act : Act (World σ × τ) TraversalError α).Keeps (Guarded w) :=
  (h.within (fun _ hs => hs) fun _ _ _ ht => ht).mapError _

theorem keeps_onWorldClosing {act : Act (World σ) ExecError α} (h : act.Keeps w.Guarded)
    (ends : List PipeEnd) :
    (onWorldClosing ends act : Act (World σ × τ) TraversalError α).Keeps (Guarded w) :=
  keeps_onWorld (h.onFailure fun _ hv => World.guarded_closeAll hv ends)

section Walks

variable {q : Query} (hengine : ∀ s : Spec, s.program = .engine → w.Harmless s)

include hengine in
theorem keeps_startHelpers (link output : Nat) :
    (startHelpers q link output : Act (World σ × τ) TraversalError _).Keeps (Guarded w) := by
  apply (keeps_onWorldClosing (Executor.keeps_spawn (hengine _ rfl)) _).bind
  intro lister
  apply (keeps_onWorld (Executor.keeps_spawn (hengine _ rfl)).attempt).bind
  intro result
  cases result with
  | ok dumper => exact Act.keeps_pure _
  | error e =>
      apply (keeps_onWorldClosing (Executor.keeps_reap lister true) _).bind
      intro _
      exact (keeps_onWorld (Executor.keeps_closeEnd output .reading)).bind fun _ =>
        Act.keeps_fail _

theorem keeps_reapLister (lister dumper : Handle) (v : Verdict) :
    (reapLister lister dumper v : Act (World σ × τ) TraversalError Nat).Keeps (Guarded w) := by
  apply (keeps_onWorld (Executor.keeps_reap lister _).attempt).bind
  intro result
  cases result with
  | ok code => exact Act.keeps_pure code
  | error e => exact (keeps_onWorld (Executor.keeps_drop dumper)).bind fun _ => Act.keeps_fail _

theorem keeps_conclude (v : Verdict) (listerCode dumperCode : Nat) :
    (conclude v listerCode dumperCode : Act (World σ × τ) TraversalError Outcome).Keeps
      (Guarded w) := by
  unfold conclude
  repeat' split
  · exact Act.keeps_fail _
  · exact keeps_onWorld (Executor.keeps_raise _)
  · exact Act.keeps_pure _
  · exact Act.keeps_fail _
  · exact Act.keeps_fail _
  · exact Act.keeps_pure _

variable {callback : Commit → World σ × τ → Answer × (World σ × τ)}
  (hcall : ∀ c s, Guarded w s → Guarded w (callback c s).2)

include hcall in
theorem guarded_stream (output : Nat) {s : World σ × τ} (hs : Guarded w s) :
    Guarded w (stream q output callback s).2 := by
  have hread (s : World σ × τ) (hs : Guarded w s) : Guarded w (beside (readOutput output) s).2 :=
    World.guarded_receive hs output readSize
  obtain ⟨v, s', hs', hstream⟩ := stream_keeps hread hcall hs
  rw [hstream]
  exact World.guarded_close hs' ⟨output, .reading⟩

include hengine hcall in
theorem keeps_traverse :
    (traverse q callback : Act (World σ × τ) TraversalError Outcome).Keeps (Guarded w) := by
  apply (keeps_onWorld Executor.keeps_openPipe).bind
  intro link
  apply (keeps_onWorldClosing Executor.keeps_openPipe _).bind
  intro output
  apply (keeps_startHelpers hengine link output).bind
  rintro ⟨lister, dumper⟩
  apply (Act.keeps_does fun s hs => guarded_stream hcall output hs).bind
  intro verdict
  apply (keeps_reapLister lister dumper verdict).bind
  intro listerCode
  apply (keeps_onWorld (Executor.keeps_reap dumper _)).bind
  intro dumperCode
  exact keeps_conclude verdict listerCode dumperCode

end Walks

end History

namespace Session

def Guarded (w : World σ) (s : Session σ) : Prop :=
  w.Guarded s.world

theorem keeps_onWorld {act : Act (World σ) ExecError α} (h : act.Keeps w.Guarded) :
    (onWorld act).Keeps (Guarded w) :=
  (h.within (fun _ hs => hs) fun _ _ _ ht => ht).mapError _

theorem keeps_finishWriter :
    (finishWriter : Act (Session σ) CommandError Unit).Keeps (Guarded w) := by
  apply Act.keeps_current_bind
  intro s _
  split
  · exact Act.keeps_pure ()
  · next p _ => exact keeps_onWorld p.keeps_drop

theorem keeps_sayLine (line : String) :
    (sayLine line : Act (Session σ) CommandError Unit).Keeps (Guarded w) := by
  have hsay : (Act.does (say (line ++ "\n")) : Act (Session σ) CommandError _).Keeps (Guarded w) :=
    fun s hs => s.writer.guarded_writeAll (Utf8.encode (line ++ "\n")) hs
  apply hsay.bind
  intro result
  cases result with
  | ok => exact Act.keeps_pure ()
  | error e => exact Act.keeps_fail _

end Session

namespace Space

open Session

section Engine

variable (hengine : ∀ s : Spec, s.program = .engine → w.Harmless s) (space : Space)

include hengine

theorem keeps_runEngine (args : List String) :
    (space.runEngine args : Act (Session σ) CommandError Unit).Keeps (Guarded w) := by
  apply (keeps_onWorld (Executor.keeps_run (hengine _ rfl))).bind
  intro code
  split
  · exact Act.keeps_fail _
  · exact Act.keeps_pure ()

theorem keeps_captureEngine (args : List String) :
    (space.captureEngine args : Act (Session σ) CommandError String).Keeps (Guarded w) := by
  apply (keeps_onWorld (Executor.keeps_capture fun _ => hengine _ rfl)).bind
  intro captured
  apply Act.keeps_unless
  split
  · exact Act.keeps_pure _
  · exact Act.keeps_fail _

theorem keeps_message (text : String) :
    (space.message text : Act (Session σ) CommandError Unit).Keeps (Guarded w) := by
  unfold message
  apply Act.keeps_unless
  apply (space.keeps_runEngine hengine _).bind
  intro _
  apply (space.keeps_captureEngine hengine _).bind
  intro head
  split
  · exact keeps_sayLine _
  · exact Act.keeps_fail _

theorem keeps_read (delimiter : Batch.Delimiter) (options : ReadOptions) :
    (space.read delimiter options : Act (Session σ) CommandError Unit).Keeps (Guarded w) := by
  have hshow (c : Commit) (s : World σ × Showing) (hs : History.Guarded w s) :
      History.Guarded w (space.showCommit options c s).2 := by
    have hwrite := s.2.writer.guarded_writeAll
      (Utf8.encode (text (lines space.colour options (0 < s.2.shown) c))) hs
    unfold showCommit
    split <;> next heq =>
      rw [heq] at hwrite
      exact hwrite
  have hwalk := History.keeps_traverse (q := space.query delimiter options) hengine hshow
  apply Act.Keeps.bind
  · apply Act.Keeps.mapError
    exact Act.Keeps.within hwalk (fun _ hs => hs) fun _ _ _ ht => ht
  · exact fun _ => Act.keeps_pure ()

end Engine

theorem start_read_of_ok {space : Space} {delimiter : Batch.Delimiter} {options : ReadOptions}
    {s : Session σ} {showing : Showing} {outcome : History.Outcome}
    (h : (History.traverse (space.query delimiter options) (space.showCommit options)).start
      (s.world, ⟨s.writer, 0⟩) = (.ok outcome, (w, showing))) :
    (space.read delimiter options).start s =
      (.ok (), { s with world := w, writer := showing.writer }) := by
  refine (Act.start_bind_of_ok (a := outcome) ?_).trans rfl
  rw [Act.start_mapError, Act.start_within, h]
  rfl

theorem keeps_startPager {space : Space}
    (h : ∀ command pipe, space.pager = some command →
      w.Harmless (Pager.spec command pipe w.environment)) :
    (space.startPager : Act (Session σ) CommandError Unit).Keeps (Guarded w) := by
  unfold startPager
  split
  · exact Act.keeps_pure ()
  · next command hpager =>
    apply (keeps_onWorld (Pager.keeps_spawn fun pipe => h command pipe hpager)).bind
    intro pager
    exact keeps_finishWriter.bind fun _ => Act.keeps_change fun _ hs => hs

def spaceAt (dir : Bytes) (pager : Option String) (colour : Bool) :
    Act (Session σ) CommandError Space := do
  let s ← Act.current
  match s.files.resolve s.world.directory dir with
  | .ok (location, _) =>
      if Tree.maxPath ≤ (Path.ofLocation location).length then
        Act.fail (.invalidPath (Utf8.lossy dir) .nameTooLong)
      pure { location, pager, colour }
  | .error source => Act.fail (.invalidPath (Utf8.lossy dir) source)

theorem start_spaceAt (dir : Bytes) (pager : Option String) (colour : Bool) (s : Session σ) :
    ∃ result, (spaceAt dir pager colour).start s = (result, s) ∧
      ∀ space, result = .ok space → space.pager = pager := by
  rw [spaceAt, Act.start_bind_of_ok (Act.start_current s)]
  split
  · simp only
    split
    · exact ⟨_, rfl, nofun⟩
    · refine ⟨_, rfl, ?_⟩
      rintro space ⟨⟩
      rfl
  · exact ⟨_, rfl, nofun⟩

theorem start_openAt (dir : Bytes) (pager : Option String) (colour : Bool) (s : Session σ) :
    ∃ result, (openAt dir pager colour).start s =
        (result, s.withFiles (s.files.opened s.world.directory dir)) ∧
      ∀ space, result = .ok space → space.pager = pager := by
  have hopen : (openAt dir pager colour : Act (Session σ) CommandError Space).start s =
      (if !s.files.present s.world.directory dir then
        changeFiles (fun t here => t.makeDirectories here dir) (.makeSpace (Utf8.lossy dir)) >>=
          fun _ => spaceAt dir pager colour
      else spaceAt dir pager colour).start s := rfl
  rw [hopen]
  by_cases hpresent : s.files.present s.world.directory dir = true
  · rw [Tree.opened, if_pos hpresent, if_neg (by simp [hpresent])]
    exact start_spaceAt dir pager colour s
  · rw [Tree.opened, if_neg hpresent, if_pos (by simp [hpresent])]
    have hmake := start_changeFiles (fun t here => t.makeDirectories here dir)
      (.makeSpace (Utf8.lossy dir)) s
    rcases hmade : s.files.makeDirectories s.world.directory dir with ⟨source, t⟩ | t <;>
      simp only [hmade] at hmake
    · rw [Act.start_bind_of_error hmake]
      exact ⟨_, rfl, nofun⟩
    · rw [Act.start_bind_of_ok hmake]
      exact start_spaceAt dir pager colour _

end Space

namespace CommandLine

open Session

def Task.shows : Task → Bool
  | .read _ _ _ _ => true
  | _ => false

def MayStart (c : Conditions) (request : Request) (w : World σ) (s : Spec) : Prop :=
  s.program = .engine ∨
    c.terminal ∧ request.task.shows ∧ ∃ command pipe,
      (Settings.ofBytes w.valueOf?).pager = some command ∧
        s = Pager.spec command pipe w.environment

def Request.goal (request : Request) (here : Location) : Bytes :=
  request.directory.getD (Path.ofLocation here)

def Request.entered (request : Request) (w : World σ) : World σ :=
  { w with
    plumbing :=
      { w.plumbing with
        files := w.plumbing.files.opened w.directory (request.goal w.directory) } }

theorem start_openSpace (c : Conditions) (request : Request) (w : World σ) :
    ∃ result s, (openSpace c (request.goal w.directory)).start (opening w) = (result, s) ∧
      (request.entered w).Alike s.world ∧ s.world.exhausted = w.exhausted ∧
      s.world.children = w.children ∧
      ∀ space, result = .ok space → space.pager = (Settings.ofBytes w.valueOf?).pager := by
  obtain ⟨result, hopen, hpager⟩ := Space.start_openAt (request.goal w.directory)
    (Settings.ofBytes (opening w).world.valueOf?).pager c.terminal (opening w)
  have hspace : (openSpace c (request.goal w.directory)).start (opening w) = _ :=
    (Act.start_bind_of_ok (Act.start_current _)).trans hopen
  exact ⟨result, _, hspace, ⟨rfl, rfl, rfl, rfl, rfl⟩, rfl, rfl, hpager⟩

section Guards

variable {c : Conditions} {request : Request}

structure Harmless (c : Conditions) (request : Request) (w : World σ) : Prop where
  programs : ∀ s, MayStart c request w s → (request.entered w).Harmless s
  children : ∀ child ∈ w.children, WritesNoFile child.actions

theorem guarded_perform (htask : ∀ path, request.task ≠ .init path) (h : Harmless c request w) :
    Guarded (request.entered w) ((perform c request).start (opening w)).2 := by
  have hengine (s : Spec) (hs : s.program = .engine) : (request.entered w).Harmless s :=
    h.programs s (.inl hs)
  obtain ⟨result, s, hopen, halike, hexhausted, hchildren, hpager⟩ := start_openSpace c request w
  have hguarded : Guarded (request.entered w)
      ((openSpace c (request.goal w.directory)).start (opening w)).2 := by
    rw [hopen]
    exact ⟨halike, ⟨0, hexhausted.trans (Refusals.drop_zero _).symm⟩, hchildren ▸ h.children⟩
  rw [perform, Act.start_bind_of_ok (Act.start_current _)]
  simp only
  split
  · next path hinit => exact absurd hinit (htask path)
  · next text _ =>
    exact Act.holds_bind hguarded fun space _ _ => space.keeps_message hengine text
  · next start limit oneline abbreviated hread =>
    apply Act.holds_bind hguarded
    intro space s' hstart
    obtain rfl := congrArg Prod.fst (hopen.symm.trans hstart)
    split
    · next hterminal =>
      have hshows : request.task.shows := by rw [hread, Task.shows]
      apply (Space.keeps_startPager fun command pipe hcommand => ?_).bind
      · exact fun _ => space.keeps_read hengine _ _
      · have hset := (hpager space rfl).symm.trans hcommand
        exact h.programs _ (.inr ⟨hterminal, hshows, command, pipe, hset, rfl⟩)
    · exact space.keeps_read hengine _ _

theorem files_run {arguments : List Bytes} (hparse : Request.parse arguments = .ok request)
    (htask : ∀ path, request.task ≠ .init path) (h : Harmless c request w) :
    (run c arguments w).2.plumbing.files =
      w.plumbing.files.opened w.directory (request.goal w.directory) := by
  have hcarry : Guarded (request.entered w) ((carryOut c request).start (opening w)).2 := by
    apply Act.holds_bind
    · rw [Act.state_attempt]
      exact guarded_perform htask h
    · intro result _ _
      apply keeps_finishWriter.bind
      intro _
      cases result with
      | ok _ => exact Act.keeps_pure ()
      | error e => exact Act.keeps_fail e
  rw [run, hparse]
  exact hcarry.files

/-- The files afterwards: as they were if the directory is there, and else with the directory made
and those above it, as far as they can be made. -/
structure Frames (t : Tree) (here : Location) (path : Bytes) (t' : Tree) : Prop where
  present : t.present here path → t' = t
  missing : t.present here path = false → t' = Tree.after (t.makeDirectories here path)
  adds : t.AddsDirectories t'

end Guards

def quiet : Conditions :=
  { terminal := false, delimiter := ⟨"00112233aabbccdd"⟩ }

def notes : Tree :=
  .ofList
    [([Utf8.encode "bin", Utf8.encode "git"], .file 0o755 Image.nativeMark),
      ([Utf8.encode "notes"], .file Tree.defaultMode (Utf8.encode "kept"))]

def idleWorld : World Unit :=
  { state := ()
    programs := fun _ s => ({ actions := [], exit := .code 0 }, s)
    environment := ⟨[(Utf8.encode "PATH", Utf8.encode "/bin")]⟩
    plumbing := { files := notes } }

def roomPath : Bytes := Utf8.encode "/new/room"

def newName : Files.Name := Utf8.encode "new"

def posting : List Bytes :=
  [Utf8.encode "-C", roomPath, Utf8.encode "message", Utf8.encode "-m", Utf8.encode "hi"]

def reading : List Bytes :=
  [Utf8.encode "-C", roomPath, Utf8.encode "read"]

theorem harmless_idleWorld (c : Conditions) (request : Request) :
    Harmless c request idleWorld where
  programs _ _ _ _ _ := List.forall_mem_nil _
  children := List.forall_mem_nil _

theorem parse_posting : Request.parse posting = .ok ⟨some roomPath, .message "hi"⟩ := by
  decide

theorem parse_reading :
    Request.parse reading = .ok ⟨some roomPath, .read none none false false⟩ := by
  decide

def notesAndNew : Tree :=
  notes.put [newName] (.directory [])

def notesAndRoom : Tree :=
  ⟨.directory
    [(newName, .directory [(Utf8.encode "room", .directory [])]),
      (Utf8.encode "notes", .file Tree.defaultMode (Utf8.encode "kept")),
      (Utf8.encode "bin", .directory [(Utf8.encode "git", .file 0o755 Image.nativeMark)])]⟩

theorem steps_roomPath : Path.steps roomPath = [newName, Utf8.encode "room"] := by
  decide

theorem not_present_roomPath : notes.present [] roomPath = false := by
  have hroot : notes.root.descend [] = some notes.root := rfl
  exact Tree.not_present_of_missing [] (by decide) steps_roomPath hroot rfl

theorem makeDirectories_roomPath : notes.makeDirectories [] roomPath = .ok notesAndRoom := by
  have hroot : notes.root.descend [] = some notes.root := rfl
  have hnames : Path.names roomPath = [newName, Utf8.encode "room"] := by decide
  have horphan : notes.makeDirectory [] roomPath = .error .notFound :=
    Tree.makeDirectory_of_orphan [] (by decide) hnames hroot rfl
  have hparent : notes.makeDirectory [] (Utf8.encode "/new") = .ok notesAndNew :=
    Tree.makeDirectory_of_missing [] (by decide) (by decide) hroot rfl
  have hnew : notesAndNew.root.descend [newName] = some (.directory []) := rfl
  have hlast : notesAndNew.makeDirectory [] roomPath = .ok notesAndRoom :=
    Tree.makeDirectory_of_missing [] (by decide) hnames hnew rfl
  exact Tree.makeDirectories_of_parent (by decide) rfl rfl (by decide) horphan
    hparent hlast

theorem files_room :
    ∀ arguments ∈ [posting, reading],
      (∃ request, Request.parse arguments = .ok request ∧
        ∀ path, request.task ≠ .init path) ∧
      Tree.entry? (run quiet arguments idleWorld).2.plumbing.files [newName] ≠ none := by
  have hnew : Tree.entry? (notes.opened [] roomPath) [newName] =
      some (.directory [(Utf8.encode "room", .directory [])]) := by
    rw [Tree.opened, if_neg (by simp [not_present_roomPath]), makeDirectories_roomPath]
    rfl
  have hmakes {arguments : List Bytes} {task : Task}
      (hparse : Request.parse arguments = .ok ⟨some roomPath, task⟩)
      (htask : ∀ path, task ≠ .init path) :
      Tree.entry? (run quiet arguments idleWorld).2.plumbing.files [newName] ≠ none := by
    rw [files_run hparse htask (harmless_idleWorld quiet ⟨some roomPath, task⟩)]
    exact fun hnone => Option.some_ne_none _ (hnew.symm.trans hnone)
  intro arguments hmem
  rcases List.mem_cons.mp hmem with rfl | hmem
  · exact ⟨⟨_, parse_posting, by simp⟩, hmakes parse_posting (by simp)⟩
  · obtain rfl := List.mem_singleton.mp hmem
    exact ⟨⟨_, parse_reading, by simp⟩, hmakes parse_reading (by simp)⟩

def paging : Conditions :=
  { quiet with terminal := true }

def engineImage : Bytes := Image.nativeMark

def shellImage : Bytes := Image.nativeMark ++ [0]

def engineLocation : Location :=
  [Utf8.encode "bin", Utf8.encode "git"]

def tools : Tree :=
  .ofList
    [(engineLocation, .file 0o755 engineImage),
      ([Utf8.encode "bin", Utf8.encode "sh"], .file 0o755 shellImage)]

def seenName : Files.Name := Utf8.encode "seen"

def seenPath : Bytes := Path.ofLocation [seenName]

def pagedWorld : World Unit :=
  { state := ()
    programs := fun launch s =>
      ({ actions := if launch.image = shellImage then [.create seenPath] else []
         exit := .code 0 }, s)
    environment := ⟨[(Utf8.encode "PATH", Utf8.encode "/bin")]⟩
    plumbing := { files := tools } }

def pagedSpace : Space :=
  ⟨[], some Settings.defaultPager, true⟩

def pagedQuery : History.Query :=
  pagedSpace.query paging.delimiter {}

def pager : Pager :=
  ⟨some 0, some ⟨0, "sh"⟩⟩

def pagedWalk : History.Walk :=
  ⟨1, 2, ⟨1, engineName⟩, ⟨2, engineName⟩⟩

def childOf (streams : Streams) (actions : List Action) : Child :=
  { streams
    directory := []
    actions
    exit := .code 0
    broken := .signal Signal.brokenPipe }

def pagerStreams : Streams :=
  { stdin := .provisioned ⟨0, .reading⟩ }

def pagedCommand (s : Spec) (path : String) : Command :=
  Executor.commandOf pagedWorld s (Utf8.encode path)

def pagerCommand : Command :=
  pagedCommand (Pager.spec Settings.defaultPager 0 pagedWorld.environment) "/bin/sh"

def pagedStart : World Unit :=
  { pagedWorld with
    plumbing := { pagedWorld.plumbing with pipes := [[]] }
    held := [⟨0, .writing⟩]
    children := [childOf pagerStreams [.create seenPath]]
    handler := .terminates
    journal := { labels := [pagerStreams.label], starts := [⟨pagerCommand, none⟩] } }

def pagedJoined : World Unit :=
  { pagedStart with
    plumbing := { pagedWorld.plumbing with pipes := [[], [], []] }
    held := [⟨2, .reading⟩, ⟨0, .writing⟩]
    children := pagedStart.children ++
      [childOf pagedWalk.listerStreams [], childOf pagedWalk.dumperStreams []]
    journal :=
      { labels :=
          [pagerStreams.label, pagedWalk.listerStreams.label, pagedWalk.dumperStreams.label]
        starts :=
          [⟨pagerCommand, none⟩, ⟨pagedCommand (pagedQuery.lister 1) "/bin/git", none⟩,
            ⟨pagedCommand (pagedQuery.dumper 1 2) "/bin/git", none⟩] } }

def pagedSeen : World Unit :=
  { pagedJoined with
    plumbing :=
      { pagedJoined.plumbing with files := tools.put [seenName] (.file Tree.defaultMode []) }
    children := pagedJoined.children.map fun c => { c with actions := [] } }

def pagedEnd : World Unit :=
  { pagedSeen with children := pagedSeen.children.map fun c => { c with ended := some c.exit } }

theorem resolve_tools_root (here : Location) :
    tools.resolve here [Path.slash] = .ok ([], tools.root) :=
  Tree.resolve_root here rfl

theorem resolve_tools_git (here : Location) :
    tools.resolve here (Utf8.encode "/bin/git") = .ok (engineLocation, .file 0o755 engineImage) :=
  Tree.resolve_of_descend here (by decide) rfl (by simp)

theorem resolve_tools_sh (here : Location) :
    tools.resolve here (Utf8.encode "/bin/sh") =
      .ok ([Utf8.encode "bin", Utf8.encode "sh"], .file 0o755 shellImage) :=
  Tree.resolve_of_descend here (by decide) rfl (by simp)

theorem start_startPager_paged :
    pagedSpace.startPager.start (opening pagedWorld) = (.ok (), ⟨pagedStart, .pager pager⟩) := by
  let w := (opening pagedWorld).world
  have hpath : Lookup.find? w.withPipe.plumbing.files w.withPipe.directory w.withPipe.searchPath
      (Pager.spec Settings.defaultPager 0 w.environment).program =
        some (Utf8.encode "/bin/sh") := by
    exact Lookup.search_of_head rfl (resolve_tools_sh []) rfl
  have hstart := Executor.spawn_of_native rfl hpath (by decide) (by decide)
    (by decide) rfl (resolve_tools_sh []) rfl rfl
  have hpager : (onWorld (Pager.spawn Settings.defaultPager) : Act _ CommandError _).start
      (opening pagedWorld) = (.ok pager, ⟨pagedStart, (opening pagedWorld).writer⟩) := by
    rw [Session.start_onWorld, Pager.start_spawn_of_free (w := w) Settings.defaultPager rfl hstart]
    rfl
  exact (Act.start_bind_of_ok hpager).trans rfl

theorem spawn_paged {v : World Unit} {s : Spec} (hprogram : s.program = .engine)
    (hfiles : v.plumbing.files = tools) (hdirectory : v.directory = [])
    (henvironment : v.environment = pagedWorld.environment) (hfree : v.exhausted = false)
    (hformats : v.formats = Image.ofContent)
    (hroom : s.workDir = some [Path.slash])
    (hnul : (pagedCommand s "/bin/git").hasNul = false)
    (hlong : (pagedCommand s "/bin/git").isTooLong (Utf8.encode "/bin/git") = false) :
    let c := pagedCommand s "/bin/git"
    (Executor.spawn s).start v = (.ok ⟨v.children.length, s.program.display⟩,
      (((v.noteLabel s.streams.label).noteStart c none).addChild c
        ⟨engineImage, c.args, Command.visible c.environment, [], tools⟩).closeAll s.ends) := by
  intro c
  have hcommand : Executor.commandOf v s (Utf8.encode "/bin/git") = c := by
    simp only [c, pagedCommand, Executor.commandOf, henvironment]
  have hgit : v.plumbing.files.resolve [] (Utf8.encode "/bin/git") = _ :=
    hfiles ▸ resolve_tools_git []
  have hpath : Lookup.find? v.plumbing.files v.directory v.searchPath s.program =
      some (Utf8.encode "/bin/git") := by
    rw [hprogram, hdirectory, World.searchPath_of_environment henvironment]
    exact Lookup.search_of_head rfl hgit rfl
  rw [← hfiles, ← hcommand]
  apply Executor.spawn_of_native hfree hpath (by decide) _ _ _ hgit rfl
    (hformats ▸ by decide)
  · rw [hcommand]
    exact hnul
  · rw [hcommand]
    exact hlong
  · have hdir : (Executor.commandOf v s (Utf8.encode "/bin/git")).workDir = s.workDir := rfl
    rw [Command.directory, hdir, hroom, hfiles]
    simp only [resolve_tools_root]
    rfl

theorem launch_paged :
    (History.launch pagedQuery).start pagedStart = (.ok pagedWalk, pagedJoined) := by
  have hlink : (Executor.openPipe : Act (World Unit) ExecError Nat).start pagedStart =
      (.ok 1, pagedStart.openPipe.2) := rfl
  have houtput : (Executor.openPipe : Act (World Unit) ExecError Nat).start
      pagedStart.openPipe.2 = (.ok 2, pagedStart.openPipe.2.openPipe.2) := rfl
  have hlister := spawn_paged (v := pagedStart.openPipe.2.openPipe.2) (s := pagedQuery.lister 1)
    rfl rfl rfl rfl rfl rfl rfl (by decide) (by decide)
  rw [History.launch, Act.start_bind_of_ok hlink, Act.start_bind_of_ok houtput,
    Act.start_bind_of_ok hlister]
  generalize hw : World.closeAll _ (pagedQuery.lister 1).ends = v
  have hdumper := spawn_paged (v := v) (s := pagedQuery.dumper 1 2) rfl (hw ▸ rfl) (hw ▸ rfl)
    (hw ▸ rfl) (hw ▸ rfl) (hw ▸ rfl) rfl (by decide) (by decide)
  rw [Act.start_bind_of_ok hdumper, ← hw]
  rfl

theorem settle_pagedJoined : pagedJoined.settle = pagedEnd := by
  have hcreate : World.stepFirst pagedJoined.ends pagedJoined.plumbing pagedJoined.children =
      some (pagedSeen.children, pagedSeen.plumbing) := by
    have hroot : tools.root.descend [] = some tools.root := rfl
    have hsteps : Path.steps seenPath = [seenName] := by decide
    have hwrite : pagedJoined.plumbing.files.write [] seenPath [] = .ok _ :=
      Tree.write_of_missing [] (by decide) [] hsteps hroot rfl
    have hchildren : pagedJoined.children = childOf pagerStreams [.create seenPath] ::
        [childOf pagedWalk.listerStreams [], childOf pagedWalk.dumperStreams []] := rfl
    rw [hchildren, World.stepFirst, Child.step_create rfl rfl hwrite]
    rfl
  have hrest : pagedEnd.AtRest := (rfl : World.stepFirst _ _ _ = none)
  rw [World.settle_of_stepFirst hcreate, World.settle_of_stepFirst rfl,
    World.settle_of_stepFirst rfl, World.settle_of_stepFirst rfl]
  exact World.settle_of_atRest hrest

theorem settle_pagedEnd :
    (pagedEnd.close ⟨2, .reading⟩).settle = pagedEnd.close ⟨2, .reading⟩ :=
  World.settle_of_atRest (rfl : World.stepFirst _ _ _ = none)

def pagedShown : World Unit :=
  History.reaped pagedWalk (.ended .completed) (.code 0) (.code 0) (pagedEnd.close ⟨2, .reading⟩)

section Walk

variable (callback : Commit → World Unit × τ → History.Answer × (World Unit × τ)) (t : τ)

theorem stream_paged :
    History.stream pagedQuery 2 callback (pagedJoined, t) =
      (.ended .completed, (pagedEnd.close ⟨2, .reading⟩, t)) := by
  have hsettle : pagedJoined.settleIfEmpty 2 = pagedEnd :=
    (if_pos rfl).trans settle_pagedJoined
  have hread : pagedJoined.receive 2 History.readSize = (.ok [], pagedEnd) := by
    rw [World.receive, hsettle]
    rfl
  have hbeside : History.beside (History.readOutput 2) (pagedJoined, t) =
      (.ok [], (pagedEnd, t)) := by
    rw [History.beside, History.readOutput, hread]
  exact History.stream_eq (History.pump_of_end hbeside)

theorem start_traverse_paged :
    (History.traverse pagedQuery callback).start (pagedStart, t) =
      (.ok .completed, (pagedShown, t)) := by
  have hended (h : Handle) (hchild : h.child = 1 ∨ h.child = 2) :
      (pagedEnd.close ⟨2, .reading⟩).settle.exit? h = some (.code 0) := by
    rw [settle_pagedEnd, World.exit?]
    rcases hchild with hchild | hchild <;> rw [hchild] <;> rfl
  rw [History.start_traverse launch_paged, History.start_follow_of_ended
    (hended pagedWalk.lister (.inl rfl)) (hended pagedWalk.dumper (.inr rfl))
    (stream_paged callback t)]
  rfl

end Walk

def showingArgs : List Bytes :=
  [Utf8.encode "-C", [Path.slash], Utf8.encode "read"]

def showing : Request :=
  ⟨some [Path.slash], .read none none false false⟩

theorem parse_showing : Request.parse showingArgs = .ok showing := by
  decide

theorem start_perform_paged :
    (perform paging showing).start (opening pagedWorld) = (.ok (), ⟨pagedShown, .pager pager⟩) := by
  have hpager : (Settings.ofBytes (opening pagedWorld).world.valueOf?).pager =
      some Settings.defaultPager := by
    decide
  have hopen : (openSpace paging [Path.slash]).start (opening pagedWorld) =
      (.ok pagedSpace, opening pagedWorld) := by
    rw [openSpace, Act.start_bind_of_ok (Act.start_current _), hpager]
    exact Space.start_openAt_of_resolve (s := opening pagedWorld) (resolve_tools_root [])
      (by decide) _ _
  have hread : (pagedSpace.read paging.delimiter {}).start ⟨pagedStart, .pager pager⟩ =
      (.ok (), ⟨pagedShown, .pager pager⟩) :=
    Space.start_read_of_ok (s := ⟨pagedStart, .pager pager⟩) (start_traverse_paged _ _)
  have hperform : (perform paging showing).start (opening pagedWorld) =
      (openSpace paging [Path.slash] >>= fun space =>
        space.startPager >>= fun _ => space.read paging.delimiter {}).start (opening pagedWorld) :=
    rfl
  rw [hperform, Act.start_bind_of_ok hopen, Act.start_bind_of_ok start_startPager_paged, hread]

theorem guarded_pagedShown : pagedShown.Guarded pagedShown := by
  have hchildren : pagedShown.children = pagedEnd.children := by
    rw [pagedShown, History.reaped, settle_pagedEnd]
    rfl
  refine ⟨⟨rfl, rfl, rfl, rfl, rfl⟩, ⟨0, (Refusals.drop_zero _).symm⟩, fun c hc => ?_⟩
  rw [hchildren] at hc
  obtain ⟨d, hd, rfl⟩ := List.mem_map.mp hc
  obtain ⟨e, he, rfl⟩ := List.mem_map.mp hd
  exact List.forall_mem_nil _

theorem files_paged :
    (run paging showingArgs pagedWorld).2.plumbing.files = pagedEnd.plumbing.files := by
  have hcarry : (carryOut paging showing).start (opening pagedWorld) =
      (finishWriter >>= fun _ => pure ()).start ⟨pagedShown, .pager pager⟩ :=
    Act.start_bind_of_ok (Act.start_attempt_of_ok start_perform_paged)
  have hfinish : (finishWriter >>= fun _ => pure () : Act (Session Unit) CommandError Unit).Keeps
      (Guarded pagedShown) :=
    keeps_finishWriter.bind fun _ => Act.keeps_pure ()
  have hkept := hfinish ⟨pagedShown, .pager pager⟩ guarded_pagedShown
  rw [← hcarry] at hkept
  rw [run, parse_showing]
  exact hkept.files.trans (congrArg (·.plumbing.files) settle_pagedEnd)

end CommandLine

end ChatSpace
