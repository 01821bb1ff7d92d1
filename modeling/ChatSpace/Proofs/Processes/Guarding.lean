import ChatSpace.Proofs.Processes.Growth
import ChatSpace.Proofs.Processes.Sparing

namespace ChatSpace.Processes

variable {σ S T ε δ α β : Type}

namespace Act

variable {P : S → Prop}

def Keeps (P : S → Prop) (act : Act S ε α) : Prop :=
  ∀ s, P s → P (act.start s).2

theorem keeps_pure (a : α) : (pure a : Act S ε α).Keeps P :=
  fun _ h => h

theorem keeps_fail (e : ε) : (fail e : Act S ε α).Keeps P :=
  fun _ h => h

theorem keeps_does {step : S → α × S} (h : ∀ s, P s → P (step s).2) :
    (does step : Act S ε α).Keeps P :=
  h

theorem keeps_change {f : S → S} (h : ∀ s, P s → P (f s)) : (change f : Act S ε Unit).Keeps P :=
  h

theorem holds_bind {act : Act S ε α} {next : α → Act S ε β} {s : S} (h : P (act.start s).2)
    (hnext : ∀ a s', act.start s = (.ok a, s') → (next a).Keeps P) :
    P ((act >>= next).start s).2 := by
  rcases hstart : act.start s with ⟨e | a, s'⟩ <;> rw [hstart] at h
  · rwa [start_bind_of_error hstart]
  · rw [start_bind_of_ok hstart]
    exact hnext a s' hstart s' h

theorem Keeps.bind {act : Act S ε α} {next : α → Act S ε β} (h : act.Keeps P)
    (hnext : ∀ a, (next a).Keeps P) : (act >>= next).Keeps P :=
  fun s hs => holds_bind (h s hs) fun a _ _ => hnext a

theorem keeps_current_bind {next : S → Act S ε α} (h : ∀ s, P s → (next s).Keeps P) :
    (current >>= next).Keeps P :=
  fun s hs => h s hs s hs

theorem keeps_unless {p : Prop} [Decidable p] {e : ε} {next : Unit → Act S ε α}
    (h : (next ()).Keeps P) : (if p then fail e >>= next else next ()).Keeps P := by
  split
  · exact keeps_fail e
  · exact h

theorem Keeps.andThen {act : Act S ε α} {after : S → S} (h : act.Keeps P)
    (hafter : ∀ s, P s → P (after s)) : (act.andThen after).Keeps P :=
  fun s hs => hafter _ (h s hs)

theorem Keeps.onFailure {act : Act S ε α} {after : S → S} (h : act.Keeps P)
    (hafter : ∀ s, P s → P (after s)) : (act.onFailure after).Keeps P := by
  intro s hs
  have hact := h s hs
  rcases hstart : act.start s with ⟨e | a, s'⟩ <;> rw [hstart] at hact
  · rw [start_onFailure_of_error hstart]
    exact hafter s' hact
  · rwa [start_onFailure_of_ok hstart]

theorem state_attempt (act : Act S ε α) (s : S) :
    ((attempt act : Act S δ (Except ε α)).start s).2 = (act.start s).2 := by
  rcases hstart : act.start s with ⟨(e | text) | a, s'⟩
  · rw [start_attempt_of_failed hstart]
  · rw [start_attempt_of_halted hstart]
  · rw [start_attempt_of_ok hstart]

theorem Keeps.attempt {act : Act S ε α} (h : act.Keeps P) :
    (attempt act : Act S δ (Except ε α)).Keeps P := by
  intro s hs
  rw [state_attempt]
  exact h s hs

theorem Keeps.mapError {act : Act S ε α} (h : act.Keeps P) (f : ε → δ) :
    (act.mapError f).Keeps P :=
  h

theorem Keeps.within {Q : T → Prop} {get : S → T} {set : T → S → S} {act : Act T ε α}
    (h : act.Keeps Q) (hget : ∀ s, P s → Q (get s)) (hset : ∀ s t, P s → Q t → P (set t s)) :
    (act.within get set).Keeps P :=
  fun s hs => hset s _ hs (h _ (hget s hs))

end Act

def Output.file? : Output → Option Bytes
  | .file path => some path
  | _ => none

def Action.file? : Action → Option Bytes
  | .create path => some path
  | .write target _ => target.file?
  | .transform _ target _ => target.file?

def WritesNoFile (actions : List Action) : Prop :=
  ∀ action ∈ actions, action.file? = none

namespace Child

variable {ends : List PipeEnd} {p q : Plumbing} {c d : Child}

theorem sink_ne_file {target : Output} (h : target.file? = none) (directory : Files.Location)
    (path : Bytes) : c.sink target ≠ .file directory path := by
  have hstream (inherited : Sink) (disposition : Disposition)
      (hne : inherited ≠ .file directory path) :
      sinkOf inherited disposition ≠ .file directory path := by
    unfold sinkOf
    split
    · exact hne
    all_goals exact nofun
  cases target with
  | stdout => exact hstream _ _ nofun
  | stderr => exact hstream _ _ nofun
  | file path => cases h

theorem writesNoFile_step (hc : WritesNoFile c.actions) (h : c.step ends p = some (d, q)) :
    q.files = p.files ∧ WritesNoFile d.actions := by
  have hsplit {action : Action} {rest : List Action} (hactions : c.actions = action :: rest) :
      action.file? = none ∧ WritesNoFile rest :=
    List.forall_mem_cons.mp (hactions ▸ hc)
  have hnext {target : Output} {data : Bytes} {rest : List Action} (htarget : target.file? = none)
      (hrest : WritesNoFile rest) : WritesNoFile (.write target data :: rest) :=
    List.forall_mem_cons.mpr ⟨htarget, hrest⟩
  cases (steps_of_step h).2 with
  | ended exit => exact ⟨rfl, hc⟩
  | created hactions => cases (hsplit hactions).1
  | wrote hactions =>
      obtain ⟨htarget, hrest⟩ := hsplit hactions
      exact ⟨Plumbing.files_put (sink_ne_file htarget) p _, hrest⟩
  | wrotePartly hactions =>
      obtain ⟨htarget, hrest⟩ := hsplit hactions
      exact ⟨Plumbing.files_put (sink_ne_file htarget) p _, hnext htarget hrest⟩
  | transformed hactions =>
      obtain ⟨htarget, hrest⟩ := hsplit hactions
      exact ⟨rfl, hnext htarget hrest⟩
  | drained n hactions =>
      obtain ⟨htarget, hrest⟩ := hsplit hactions
      exact ⟨rfl, hnext htarget hrest⟩
  | took => exact ⟨rfl, hc⟩

end Child

theorem Refusals.drop_zero (r : Refusals) : r.drop 0 = r := by
  simp only [drop, Nat.zero_add]

namespace World

variable {u v w : World σ} {s : Spec} {l : Launch}

def Starts (w : World σ) (s : Spec) (l : Launch) : Prop :=
  ∃ path, Lookup.find? w.plumbing.files w.directory w.searchPath s.program = some path ∧
    ∃ starts d, Executor.Tries w s (Executor.commandOf w s path) starts (.ok (d, l))

def Harmless (w : World σ) (s : Spec) : Prop :=
  ∀ l state, w.Starts s l → WritesNoFile (w.programs l state).1.actions

structure Alike (w v : World σ) : Prop where
  files : v.plumbing.files = w.plumbing.files
  directory : v.directory = w.directory
  environment : v.environment = w.environment
  formats : v.formats = w.formats
  programs : v.programs = w.programs

structure Guarded (w v : World σ) : Prop extends Alike w v where
  exhausted : ∃ n, v.exhausted = w.exhausted.drop n
  children : ∀ c ∈ v.children, WritesNoFile c.actions

theorem Alike.trans (h : u.Alike v) (h' : v.Alike w) : u.Alike w where
  files := h'.files.trans h.files
  directory := h'.directory.trans h.directory
  environment := h'.environment.trans h.environment
  formats := h'.formats.trans h.formats
  programs := h'.programs.trans h.programs

theorem Alike.launchOf (h : w.Alike v) (c : Command) : v.launchOf c = w.launchOf c := by
  simp only [World.launchOf, h.files, h.directory, h.formats]

theorem Guarded.follows (h : w.Guarded v) : Executor.Follows w v := by
  obtain ⟨n, hn⟩ := h.exhausted
  exact ⟨h.toAlike.launchOf, n, fun m r => by rw [hn]; rfl⟩

theorem Guarded.starts (h : w.Guarded v) (hstarts : v.Starts s l) : w.Starts s l := by
  obtain ⟨path, hpath, starts, d, htries⟩ := hstarts
  have hcommand : Executor.commandOf v s path = Executor.commandOf w s path := by
    simp only [Executor.commandOf, h.environment]
  have hsearch := searchPath_of_environment h.environment
  have hlaunch (c : Command) := h.toAlike.launchOf c
  rw [h.files, h.directory, hsearch] at hpath
  rw [hcommand] at htries
  refine ⟨path, hpath, starts, d, ?_⟩
  cases htries with
  | started hlaunched => exact .started ((hlaunch _).symm.trans hlaunched)
  | startedAgain hrefuses hlaunched =>
      exact .startedAgain (h.follows.refuses hrefuses) ((hlaunch _).symm.trans hlaunched)

theorem Guarded.of_alike (h : w.Guarded v) (hsame : v.Alike u)
    (hexhausted : u.exhausted = v.exhausted) (hchildren : u.children = v.children) :
    w.Guarded u :=
  ⟨h.toAlike.trans hsame, hexhausted ▸ h.exhausted, hchildren ▸ h.children⟩

theorem guarded_asked (h : w.Guarded v) (n : Nat) : w.Guarded (v.asked n) := by
  obtain ⟨m, hm⟩ := h.exhausted
  refine ⟨h.toAlike.trans ⟨rfl, rfl, rfl, rfl, rfl⟩, ⟨m + n, ?_⟩, h.children⟩
  simp only [asked, hm, Refusals.drop, Nat.add_assoc]

theorem stable_guarded (w : World σ) : Stable w.Guarded := by
  intro v i c d q h hc hstep
  obtain ⟨hfiles, hactions⟩ :=
    Child.writesNoFile_step (h.children c (List.mem_of_getElem? hc)) hstep
  refine ⟨⟨hfiles.trans h.files, h.directory, h.environment, h.formats, h.programs⟩,
    h.exhausted, ?_⟩
  intro child hchild
  rcases List.mem_or_eq_of_mem_set hchild with hold | rfl
  · exact h.children child hold
  · exact hactions

theorem guarded_setPipe {pipe : Nat} (v : World σ) (bytes : Bytes) (h : w.Guarded v) :
    w.Guarded (v.setPlumbing (v.plumbing.setPipe pipe bytes)) :=
  h.of_alike ⟨rfl, rfl, rfl, rfl, rfl⟩ rfl rfl

theorem guarded_receive (h : w.Guarded v) (pipe limit : Nat) :
    w.Guarded (v.receive pipe limit).2 :=
  w.stable_guarded.receive guarded_setPipe limit h

theorem guarded_receiveAll (h : w.Guarded v) (pipe : Nat) : w.Guarded (v.receiveAll pipe).2 :=
  w.stable_guarded.receiveAll guarded_setPipe h

theorem guarded_sendFrom (h : w.Guarded v) (pipe count : Nat) (data : Bytes) :
    w.Guarded (v.sendFrom pipe count data).2 :=
  w.stable_guarded.sendFrom guarded_setPipe count data h

theorem guarded_wait (h : w.Guarded v) (child : Nat) : w.Guarded (v.wait child).2 :=
  w.stable_guarded.wait (fun _ _ h => h.of_alike ⟨rfl, rfl, rfl, rfl, rfl⟩ rfl rfl) child h

theorem guarded_close (h : w.Guarded v) (e : PipeEnd) : w.Guarded (v.close e) :=
  h.of_alike ⟨rfl, rfl, rfl, rfl, rfl⟩ rfl rfl

theorem guarded_closeAll (h : w.Guarded v) (ends : List PipeEnd) : w.Guarded (v.closeAll ends) := by
  rw [closeAll_eq]
  exact h.of_alike ⟨rfl, rfl, rfl, rfl, rfl⟩ rfl rfl

theorem guarded_report (h : w.Guarded v) (e : ExecError) : w.Guarded (v.report e) :=
  h.of_alike ⟨rfl, rfl, rfl, rfl, rfl⟩ rfl rfl

end World

namespace Executor

open World

variable {w : World σ} {s : Spec}

theorem keeps_raise (e : ExecError) : (raise e : Act (World σ) ExecError α).Keeps w.Guarded := by
  intro v h
  rw [start_raise]
  exact guarded_report h e

theorem keeps_openPipe : (openPipe : Act (World σ) ExecError Nat).Keeps w.Guarded := by
  intro v h
  have hasked := guarded_asked h 1
  rcases start_openPipe_cases v with ⟨e, -, hopen⟩ | ⟨-, hopen⟩ <;> rw [hopen]
  · exact guarded_report hasked _
  · exact hasked.of_alike ⟨rfl, rfl, rfl, rfl, rfl⟩ rfl rfl

theorem keeps_closeEnd (pipe : Nat) (side : Side) :
    (closeEnd pipe side : Act (World σ) ExecError Unit).Keeps w.Guarded :=
  Act.keeps_change fun _ h => guarded_close h _

theorem keeps_spawn (hs : w.Harmless s) :
    (spawn s : Act (World σ) ExecError Handle).Keeps w.Guarded := by
  intro v h
  rcases hpath : Lookup.find? v.plumbing.files v.directory v.searchPath s.program with _ | path
  · rw [start_spawn_of_missing hpath]
    exact guarded_closeAll (guarded_report h _) _
  obtain ⟨n, starts, answer, htries, hstart⟩ := start_spawn_of_find hpath
  have hprepared : w.Guarded (v.prepared n [s.streams.label] starts) :=
    (guarded_asked h n).of_alike ⟨rfl, rfl, rfl, rfl, rfl⟩ rfl rfl
  rw [hstart]
  rcases answer with e | ⟨d, l⟩
  · exact guarded_closeAll (guarded_report hprepared e) s.ends
  · apply guarded_closeAll
    refine ⟨hprepared.toAlike.trans ⟨rfl, rfl, rfl, rfl, rfl⟩, hprepared.exhausted, ?_⟩
    intro c hc
    rcases List.mem_append.mp hc with hold | hnew
    · exact h.children c hold
    · obtain rfl := List.mem_singleton.mp hnew
      change WritesNoFile (v.programs l v.state).1.actions
      rw [h.programs]
      exact hs l v.state (h.starts ⟨path, hpath, starts, d, htries⟩)

theorem keeps_reap (handle : Handle) (brokenPipeExpected : Bool) :
    (reap handle brokenPipeExpected : Act (World σ) ExecError Nat).Keeps w.Guarded := by
  apply (Act.keeps_does fun v h => guarded_wait h handle.child).bind
  intro result
  cases result with
  | error source => exact keeps_raise _
  | ok exit =>
      simp only
      split
      · refine (Act.keeps_change fun v h => ?_).bind fun _ => Act.keeps_pure _
        exact h.of_alike ⟨rfl, rfl, rfl, rfl, rfl⟩ rfl rfl
      · exact Act.keeps_pure _

theorem keeps_drop (handle : Handle) :
    (drop handle : Act (World σ) ExecError Unit).Keeps w.Guarded :=
  Act.keeps_change fun _ h => guarded_wait h handle.child

theorem keeps_refuse (s : Spec) (operation : Operation) (stream : Stream) :
    (refuse s operation stream : Act (World σ) ExecError α).Keeps w.Guarded :=
  (keeps_raise _).andThen fun _ h => guarded_closeAll h _

theorem keeps_run (hs : w.Harmless s) : (run s : Act (World σ) ExecError Nat).Keeps w.Guarded := by
  unfold run runBy
  split
  · exact keeps_refuse s _ _
  · exact (keeps_spawn hs).bind fun handle => keeps_reap handle false

theorem keeps_capture (hs : ∀ d, w.Harmless (s.connect .stdout d)) :
    (capture s : Act (World σ) ExecError Captured).Keeps w.Guarded := by
  unfold capture captureBy
  split
  · exact keeps_refuse s _ _
  · apply keeps_openPipe.bind
    intro pipe
    apply ((keeps_spawn (hs _)).onFailure fun v h => guarded_close h _).bind
    intro handle
    apply (Act.keeps_does fun v h => guarded_receiveAll h pipe).bind
    intro output
    apply (keeps_closeEnd pipe .reading).bind
    intro _
    apply (keeps_reap handle false).bind
    intro code
    split
    · exact Act.keeps_pure _
    · exact keeps_raise _

end Executor

end ChatSpace.Processes
