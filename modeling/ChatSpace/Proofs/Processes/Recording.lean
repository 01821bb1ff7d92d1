import ChatSpace.Proofs.Processes.Collecting
import ChatSpace.Proofs.Processes.Speaking

namespace ChatSpace.Processes

variable {σ τ : Type}

def recording (machine : Launch → τ → Behaviour × τ) (l : Launch) (state : List Launch × τ) :
    Behaviour × (List Launch × τ) :=
  match machine l state.2 with
  | (behaviour, after) => (behaviour, state.1 ++ [l], after)

inductive Command.Conveys (path : Bytes) (args given : List Bytes) : Prop
  | direct : given = args → Conveys path args given
  | interpreter {lead : List Bytes} {script : Bytes} :
      given = lead ++ script :: args → Conveys path args given
  | shell {lead : List Bytes} {line : String} :
      given = lead ++ [Utf8.encode "-c", Utf8.encode line] →
      Command.Says line ((path :: args).map Utf8.lossy) → Conveys path args given

def Command.Trails (args given : List Bytes) : Prop :=
  given = args ∨ ∃ lead script, given = lead ++ script :: args

namespace Command

variable {formats : Bytes → Image} {t : Files.Tree} {here : Files.Location} {c : Command}
  {path image : Bytes} {args given : List Bytes}

theorem Trails.of_cons {lead : List Bytes} {script : Bytes}
    (h : Trails (lead ++ script :: args) given) : Trails args given := by
  rcases h with rfl | ⟨lead', script', rfl⟩
  · exact .inr ⟨lead, script, rfl⟩
  · exact .inr ⟨lead' ++ script' :: lead, script, by simp⟩

theorem trails_of_interpret {depth : Nat}
    (h : interpret formats t here depth path args = .ok (image, given)) : Trails args given := by
  induction depth generalizing path args with
  | zero => cases hfile : runnableContent t here path <;> rw [interpret, hfile] at h <;> cases h
  | succ depth ih =>
      cases hfile : runnableContent t here path with
      | error e => simp [interpret, hfile, bind, Except.bind] at h
      | ok content =>
          simp only [interpret, hfile, bind, Except.bind] at h
          split at h
          · cases h
            exact .inl rfl
          · cases h
          · exact .of_cons (ih h)

theorem trails_of_loadFile (h : loadFile formats t here c path args = .ok (image, given)) :
    Trails args given := by
  simp only [loadFile, bind, Except.bind] at h
  split at h
  · cases h
  · split at h
    · cases h
    · exact trails_of_interpret h

theorem trails_of_loadFound (h : loadFound formats t here c path = .ok (image, given)) :
    Trails c.args given := by
  unfold loadFound at h
  split at h
  · have hshell : Trails ([] ++ path :: c.args) given := trails_of_loadFile h
    exact hshell.of_cons
  · exact trails_of_loadFile h

theorem trails_of_loadFirst {last : SystemError} {paths : List Bytes}
    (h : loadFirst formats t here c last paths = .ok (image, given)) : Trails c.args given := by
  induction paths generalizing last with
  | nil => cases h
  | cons path rest ih =>
      unfold loadFirst at h
      split at h
      · next hfound =>
        cases h
        exact trails_of_loadFound hfound
      · split at h
        · exact ih h
        · cases h

theorem trails_of_load (h : c.load formats t here = .ok (image, given)) : Trails c.args given := by
  unfold load at h
  split at h
  · exact trails_of_loadFile h
  · exact trails_of_loadFirst h

end Command

namespace World

variable {w w' : World σ} {c d : Command} {l : Launch}

theorem trails_of_launchOf (h : w.launchOf c = .ok l) : Command.Trails c.args l.args :=
  Command.trails_of_load (launchOf_eq_ok h).2.1

def Finished (w : World σ) (child : Nat) (said : Bytes) (exit : Exit) : Prop :=
  ∃ c, w.children[child]? = some c ∧ c.said = said ∧ c.ended = some exit

theorem exists_finished {h : Handle} {exit : Exit} (hexit : w.exit? h = some exit) :
    ∃ said, w.said? h = some said ∧ w.Finished h.child said exit := by
  obtain ⟨c, hc, hended⟩ := Option.bind_eq_some_iff.mp hexit
  exact ⟨c.said, by rw [said?, hc, Option.map_some], c, hc, rfl, hended⟩

theorem Finished.settle {child : Nat} {said : Bytes} {exit : Exit}
    (h : w.Finished child said exit) : w.settle.Finished child said exit := by
  obtain ⟨c, hc, hsaid, hended⟩ := h
  exact ⟨c, child_settle hc hended, hsaid, hended⟩

structure Steady (w w' : World σ) : Prop where
  state : w'.state = w.state
  programs : w'.programs = w.programs

theorem Steady.refl (w : World σ) : Steady w w :=
  ⟨rfl, rfl⟩

theorem Steady.trans {u v w : World σ} (h : Steady u v) (h' : Steady v w) : Steady u w where
  state := h'.state.trans h.state
  programs := h'.programs.trans h.programs

theorem stable_steady (w : World σ) : Stable (Steady w) :=
  fun _ _ _ _ _ h _ _ => ⟨h.state, h.programs⟩

theorem steady_receiveAll (w : World σ) (pipe : Nat) : Steady w (w.receiveAll pipe).2 :=
  (stable_steady w).receiveAll (fun _ _ h => ⟨h.state, h.programs⟩) (.refl w)

theorem steady_wait (w : World σ) (child : Nat) : Steady w (w.wait child).2 :=
  (stable_steady w).wait (fun _ _ h => ⟨h.state, h.programs⟩) child (.refl w)

end World

namespace Executor

open World

variable {w v : World σ} {s : Spec} {h : Handle}

theorem steady_finish {code : Nat} (hfinish : (finish h).start w = (.ok code, v)) :
    Steady w v := by
  rw [finish, reap, Act.start_bind_does] at hfinish
  have hwait := steady_wait w h.child
  rcases hanswer : (w.wait h.child).1 with source | exit <;> rw [hanswer] at hfinish
  · rw [start_raise] at hfinish
    cases hfinish
  · rcases hwarning : exit.warning? false with _ | text <;>
      simp only [hwarning] at hfinish <;> cases hfinish <;>
      exact ⟨hwait.state, hwait.programs⟩

theorem Tries.conveys {c d : Command} {l : Launch} {starts : List Attempt}
    (h : Tries w s c starts (.ok (d, l))) : Command.Conveys c.path c.args l.args := by
  cases h with
  | started hlaunch =>
      rcases trails_of_launchOf hlaunch with hargs | ⟨lead, script, hargs⟩
      · exact .direct hargs
      · exact .interpreter hargs
  | startedAgain _ hlaunch =>
      have hsays : Command.Says (ShellWord.line ((c.path :: c.args).map Utf8.lossy))
          ((c.path :: c.args).map Utf8.lossy) := Command.says_line _
      rcases trails_of_launchOf hlaunch with hargs | ⟨lead, script, hargs⟩
      · exact .shell (hargs.trans (List.nil_append _).symm) hsays
      · exact .shell (hargs.trans (List.append_cons _ _ _)) hsays

structure Launches (s : Spec) (w : World σ) (l : Launch) (v : World σ) : Prop where
  command : ∃ path, Lookup.find? w.plumbing.files w.directory w.searchPath s.program = some path ∧
    ∃ starts d, Tries w s (commandOf w s path) starts (.ok (d, l))
  state : v.state = (w.programs l w.state).2
  programs : v.programs = w.programs

theorem Launches.steady {l : Launch} {u : World σ} (h : Launches s w l u) (h' : Steady u v) :
    Launches s w l v where
  command := h.command
  state := h'.state.trans h.state
  programs := h'.programs.trans h.programs

theorem exists_launches (hspawn : (spawn s).start w = (.ok h, v)) : ∃ l, Launches s w l v := by
  obtain ⟨path, n, starts, d, l, hpath, htries, rfl⟩ := spawn_eq_ok hspawn
  rw [closeAll_eq]
  exact ⟨l, ⟨path, hpath, starts, d, htries⟩, rfl, rfl⟩

theorem Launches.conveys {l : Launch} (hlaunches : Launches s w l v) :
    ∃ path, Lookup.find? w.plumbing.files w.directory w.searchPath s.program = some path ∧
      Command.Conveys path s.args l.args := by
  obtain ⟨path, hpath, starts, d, htries⟩ := hlaunches.command
  exact ⟨path, hpath, htries.conveys⟩

theorem finish_eq_ok {code : Nat} (hfinish : (finish h).start w = (.ok code, v)) :
    ∃ exit, code = exit.status ∧ w.settle.exit? h = some exit ∧
      v.children = w.settle.children := by
  rcases hexit : w.settle.exit? h with _ | exit
  · have hwait : (w.wait h.child).1 = .error .deadlock := by
      rw [exit?] at hexit
      simp [wait, hexit]
    rw [finish, reap, Act.start_bind_does, hwait] at hfinish
    rw [start_raise] at hfinish
    cases hfinish
  · cases (start_reap hexit false).symm.trans hfinish
    exact ⟨exit, rfl, rfl, rfl⟩

theorem exists_run (hnone : s.provisioned? = none)
    (hspawn : ∃ h u, (spawn s).start w = (.ok h, u)) :
    ∃ exit said v l, (run s).start w = (.ok exit.status, v) ∧
      v.Finished w.children.length said exit ∧ Launches s w l v := by
  obtain ⟨h, u, hspawn⟩ := hspawn
  rcases hrun : (run s).start w with ⟨result, v⟩
  cases (finishes_iff hnone).mpr hrun with
  | unstarted hstart => cases hstart.symm.trans hspawn
  | finished hstart hfinish =>
      obtain ⟨l, hlaunches⟩ := exists_launches hstart
      obtain ⟨exit, rfl, hexit, hchildren⟩ := finish_eq_ok hfinish
      obtain ⟨said, -, hfinished⟩ := exists_finished hexit
      refine ⟨exit, said, v, l, rfl, ?_, hlaunches.steady (steady_finish hfinish)⟩
      rwa [(spawned_of_ok hstart).child, Finished, ← hchildren] at hfinished

theorem exists_capture (htidy : w.Tidy) (hfree : w.exhausted.answer 0 .pipe = none)
    (hnone : s.provisioned? = none)
    (hspawn : ∃ h u, (spawn (piped s w)).start w.withPipe = (.ok h, u)) :
    ∃ exit said v l, (capture s).start w = (.ok ⟨exit.status, said⟩, v) ∧
      v.Finished w.children.length said exit ∧ Launches (piped s w) w.withPipe l v := by
  obtain ⟨h, u, hspawn⟩ := hspawn
  rcases hcapture : (capture s).start w with ⟨result, v⟩
  cases (collects_iff htidy hfree hnone).mpr hcapture with
  | unstarted hopen hstart =>
      obtain ⟨rfl, rfl⟩ := openPipe_eq_ok hopen
      cases hstart.symm.trans hspawn
  | @collected pipe _ h u bytes code _ hopen hstart hread hfinish =>
      obtain ⟨rfl, rfl⟩ := openPipe_eq_ok hopen
      obtain ⟨l, hlaunches⟩ := exists_launches hstart
      have hsteady := steady_receiveAll u w.plumbing.pipes.length
      have hclose : Steady u ((u.receiveAll w.plumbing.pipes.length).2.close
          ⟨w.plumbing.pipes.length, .reading⟩) := ⟨hsteady.state, hsteady.programs⟩
      have hsaid := said?_receiveAll u h w.plumbing.pipes.length [] bytes
        (heard_of_spawned htidy hnone hstart) hread
      -- it had ended when everything was read, and then nothing happens to it
      obtain ⟨-, exit, hexit⟩ := collected_of_spawned htidy hnone hstart
      obtain ⟨said, hsame, hfinished⟩ := exists_finished hexit
      obtain rfl : bytes = said := Option.some.inj (hsaid.symm.trans hsame)
      obtain ⟨exit', rfl, hexit', hchildren⟩ := finish_eq_ok hfinish
      obtain rfl := Option.some.inj ((exit?_settle (w := World.close _ _) hexit).symm.trans hexit')
      have hlast : (((u.receiveAll w.plumbing.pipes.length).2.close
          ⟨w.plumbing.pipes.length, .reading⟩).settle).Finished h.child bytes exit :=
        Finished.settle hfinished
      refine ⟨exit, bytes, v, l, rfl, ?_, hlaunches.steady (hclose.trans (steady_finish hfinish))⟩
      rwa [(spawned_of_ok hstart).child, Finished, ← hchildren] at hlast

end Executor

end ChatSpace.Processes
