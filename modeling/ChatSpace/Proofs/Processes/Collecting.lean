import ChatSpace.Proofs.Processes.Course
import ChatSpace.Proofs.Processes.Moves

namespace ChatSpace.Processes

variable {σ : Type}

namespace Executor

inductive Finishes (s : Spec) (w : World σ) : Except (Stop ExecError) Nat → World σ → Prop
  | unstarted {stop v} : (spawn s).start w = (.error stop, v) → Finishes s w (.error stop) v
  | finished {h u code v} : (spawn s).start w = (.ok h, u) → (finish h).start u = (.ok code, v) →
      Finishes s w (.ok code) v

inductive Collects (s : Spec) (w : World σ) : Except (Stop ExecError) Captured → World σ → Prop
  | unstarted {pipe u stop v} : openPipe.start w = (.ok pipe, u) →
      (spawn (s.connect .stdout (.provisioned ⟨pipe, .writing⟩))).start u = (.error stop, v) →
      Collects s w (.error stop) (v.close ⟨pipe, .reading⟩)
  | collected {pipe u h v bytes code w'} : openPipe.start w = (.ok pipe, u) →
      (spawn (s.connect .stdout (.provisioned ⟨pipe, .writing⟩))).start u = (.ok h, v) →
      (v.receiveAll pipe).1 = .ok bytes →
      (finish h).start ((v.receiveAll pipe).2.close ⟨pipe, .reading⟩) = (.ok code, w') →
      Collects s w (.ok ⟨code, bytes⟩) w'

end Executor

namespace World

variable {w v : World σ} {s : Spec} {h : Handle}

theorem ended_of_room (hrest : w.AtRest) {c : Child} (hc : c ∈ w.children)
    (hends : ∀ e ∈ c.streams.ends, e.side = .writing ∧ w.content? e.pipe = some []) :
    c.ended.isSome := by
  rcases hrest.ended_or_waits hc with hended | hwaits
  · exact hended
  · cases hwaits with
    | room hsink _ hpipe hfull =>
        have hempty := (hends _ (Child.writing_mem_of_sink hsink)).2
        cases Option.some.inj (hpipe.symm.trans hempty)
        exact absurd hfull (by decide)
    | bytes hsupply _ _ => exact nomatch (hends _ (Child.reading_mem_of_supply hsupply)).1

theorem exists_child {t : Streams} {i : Nat} (h : w.wiring[i]? = some t) :
    ∃ c, w.children[i]? = some c ∧ c.streams = t := by
  simpa [wiring] using h

theorem child_settle {c : Child} {exit : Exit} {i : Nat} (hc : w.children[i]? = some c)
    (hended : c.ended = some exit) : w.settle.children[i]? = some c := by
  have hstable : Stable fun v : World σ => v.children[i]? = some c := by
    intro v j c' d q hc hc' hstep
    have hother : j ≠ i := by
      rintro rfl
      obtain rfl := Option.some.inj (hc.symm.trans hc')
      cases hended.symm.trans (Child.steps_of_step hstep).1
    exact (List.getElem?_set_ne hother).trans hc
  exact hstable.settle hc

theorem exit?_settle {exit : Exit} (hexit : w.exit? h = some exit) :
    w.settle.exit? h = some exit := by
  obtain ⟨c, hc, hended⟩ := Option.bind_eq_some_iff.mp hexit
  exact Option.bind_eq_some_iff.mpr ⟨c, child_settle hc hended, hended⟩

theorem exists_finish {exit : Exit} (hexit : w.settle.exit? h = some exit) :
    ∃ v, (Executor.finish h).start w = (.ok exit.status, v) :=
  ⟨_, Executor.start_reap hexit false⟩

theorem exit?_of_spawned (hspawn : Executor.Spawned s w h v)
    {u : World σ} (hwiring : u.wiring = v.wiring) (hrest : u.AtRest)
    (hends : ∀ e ∈ s.ends, e.side = .writing ∧ u.content? e.pipe = some []) :
    ∃ exit, u.exit? h = some exit := by
  have hlast : u.wiring[h.child]? = some s.streams := by
    rw [hwiring, hspawn.wiring, hspawn.handle]
    exact List.getElem?_concat_length
  obtain ⟨c, hc, hstreams⟩ := exists_child hlast
  have hended := ended_of_room hrest (List.mem_of_getElem? hc) (hstreams ▸ hends)
  obtain ⟨exit, hexit⟩ := Option.isSome_iff_exists.mp hended
  exact ⟨exit, by simp [exit?, hc, hexit]⟩

theorem finishes_iff (hnone : s.provisioned? = none) {result : Except (Stop ExecError) Nat} :
    Executor.Finishes s w result v ↔ (Executor.run s).start w = (result, v) := by
  have hrun : Executor.run s =
      (Executor.spawn s >>= Executor.finish : Act (World σ) ExecError Nat) := by
    rw [Executor.run, Executor.runBy, hnone]
  have hends : s.ends = [] := Streams.provisioned?_eq_none_iff.mp hnone
  rw [hrun]
  constructor
  · intro hsteps
    cases hsteps with
    | unstarted hspawn => exact Act.start_bind_of_error hspawn
    | finished hspawn hfinish => rw [Act.start_bind_of_ok hspawn, hfinish]
  · intro hstart
    rcases hspawn : (Executor.spawn s).start w with ⟨stop | h, u⟩
    · rw [Act.start_bind_of_error hspawn] at hstart
      cases hstart
      exact .unstarted hspawn
    · obtain ⟨exit, hexit⟩ := exit?_of_spawned (Executor.spawned_of_ok hspawn) (wiring_settle u)
        (atRest_settle u) (by simp [hends])
      obtain ⟨u', hfinish⟩ := exists_finish hexit
      rw [Act.start_bind_of_ok hspawn, hfinish] at hstart
      cases hstart
      exact .finished hspawn hfinish

def piped (s : Spec) (w : World σ) : Spec :=
  s.connect .stdout (.provisioned ⟨w.plumbing.pipes.length, .writing⟩)

theorem start_openPipe (hfree : w.exhausted.answer 0 .pipe = none) :
    (Executor.openPipe : Act (World σ) ExecError Nat).start w =
      (.ok w.plumbing.pipes.length, w.withPipe) := by
  rcases Executor.start_openPipe_cases w with ⟨e, hrefused, -⟩ | ⟨-, hopen⟩
  · cases hfree.symm.trans hrefused
  · exact hopen

theorem collected_of_spawned (htidy : w.Tidy) (hnone : s.provisioned? = none) {u : World σ}
    (hspawn : (Executor.spawn (piped s w)).start w.withPipe = (.ok h, u)) :
    let pipe := w.plumbing.pipes.length
    (∃ bytes, (u.receiveAll pipe).1 = .ok bytes) ∧
      ∃ exit, (u.receiveAll pipe).2.exit? h = some exit := by
  intro pipe
  have hends : (piped s w).ends = [⟨pipe, .writing⟩] := ends_connect hnone _ _
  have hspawned := Executor.spawned_of_ok hspawn
  have hopened : pipe < u.plumbing.pipes.length := by
    have htidy' := (advances_withPipe w htidy).1
    have hgiven : ∀ e ∈ (piped s w).ends, e ∈ w.withPipe.held := by
      simp [hends, withPipe, pipe]
    have hpasses := (advances_spawn w.withPipe (piped s w) hgiven htidy').2
    rw [hspawn] at hpasses
    exact Nat.lt_of_lt_of_le (by simp [withPipe, pipe]) hpasses.length
  have huse := uses_receiveAll u pipe
  obtain ⟨hempty, hrest, hend⟩ := receiveAll_end hopened
  obtain ⟨exit, hexit⟩ :=
    exit?_of_spawned hspawned huse.wiring hrest (by simp [hends, hempty])
  refine ⟨?_, exit, hexit⟩
  have hgone : ⟨pipe, .writing⟩ ∉ (u.receiveAll pipe).2.ends := by
    intro hwriter
    have hcopies : (u.receiveAll pipe).2.copies = [] := by
      rw [huse.copies, hspawned.copies]
      exact htidy.copies
    rcases (mem_ends_iff hcopies).mp hwriter with hheld | ⟨c, hc, hrunning, hend⟩
    · rw [huse.held, hspawned.held, hends] at hheld
      simp at hheld
    · obtain ⟨i, hi⟩ := List.mem_iff_getElem?.mp hc
      have hwired : u.wiring[i]? = some c.streams := by
        rw [← huse.wiring]
        simp [wiring, hi]
      rw [hspawned.wiring, wiring_withPipe, List.getElem?_append] at hwired
      split at hwired
      · exact absurd (htidy.wired _ (List.mem_of_getElem? hwired) _ hend) (Nat.lt_irrefl _)
      · next hlast =>
        have hlt := (List.getElem?_eq_some_iff.mp hwired).1
        have hchild : h.child = i := by
          rw [hspawned.handle, wiring_withPipe]
          simp only [List.length_singleton] at hlt
          exact (show w.wiring.length = i by omega)
        simp [exit?, hchild, hi, hrunning] at hexit
  rwa [if_neg hgone] at hend

theorem start_capture (hnone : s.provisioned? = none) {result : Except (Stop ExecError) Captured}
    (h : Executor.Collects s w result v) : (Executor.capture s).start w = (result, v) := by
  rw [Executor.capture, Executor.captureBy, hnone]
  cases h with
  | unstarted hopen hspawn =>
      rw [Act.start_bind_of_ok hopen, Act.start_bind_of_error (Act.start_onFailure_of_error hspawn)]
  | @collected pipe u h v bytes code w' hopen hspawn hread hfinish =>
      have hclose : (Executor.closeEnd pipe .reading).start (v.receiveAll pipe).2 =
          (.ok (), (v.receiveAll pipe).2.close ⟨pipe, .reading⟩) := rfl
      rw [Act.start_bind_of_ok hopen, Act.start_bind_of_ok (Act.start_onFailure_of_ok hspawn),
        Act.start_bind_does, hread, Act.start_bind_of_ok hclose, Act.start_bind_of_ok hfinish]
      rfl

theorem exists_collects (htidy : w.Tidy) (hfree : w.exhausted.answer 0 .pipe = none)
    (hnone : s.provisioned? = none) : ∃ result v, Executor.Collects s w result v := by
  have hopen := start_openPipe hfree
  rcases hspawn : (Executor.spawn (piped s w)).start w.withPipe with ⟨stop | h, u⟩
  · exact ⟨_, _, .unstarted hopen hspawn⟩
  · obtain ⟨⟨bytes, hread⟩, exit, hexit⟩ := collected_of_spawned htidy hnone hspawn
    obtain ⟨v, hfinish⟩ := exists_finish (exit?_settle (w := World.close _ _) hexit)
    exact ⟨_, _, .collected hopen hspawn hread hfinish⟩

theorem collects_iff (htidy : w.Tidy) (hfree : w.exhausted.answer 0 .pipe = none)
    (hnone : s.provisioned? = none) {result : Except (Stop ExecError) Captured} :
    Executor.Collects s w result v ↔ (Executor.capture s).start w = (result, v) := by
  constructor
  · exact start_capture hnone
  · intro hstart
    obtain ⟨_, _, hsteps⟩ := exists_collects htidy hfree hnone
    cases (start_capture hnone hsteps).symm.trans hstart
    exact hsteps

theorem capture_connect (hnone : s.provisioned? = none) {d : Disposition} (hd : d.pipeEnd? = none) :
    (Executor.capture (s.connect .stdout d) : Act (World σ) ExecError Captured) =
      Executor.capture s := by
  have hends : (s.connect .stdout d).provisioned? = none := by
    apply Streams.provisioned?_eq_none_iff.mpr
    exact (ends_connect hnone .stdout d).trans (by rw [hd]; rfl)
  rw [Executor.capture, Executor.capture, Executor.captureBy, Executor.captureBy, hends, hnone]
  rfl

theorem goes_close (w : World σ) (e : PipeEnd) : Goes w (w.close e) :=
  .of_parent rfl (List.prefix_refl _)

theorem goes_of_finish {pipe code : Nat}
    (hfinish : (Executor.finish h).start ((w.receiveAll pipe).2.close ⟨pipe, .reading⟩) =
      (.ok code, v)) : Goes w v := by
  have hread := (goes_receiveAll w pipe).trans (goes_close _ ⟨pipe, .reading⟩)
  have hlast := Executor.goes_reap h false ((w.receiveAll pipe).2.close ⟨pipe, .reading⟩)
  rw [show Executor.reap h false = Executor.finish h from rfl, hfinish] at hlast
  exact hread.trans hlast

theorem goes_of_collects {result : Except (Stop ExecError) Captured}
    (h : Executor.Collects s w result v) : Goes w v := by
  have hpipe : Goes w w.withPipe := .of_parent rfl (List.prefix_refl _)
  have hspawn := hpipe.trans (Executor.goes_spawn (piped s w) w.withPipe)
  cases h with
  | @unstarted pipe u stop v hopen hstart =>
      obtain ⟨rfl, rfl⟩ := Executor.openPipe_eq_ok hopen
      rw [piped, hstart] at hspawn
      exact hspawn.trans (goes_close v _)
  | collected hopen hstart _ hfinish =>
      obtain ⟨rfl, rfl⟩ := Executor.openPipe_eq_ok hopen
      rw [piped, hstart] at hspawn
      exact hspawn.trans (goes_of_finish hfinish)

theorem stdout_of_collects {result : Except (Stop ExecError) Captured}
    (h : Executor.Collects s w result v) {t : Streams}
    (ht : v.wiring[w.children.length]? = some t) : t.stdout ≠ .inherited := by
  have hlength : w.wiring.length = w.children.length := List.length_map _
  cases h with
  | @unstarted pipe u stop v hopen hstart =>
      obtain ⟨rfl, rfl⟩ := Executor.openPipe_eq_ok hopen
      have hwiring : (v.close ⟨w.plumbing.pipes.length, .reading⟩).wiring = w.wiring :=
        (Executor.unspawned_of_error hstart).wiring
      rw [hwiring, List.getElem?_eq_none hlength.le] at ht
      cases ht
  | collected hopen hstart _ hfinish =>
      obtain ⟨rfl, rfl⟩ := Executor.openPipe_eq_ok hopen
      obtain ⟨late, hlate⟩ := (goes_of_finish hfinish).wiring
      rw [← hlate, (Executor.spawned_of_ok hstart).wiring, wiring_withPipe, ← hlength,
        List.append_assoc, List.getElem?_append_right (Nat.le_refl _), Nat.sub_self] at ht
      cases ht
      exact nofun

theorem run_collects (hw : w.Reached) (hfree : w.exhausted.answer 0 .pipe = none)
    (hnone : s.provisioned? = none) :
    (∀ result v, Executor.Finishes s w result v ↔ (Executor.run s).start w = (result, v)) ∧
    (∀ result v, Executor.Collects s w result v ↔ (Executor.capture s).start w = (result, v)) ∧
    (∀ d : Disposition, d.pipeEnd? = none →
      (Executor.capture (s.connect .stdout d)).start w = (Executor.capture s).start w) ∧
    ∃ said, Course w said ((Executor.capture s).start w).2 ∧
      ((Executor.capture s).start w).2.plumbing.output =
        w.plumbing.output ++ said.flatMap Prod.snd ∧
      ∀ bytes, (w.children.length, bytes) ∈ said → bytes = [] := by
  refine ⟨fun _ _ => finishes_iff hnone, fun _ _ => collects_iff hw.tidy hfree hnone,
    fun d hd => by rw [capture_connect hnone hd], ?_⟩
  have hsteps : Executor.Collects s w ((Executor.capture s).start w).1
      ((Executor.capture s).start w).2 := (collects_iff hw.tidy hfree hnone).mpr rfl
  obtain ⟨said, hcourse⟩ := goes_of_collects hsteps
  refine ⟨said, hcourse, hcourse.output, fun bytes hmem => ?_⟩
  obtain ⟨t, ht, hquiet⟩ := hcourse.quiet _ _ hmem
  exact hquiet (stdout_of_collects hsteps ht)

def killedWorld : World Unit :=
  { state := ()
    programs := fun _ s => (⟨[.write .stdout (Utf8.encode "hi")], .signal 9, .signal 13⟩, s)
    plumbing := { files := .ofList [([Utf8.encode "tool"], .file 0o755 Image.nativeMark)] } }

def killedSpec : Spec :=
  .ofProgram (.named (Utf8.encode "/tool"))

def killedCommand : Command :=
  Executor.commandOf killedWorld (killedSpec.connect .stdout (.provisioned ⟨0, .writing⟩))
    (Utf8.encode "/tool")

def killedChild : Child :=
  { streams := { stdout := .provisioned ⟨0, .writing⟩ }
    directory := []
    actions := [.write .stdout (Utf8.encode "hi")]
    exit := .signal 9
    broken := .signal 13 }

def killedStart : World Unit :=
  { killedWorld with
    plumbing := { killedWorld.plumbing with pipes := [[]] }
    held := [⟨0, .reading⟩]
    children := [killedChild]
    journal :=
      { labels := [killedChild.streams.label]
        starts := [⟨killedCommand, none⟩] } }

def killedEnd : World Unit :=
  { killedStart with
    plumbing := { killedWorld.plumbing with pipes := [Utf8.encode "hi"] }
    children := [
      { killedChild with
        actions := []
        said := Utf8.encode "hi"
        ended := some (.signal 9) }] }

theorem resolve_killed (here : Files.Location) :
    killedWorld.plumbing.files.resolve here (Utf8.encode "/tool") =
      .ok ([Utf8.encode "tool"], .file 0o755 Image.nativeMark) :=
  Files.Tree.resolve_of_descend here (by decide) rfl (by simp)

theorem spawn_killed :
    (Executor.spawn (piped killedSpec killedWorld)).start killedWorld.withPipe =
      (.ok ⟨0, "/tool"⟩, killedStart) := by
  have hpath : Lookup.find? killedWorld.withPipe.plumbing.files killedWorld.withPipe.directory
      killedWorld.withPipe.searchPath (piped killedSpec killedWorld).program =
        some (Utf8.encode "/tool") := by
    decide
  exact (Executor.spawn_of_native rfl hpath (by decide) (by decide)
    (by decide) rfl (resolve_killed []) rfl rfl).trans rfl

theorem settle_killedStart : killedStart.settle = killedEnd := by
  have hrest : killedEnd.AtRest := (rfl : stepFirst _ _ _ = none)
  rw [settle_of_stepFirst rfl, settle_of_stepFirst rfl]
  exact settle_of_atRest hrest

theorem receiveAll_killedStart :
    killedStart.receiveAll 0 = (.ok (Utf8.encode "hi"), killedEnd.refill 0 []) :=
  receiveAll_of_settled rfl settle_killedStart rfl (by decide) (rfl : stepFirst _ _ _ = none)
    (by decide)

theorem run_collects_killed :
    killedWorld.Reached ∧ killedWorld.exhausted.answer 0 .pipe = none ∧
      killedSpec.provisioned? = none ∧
      let result := (Executor.capture killedSpec).start killedWorld
      result.1 = .ok ⟨137, Utf8.encode "hi"⟩ ∧
        result.2.journal.warnings = ["child died of SIGKILL"] ∧
        ∃ said, Course killedWorld said result.2 ∧ ∀ bytes, (0, bytes) ∈ said → bytes = [] := by
  have hreached : killedWorld.Reached := ⟨killedWorld, ⟨rfl, rfl, rfl⟩, .refl⟩
  obtain ⟨-, hcollects, -, said, hcourse, -, hquiet⟩ :=
    run_collects hreached rfl (s := killedSpec) rfl
  refine ⟨hreached, rfl, rfl, ?_⟩
  have hread := receiveAll_killedStart
  obtain ⟨v, hfinish, hwarned⟩ : ∃ v, (Executor.finish ⟨0, "/tool"⟩).start
      ((killedStart.receiveAll 0).2.close ⟨0, .reading⟩) = (.ok 137, v) ∧
        v.journal.warnings = ["child died of SIGKILL"] := by
    rw [hread]
    have hrest : ((killedEnd.refill 0 []).close ⟨0, .reading⟩).AtRest :=
      (rfl : stepFirst _ _ _ = none)
    have hexit : ((killedEnd.refill 0 []).close ⟨0, .reading⟩).settle.exit? ⟨0, "/tool"⟩ =
        some (.signal 9) := by
      rw [settle_of_atRest hrest]
      rfl
    exact ⟨_, Executor.start_reap hexit false, rfl⟩
  have hsteps := (hcollects _ _).mp (.collected rfl spawn_killed (congrArg Prod.fst hread) hfinish)
  rw [hsteps] at hcourse ⊢
  exact ⟨rfl, hwarned, said, hcourse, hquiet⟩

end World

end ChatSpace.Processes
