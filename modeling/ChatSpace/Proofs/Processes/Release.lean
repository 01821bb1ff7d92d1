import ChatSpace.Proofs.Processes.Moves

namespace ChatSpace.Processes

variable {σ ε α β : Type}

namespace World

variable {w w' : World σ} {pipe : Nat} {bytes : Bytes} {way : Way} {s : Spec}

structure Sealed (pipe : Nat) (bytes : Bytes) (w : World σ) : Prop where
  opened : pipe < w.plumbing.pipes.length
  held : ⟨pipe, .writing⟩ ∉ w.held
  wired : ∀ s ∈ w.wiring, ⟨pipe, .writing⟩ ∉ s.ends
  content : ⟨pipe, .reading⟩ ∈ w.held → w.content? pipe = some bytes

theorem Passes.held_of_lt (h : w.Passes w') {e : PipeEnd} (he : e.pipe < w.plumbing.pipes.length)
    (hheld : e ∈ w'.held) : e ∈ w.held :=
  (h.held e hheld).resolve_right (Nat.not_le.mpr he)

theorem Passes.wired_of_lt (h : w.Passes w') {e : PipeEnd} (he : e.pipe < w.plumbing.pipes.length)
    (hheld : e ∉ w.held) {s : Streams} {i : Nat} (hs : w'.wiring[i]? = some s) (hend : e ∈ s.ends) :
    w.wiring[i]? = some s := by
  obtain ⟨late, hwiring, hlate⟩ := h.wiring
  rw [hwiring, List.getElem?_append] at hs
  split at hs
  · exact hs
  · obtain ⟨hfrom, -⟩ := hlate s (List.mem_of_getElem? hs) e hend
    exact absurd hfrom (not_or.mpr ⟨hheld, Nat.not_le.mpr he⟩)

theorem Tidy.unwired (htidy : w.Tidy) (hreader : ⟨pipe, .reading⟩ ∈ w.held)
    (hwired : ∀ s ∈ w.wiring, ⟨pipe, .writing⟩ ∉ s.ends) : Unwired pipe w.wiring := by
  rintro s hs ⟨_, side⟩ he rfl
  cases side with
  | reading => exact htidy.exclusive _ hreader s hs he
  | writing => exact hwired s hs he

theorem Sealed.passes (h : w.Sealed pipe bytes) (htidy' : w'.Tidy) (hpasses : w.Passes w') :
    w'.Sealed pipe bytes := by
  have hwired : ∀ s ∈ w'.wiring, ⟨pipe, .writing⟩ ∉ s.ends := by
    intro s hs he
    obtain ⟨i, hi⟩ := List.mem_iff_getElem?.mp hs
    exact h.wired s (List.mem_of_getElem? (hpasses.wired_of_lt h.opened h.held hi he)) he
  refine ⟨Nat.lt_of_lt_of_le h.opened hpasses.length,
    fun hback => h.held (hpasses.held_of_lt h.opened hback), hwired, fun hreader => ?_⟩
  rw [hpasses.content pipe h.opened hreader h.held (htidy'.unwired hreader hwired)]
  exact h.content (hpasses.held_of_lt h.opened hreader)

theorem Sealed.not_mem_ends (h : w.Sealed pipe bytes) (htidy : w.Tidy) :
    ⟨pipe, .writing⟩ ∉ w.ends := by
  intro he
  rcases (mem_ends_iff htidy.copies).mp he with hheld | ⟨c, hc, -, he⟩
  · exact h.held hheld
  · exact h.wired _ (List.mem_map_of_mem hc) he

theorem Sealed.receiveAll (h : w.Sealed pipe bytes) (htidy : w.Tidy)
    (hreader : ⟨pipe, .reading⟩ ∈ w.held) : (w.receiveAll pipe).1 = .ok bytes :=
  receiveAll_of_unwritable (h.content hreader) (htidy.unwired hreader h.wired) h.held htidy.copies

theorem receiveAll_eq_ok_iff (htidy : w.Tidy) (hpipe : pipe < w.plumbing.pipes.length) :
    (∃ bytes, (w.receiveAll pipe).1 = .ok bytes) ↔ ⟨pipe, .writing⟩ ∉ w.held ∧
      ∀ c ∈ (w.receiveAll pipe).2.children, ⟨pipe, .writing⟩ ∈ c.streams.ends → c.ended.isSome := by
  have hgone : ⟨pipe, .writing⟩ ∉ (w.receiveAll pipe).2.ends ↔ ⟨pipe, .writing⟩ ∉ w.held ∧
      ∀ c ∈ (w.receiveAll pipe).2.children, ⟨pipe, .writing⟩ ∈ c.streams.ends →
        c.ended.isSome := by
    have huse := uses_receiveAll w pipe
    rw [mem_ends_iff (huse.copies.trans htidy.copies), huse.held]
    simp only [not_or, not_exists, not_and, Option.isSome_iff_ne_none]
    exact and_congr_right fun _ => forall₂_congr fun c _ => imp_not_comm
  rw [← hgone]
  obtain ⟨-, -, hend⟩ := receiveAll_end hpipe
  split at hend
  · next hwriter => simp [hend, hwriter]
  · next hwriter => simp [hend, hwriter]

theorem call_cases (way : Way) (w : World σ) (hs : s.ends ≠ []) :
    (∃ stop w', (Executor.call way s).start w = (.error stop, w') ∧
      w'.wiring = w.wiring ∧ w'.plumbing = w.plumbing) ∨
    ∃ w', (Executor.call way s).start w = (.ok (), w') ∧
      w'.wiring = w.wiring ++ [s.streams] := by
  have hprovisioned : s.provisioned? ≠ none := fun h => hs (Streams.provisioned?_eq_none_iff.mp h)
  obtain ⟨stream, hstream⟩ := Option.ne_none_iff_exists'.mp hprovisioned
  cases way with
  | spawn =>
      obtain ⟨n, labels, starts, ⟨e, hstart⟩ | ⟨c, l, hstreams, hstart⟩⟩ :=
        Executor.start_spawn_cases s w <;> rw [closeAll_eq] at hstart
      · exact .inl ⟨_, _, Act.start_bind_of_error hstart, rfl, rfl⟩
      · refine .inr ⟨_, Act.start_bind_of_ok hstart, ?_⟩
        simp [wiring, addChild, prepared, hstreams]
  | run =>
      have hrefuse : (Executor.run s).start w = _ :=
        (congrArg (·.start w) (Executor.runBy_of_provisioned hstream Executor.spawn)).trans
          (Executor.start_refuse s .run stream w)
      exact .inl ⟨_, _, Act.start_bind_of_error hrefuse, rfl, rfl⟩
  | capture =>
      have hrefuse : (Executor.capture s).start w = _ :=
        (congrArg (·.start w) (Executor.captureBy_of_provisioned hstream Executor.spawn)).trans
          (Executor.start_refuse s .capture stream w)
      exact .inl ⟨_, _, Act.start_bind_of_error hrefuse, rfl, rfl⟩

theorem held_bind {act : Act (World σ) ε α} {next : α → Act (World σ) ε β} {held : List PipeEnd}
    (h : (act.start w).2.held = held)
    (hnext : ∀ a w', w'.held = held → ((next a).start w').2.held = held) :
    ((act >>= next).start w).2.held = held := by
  rcases hstart : act.start w with ⟨e | a, w'⟩ <;> rw [hstart] at h
  · rw [Act.start_bind_of_error hstart]
    exact h
  · rw [Act.start_bind_of_ok hstart]
    exact hnext a w' h

theorem held_raise (e : ExecError) (w : World σ) :
    ((Executor.raise e : Act (World σ) ExecError α).start w).2.held = w.held := by
  rw [Executor.start_raise]
  rfl

theorem held_reap (h : Handle) (brokenPipeExpected : Bool) (w : World σ) :
    ((Executor.reap h brokenPipeExpected).start w).2.held = w.held := by
  have hwait := (uses_wait w h.child).held
  rw [Executor.reap, Act.start_bind_does]
  cases (w.wait h.child).1 with
  | error source => exact (held_raise _ _).trans hwait
  | ok exit =>
      simp only
      split <;> exact hwait

theorem held_spawn (s : Spec) (w : World σ) :
    ((Executor.spawn s).start w).2.held = w.held.filter (· ∉ s.ends) := by
  obtain ⟨n, labels, starts, ⟨e, hstart⟩ | ⟨c, l, -, hstart⟩⟩ := Executor.start_spawn_cases s w <;>
    rw [hstart, closeAll_eq] <;> rfl

theorem held_refuse (s : Spec) (operation : Operation) (stream : Stream) (w : World σ) :
    ((Executor.refuse s operation stream : Act (World σ) ExecError α).start w).2.held =
      w.held.filter (· ∉ s.ends) := by
  rw [Executor.start_refuse]
  rfl

theorem held_run (s : Spec) (w : World σ) :
    ((Executor.run s).start w).2.held = w.held.filter (· ∉ s.ends) := by
  unfold Executor.run Executor.runBy
  split
  · exact held_refuse s _ _ w
  · apply held_bind (held_spawn s w)
    intro h w' hw'
    exact (held_reap h false w').trans hw'

theorem held_capture (hsound : w.Sound) :
    ((Executor.capture s).start w).2.held = w.held.filter (· ∉ s.ends) := by
  unfold Executor.capture Executor.captureBy
  split
  · exact held_refuse s _ _ w
  · next hnone =>
    have hends : s.ends = [] := Streams.provisioned?_eq_none_iff.mp hnone
    have hall : w.held.filter (· ∉ s.ends) = w.held := by simp [hends]
    rw [hall]
    rcases Executor.start_openPipe_cases w with ⟨e, -, hopen⟩ | ⟨-, hopen⟩
    · rw [Act.start_bind_of_error hopen]
      rfl
    rw [Act.start_bind_of_ok hopen]
    have hnew (side : Side) : ∀ e ∈ w.held, e ≠ ⟨w.plumbing.pipes.length, side⟩ := by
      rintro e he rfl
      exact Nat.lt_irrefl _ (hsound.held _ he)
    have hclose {v : World σ} (hv : v.held = ⟨w.plumbing.pipes.length, .reading⟩ :: w.held) :
        (v.close ⟨w.plumbing.pipes.length, .reading⟩).held = w.held := by
      simpa [close, hv] using hnew .reading
    have hspawn : ((Executor.spawn (s.connect .stdout
        (.provisioned ⟨w.plumbing.pipes.length, .writing⟩))).start w.withPipe).2.held =
          ⟨w.plumbing.pipes.length, .reading⟩ :: w.held := by
      rw [held_spawn, ends_connect hnone]
      simpa [withPipe, Disposition.pipeEnd?] using hnew .writing
    rcases hstart : (Executor.spawn (s.connect .stdout
        (.provisioned ⟨w.plumbing.pipes.length, .writing⟩))).start w.withPipe with ⟨e | h, w₂⟩
    · rw [hstart] at hspawn
      rw [Act.start_bind_of_error (Act.start_onFailure_of_error hstart)]
      exact hclose hspawn
    · rw [hstart] at hspawn
      rw [Act.start_bind_of_ok (Act.start_onFailure_of_ok hstart), Act.start_bind_does]
      have hread := (uses_receiveAll w₂ w.plumbing.pipes.length).held.trans hspawn
      have hend : ((Executor.closeEnd w.plumbing.pipes.length .reading).start
          (w₂.receiveAll w.plumbing.pipes.length).2).2.held = w.held := hclose hread
      apply held_bind hend
      intro _ w₃ hw₃
      apply held_bind ((held_reap h false w₃).trans hw₃)
      intro code w₄ hw₄
      cases (w₂.receiveAll w.plumbing.pipes.length).1 with
      | ok stdout => exact hw₄
      | error source => exact (held_raise _ w₄).trans hw₄

theorem held_call (hsound : w.Sound) :
    ((Executor.call way s).start w).2.held = w.held.filter (· ∉ s.ends) := by
  cases way with
  | spawn => exact held_bind (held_spawn s w) fun _ w' hw' => hw'
  | run => exact held_bind (held_run s w) fun _ w' hw' => hw'
  | capture => exact held_bind (held_capture hsound) fun _ w' hw' => hw'

theorem wired_iff_of_started (htidy : w.Tidy) (hstarted : w'.wiring = w.wiring ++ [s.streams])
    {e : PipeEnd} (hend : e ∈ s.ends) (hheld : e ∈ w.held) (hgone : e ∉ w'.held)
    (hopened : e.pipe < w'.plumbing.pipes.length) {v : World σ} (hpasses : w'.Passes v) {i : Nat}
    {t : Streams} (ht : v.wiring[i]? = some t) : e ∈ t.ends ↔ i = w.children.length := by
  have hlength : w.wiring.length = w.children.length := List.length_map _
  constructor
  · intro he
    have hold := hpasses.wired_of_lt hopened hgone ht he
    rw [hstarted, List.getElem?_append] at hold
    split at hold
    · exact absurd he (htidy.exclusive e hheld t (List.mem_of_getElem? hold))
    · have hlast := (List.getElem?_eq_some_iff.mp hold).1
      rw [List.length_singleton] at hlast
      omega
  · rintro rfl
    obtain ⟨late, hwiring, -⟩ := hpasses.wiring
    rw [hwiring, hstarted, ← hlength, List.append_assoc, List.getElem?_append_right (Nat.le_refl _),
      Nat.sub_self] at ht
    cases ht
    exact hend

theorem call_releases (hw : w.Reached) (hs : ∀ e ∈ s.ends, e ∈ w.held) (way : Way) :
    let result := (Executor.call way s).start w
    result.2.held = w.held.filter (· ∉ s.ends) ∧ result.2.copies = [] ∧
    ∀ pipe, ⟨pipe, .writing⟩ ∈ s.ends → ∀ v, result.2.Later v →
      match result.1 with
      | .error _ => ⟨pipe, .writing⟩ ∉ v.ends ∧ (⟨pipe, .reading⟩ ∈ v.held →
          ∃ bytes, w.content? pipe = some bytes ∧ (v.receiveAll pipe).1 = .ok bytes)
      | .ok () =>
          (∀ i t, v.wiring[i]? = some t →
            (⟨pipe, .writing⟩ ∈ t.ends ↔ i = w.children.length)) ∧
          ((∃ bytes, (v.receiveAll pipe).1 = .ok bytes) ↔ ⟨pipe, .writing⟩ ∉ v.held ∧
            ∀ c ∈ (v.receiveAll pipe).2.children, ⟨pipe, .writing⟩ ∈ c.streams.ends →
              c.ended.isSome) := by
  have htidy := hw.tidy
  have hadvances := advances_call way hs htidy
  have hheld : ((Executor.call way s).start w).2.held = w.held.filter (· ∉ s.ends) :=
    held_call htidy.toSound
  refine ⟨hheld, hadvances.1.copies, ?_⟩
  intro pipe hwriter v hlater
  have hopened : pipe < w.plumbing.pipes.length := htidy.held _ (hs _ hwriter)
  obtain ⟨hv, hpasses⟩ := hlater.advances hadvances.1
  have hlength := hadvances.2.length
  have hgone : ⟨pipe, .writing⟩ ∉ ((Executor.call way s).start w).2.held := by
    simp [hheld, hwriter]
  rcases call_cases way w (List.ne_nil_of_mem hwriter) with
    ⟨stop, w', hstart, hwiring, hplumbing⟩ | ⟨w', hstart, hwiring⟩ <;>
    rw [hstart] at hgone hlength hpasses ⊢
  · have hunwired : ∀ t ∈ w'.wiring, ⟨pipe, .writing⟩ ∉ t.ends :=
      hwiring ▸ htidy.exclusive _ (hs _ hwriter)
    have hsealed : w'.Sealed pipe w.plumbing.pipes[pipe] :=
      ⟨hplumbing ▸ hopened, hgone, hunwired, fun _ => by
        rw [content?, hplumbing, List.getElem?_eq_getElem hopened]⟩
    have hlast := hsealed.passes hv hpasses
    exact ⟨hlast.not_mem_ends hv, fun hreader =>
      ⟨_, List.getElem?_eq_getElem hopened, hlast.receiveAll hv hreader⟩⟩
  · have hopened' : pipe < w'.plumbing.pipes.length :=
      Nat.lt_of_lt_of_le hopened hlength
    exact ⟨fun i t ht => wired_iff_of_started htidy hwiring hwriter (hs _ hwriter) hgone hopened'
        hpasses ht,
      receiveAll_eq_ok_iff hv (Nat.lt_of_lt_of_le hopened' hpasses.length)⟩

def secondCopy : Refusals :=
  ⟨fun n r => if n = 1 ∧ r = .copy then some .tooManyFiles else none⟩

def pipeWorld : World Unit :=
  ((Executor.scriptWorld.perform .openPipe).perform (.send 0 (Utf8.encode "kept"))).perform
    (.refuse secondCopy)

def pipeSpec : Spec :=
  { Executor.scriptSpec with
    streams := { stdout := .provisioned ⟨0, .writing⟩, stderr := .provisioned ⟨0, .writing⟩ } }

theorem reached_pipeWorld : pipeWorld.Reached := by
  have hpermits : (Executor.scriptWorld.perform .openPipe).Permits
      (.send 0 (Utf8.encode "kept")) := by
    decide
  have hfirst : Later Executor.scriptWorld (Executor.scriptWorld.perform .openPipe) :=
    .single ⟨.openPipe, trivial, rfl⟩
  have hsecond := hfirst.tail ⟨_, hpermits, rfl⟩
  exact ⟨Executor.scriptWorld, ⟨rfl, rfl, rfl⟩, hsecond.tail ⟨.refuse secondCopy, trivial, rfl⟩⟩

theorem call_releases_half_duplicated :
    pipeWorld.Reached ∧ (∀ e ∈ pipeSpec.ends, e ∈ pipeWorld.held) ∧
      let result := (Executor.call .spawn pipeSpec).start pipeWorld
      result.1 = .error (.failed (.descriptor "/tool" .stderr .tooManyFiles)) ∧
        result.2.held = [⟨0, .reading⟩] ∧ result.2.copies = [] ∧
        (result.2.receiveAll 0).1 = .ok (Utf8.encode "kept") := by
  have hends : ∀ e ∈ pipeSpec.ends, e ∈ pipeWorld.held := by
    decide +kernel
  have hfailed : ((Executor.call .spawn pipeSpec).start pipeWorld).1 =
      .error (.failed (.descriptor "/tool" .stderr .tooManyFiles)) := by
    decide +kernel
  obtain ⟨hheld, hcopies, hlater⟩ := call_releases reached_pipeWorld hends .spawn
  have hend := hlater 0 (by decide +kernel) _ .refl
  rw [hfailed] at hend
  have hreader : ((Executor.call .spawn pipeSpec).start pipeWorld).2.held = [⟨0, .reading⟩] := by
    rw [hheld]
    decide +kernel
  obtain ⟨bytes, hbytes, hread⟩ := hend.2 (by rw [hreader]; exact List.mem_singleton_self _)
  have hkept : pipeWorld.content? 0 = some (Utf8.encode "kept") := by
    decide +kernel
  refine ⟨reached_pipeWorld, hends, hfailed, hreader, hcopies, ?_⟩
  rw [hread, Option.some.inj (hbytes.symm.trans hkept)]

end World

end ChatSpace.Processes
