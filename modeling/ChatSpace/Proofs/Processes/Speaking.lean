import ChatSpace.Proofs.Processes.Feeding

namespace ChatSpace.Processes

theorem Plumbing.pipe_put {p : Plumbing} {pipe : Nat} {bytes : Bytes}
    (hbytes : p.pipes[pipe]? = some bytes) (taken : Bytes) :
    (p.put taken (.pipe pipe)).pipes[pipe]? = some (bytes ++ taken) := by
  rw [put, hbytes, Option.getD_some]
  exact List.getElem?_set_self (List.getElem?_eq_some_iff.mp hbytes).1

namespace Child

variable {c d : Child} {p q : Plumbing} {ends : List PipeEnd} {pipe : Nat} {bytes : Bytes}

def Emits (pipe : Nat) (bytes : Bytes) (c d : Child) (q : Plumbing) : Prop :=
  ∃ more, d.said = c.said ++ more ∧ q.pipes[pipe]? = some (bytes ++ more) ∧
    (d.weight < c.weight ∨ d.weight = c.weight ∧ d.pending + more.length ≤ c.pending)

structure Speaks (pipe : Nat) (s : Streams) : Prop where
  stdout : s.stdout = .provisioned ⟨pipe, .writing⟩
  stdin : s.stdin ≠ .provisioned ⟨pipe, .reading⟩
  stderr : s.stderr ≠ .provisioned ⟨pipe, .writing⟩

theorem emits_nothing (hsaid : d.said = c.said) (hpipe : q.pipes[pipe]? = some bytes)
    (hless : d.weight < c.weight ∨ d.weight = c.weight ∧ d.pending ≤ c.pending) :
    Emits pipe bytes c d q :=
  ⟨[], by rw [hsaid, List.append_nil], by rw [hpipe, List.append_nil], hless⟩

theorem sink_ne_pipe (hspeaks : Speaks pipe c.streams) {target : Output}
    (htarget : target ≠ .stdout) : c.sink target ≠ .pipe pipe := by
  intro h
  cases target with
  | stdout => exact htarget rfl
  | stderr => exact hspeaks.stderr (sinkOf_eq_pipe h nofun)
  | file path => cases h

theorem emits_put {target : Output} {taken : Bytes} {actions : List Action}
    (hspeaks : Speaks pipe c.streams) (hbytes : p.pipes[pipe]? = some bytes)
    (hless : ((c.say target taken).proceed actions).weight < c.weight ∨
      ((c.say target taken).proceed actions).weight = c.weight ∧
        ((c.say target taken).proceed actions).pending + taken.length ≤ c.pending) :
    Emits pipe bytes c ((c.say target taken).proceed actions) (p.put taken (c.sink target)) := by
  by_cases htarget : target = .stdout
  · subst htarget
    have hsink : c.sink .stdout = .pipe pipe := by
      simp [sink, hspeaks.stdout, sinkOf]
    rw [hsink]
    exact ⟨taken, rfl, Plumbing.pipe_put hbytes taken, hless⟩
  · have hpipe := Plumbing.pipes_put (sink_ne_pipe hspeaks htarget) p taken
    refine emits_nothing (if_neg htarget) (hpipe.trans hbytes) (hless.imp_right ?_)
    exact fun ⟨hweight, hpending⟩ => ⟨hweight, Nat.le_of_add_right_le hpending⟩

theorem emits_step (hspeaks : Speaks pipe c.streams) (hbytes : p.pipes[pipe]? = some bytes)
    (h : c.step ends p = some (d, q)) : Emits pipe bytes c d q := by
  obtain ⟨hrun, hsteps⟩ := steps_of_step h
  cases hsteps with
  | ended exit => exact emits_nothing rfl hbytes (.inl (weight_endWith_lt hrun exit))
  | created hact =>
      refine emits_nothing rfl hbytes (.inl (weight_proceed_lt hrun ?_))
      simp [hact, total, Action.weight]
  | wrote hact => exact emits_put hspeaks hbytes (.inl (weight_of_wrote hrun hact _))
  | @wrotePartly _ taken left _ hact =>
      refine emits_put hspeaks hbytes (.inr ⟨weight_of_wrotePartly hrun hact taken left, ?_⟩)
      have hpending := pending_of_wrotePartly hrun hact taken left
      rw [List.length_append] at hpending
      omega
  | transformed hact =>
      exact emits_nothing rfl hbytes (.inl (weight_of_transformed hrun hact _))
  | drained n hact => exact emits_nothing rfl hbytes (.inl (weight_of_transformed hrun hact _))
  | @took _ _ _ _ source content n hact hsupply =>
      have hother : source ≠ pipe := by
        rintro rfl
        unfold supply at hsupply
        split at hsupply <;> cases hsupply
        next hstdin => exact hspeaks.stdin hstdin
      exact emits_nothing rfl ((List.getElem?_set_ne hother).trans hbytes)
        (.inr ⟨rfl, Nat.le_refl _⟩)

end Child

def World.said? {σ : Type} (w : World σ) (h : Handle) : Option Bytes :=
  w.children[h.child]?.map Child.said

theorem Executor.said?_of_spawn {σ : Type} {w w' : World σ} {s : Spec} {h : Handle}
    (hspawn : (spawn s).start w = (.ok h, w')) : w'.said? h = some [] := by
  obtain ⟨n, labels, starts, ⟨e, hstart⟩ | ⟨c, l, -, hstart⟩⟩ := start_spawn_cases s w
  · cases hstart.symm.trans hspawn
  · cases hstart.symm.trans hspawn
    rw [World.closeAll_eq]
    simp [World.said?, World.addChild, World.prepared]

namespace World

variable {σ : Type} {u v w : World σ} {s : Spec} {h : Handle} {pipe : Nat} {before bytes : Bytes}

/-- The child writes its output to the pipe, and nobody else has an end of it. -/
structure Reserved (w : World σ) (h : Handle) (pipe : Nat) : Prop where
  speaks : ∃ s, w.wiring[h.child]? = some s ∧ Child.Speaks pipe s
  others : ∀ i s, w.wiring[i]? = some s → i ≠ h.child → ∀ e ∈ s.ends, e.pipe ≠ pipe

theorem Reserved.step {i : Nat} {c d : Child} {q : Plumbing} (hw : w.Reserved h pipe)
    (hc : w.children[i]? = some c) (hstep : c.step w.ends w.plumbing = some (d, q))
    (hbytes : w.content? pipe = some bytes) :
    i = h.child ∧ Child.Emits pipe bytes c d q ∨ i ≠ h.child ∧ q.pipes[pipe]? = some bytes := by
  have hwired : w.wiring[i]? = some c.streams := by simp [wiring, hc]
  by_cases hi : i = h.child
  · subst hi
    obtain ⟨s, hs, hspeaks⟩ := hw.speaks
    obtain rfl := Option.some.inj (hwired.symm.trans hs)
    exact .inl ⟨rfl, Child.emits_step hspeaks hbytes hstep⟩
  · exact .inr ⟨hi, ((Child.spares_step hstep).pipes pipe (hw.others i _ hwired hi)).trans hbytes⟩

structure Heard (w : World σ) (h : Handle) (pipe : Nat) (before : Bytes) : Prop
    extends Reserved w h pipe where
  said : ∃ bytes, w.content? pipe = some bytes ∧ w.said? h = some (before ++ bytes)

theorem Reserved.of_wiring (hw : w.Reserved h pipe) (hwiring : v.wiring = w.wiring) :
    v.Reserved h pipe where
  speaks := hwiring ▸ hw.speaks
  others := hwiring ▸ hw.others

theorem stable_heard (h : Handle) (pipe : Nat) (before : Bytes) :
    Stable fun w : World σ => w.Heard h pipe before := by
  intro w i c d q hw hc hstep
  have hlt := (List.getElem?_eq_some_iff.mp hc).1
  refine ⟨hw.toReserved.of_wiring (wiring_set hc hstep), ?_⟩
  obtain ⟨bytes, hbytes, hsaid⟩ := hw.said
  rcases hw.toReserved.step hc hstep hbytes with ⟨rfl, more, hmore, hpipe, -⟩ | ⟨hi, hpipe⟩
  · refine ⟨bytes ++ more, hpipe, ?_⟩
    rw [said?, hc] at hsaid
    simp [said?, List.getElem?_set_self hlt, hmore, Option.some.inj hsaid]
  · exact ⟨bytes, hpipe, by simpa only [said?, List.getElem?_set_ne hi] using hsaid⟩

theorem Heard.refill (hw : w.Heard h pipe before) (hbytes : w.content? pipe = some bytes) :
    (w.refill pipe []).Heard h pipe (before ++ bytes) := by
  obtain ⟨_, hsame, hsaid⟩ := hw.said
  obtain rfl := Option.some.inj (hbytes.symm.trans hsame)
  refine ⟨hw.toReserved.of_wiring rfl, [], content?_refill hbytes [], ?_⟩
  rwa [List.append_nil]

theorem heard_of_spawned (htidy : w.Tidy) (hnone : s.provisioned? = none)
    (hspawn : (Executor.spawn (piped s w)).start w.withPipe = (.ok h, u)) :
    u.Heard h w.plumbing.pipes.length [] := by
  have hspawned := Executor.spawned_of_ok hspawn
  have hchild : h.child = w.wiring.length := by
    rw [hspawned.handle, wiring_withPipe]
  have hwiring : u.wiring = w.wiring ++ [(piped s w).streams] := by
    rw [hspawned.wiring, wiring_withPipe]
  have hplumbing : u.plumbing = w.withPipe.plumbing :=
    (congrArg (·.2.plumbing) hspawn).symm.trans (Executor.plumbing_spawn _ _)
  have hother (stream : Stream) (hstream : stream ≠ .stdout) (e : PipeEnd) :
      (piped s w).streams.get stream ≠ .provisioned e := by
    intro heq
    have hends : s.streams.ends = [] := Streams.provisioned?_eq_none_iff.mp hnone
    rw [piped, Spec.get_connect, if_neg hstream] at heq
    have hmem : e ∈ s.streams.ends :=
      List.mem_filterMap.mpr ⟨stream, by cases stream <;> decide, by rw [heq]; rfl⟩
    rw [hends] at hmem
    cases hmem
  refine ⟨⟨?speaks, ?others⟩, ?said⟩
  case speaks =>
    have hspeaks : Child.Speaks w.plumbing.pipes.length (piped s w).streams :=
      ⟨rfl, hother .stdin (by decide) _, hother .stderr (by decide) _⟩
    refine ⟨(piped s w).streams, ?_, hspeaks⟩
    rw [hwiring, hchild]
    exact List.getElem?_concat_length
  case others =>
    intro i t ht hi e he
    have hlt : i < w.wiring.length := by
      have hbound := (List.getElem?_eq_some_iff.mp ht).1
      simp only [hwiring, List.length_append, List.length_singleton] at hbound
      omega
    rw [hwiring, List.getElem?_append_left hlt] at ht
    exact Nat.ne_of_lt (htidy.wired t (List.mem_of_getElem? ht) e he)
  case said =>
    refine ⟨[], ?_, Executor.said?_of_spawn hspawn⟩
    rw [content?, hplumbing]
    exact List.getElem?_concat_length

theorem said?_receiveAll (w : World σ) (h : Handle) (pipe : Nat) : ∀ before bytes,
    w.Heard h pipe before → (w.receiveAll pipe).1 = .ok bytes →
      (w.receiveAll pipe).2.said? h = some (before ++ bytes) := by
  have hsettle {w : World σ} {before : Bytes} (hw : w.Heard h pipe before) :=
    (stable_heard h pipe before).settleIfEmpty pipe hw
  fun_induction World.receiveAll w pipe with
  | case1 w v hcontent =>
      intro before bytes hw hread
      obtain ⟨_, hbytes, -⟩ := (hsettle hw).said
      cases hcontent.symm.trans hbytes
  | case2 w v hcontent hwriter =>
      intro before bytes hw hread
      cases hread
  | case3 w v hcontent hwriter =>
      intro before bytes hw hread
      obtain ⟨_, hbytes, hsaid⟩ := (hsettle hw).said
      cases hread
      cases hcontent.symm.trans hbytes
      exact hsaid
  | case4 w v b more hcontent hload rest u hrest ih =>
      intro before bytes hw hread
      rw [hrest] at ih
      cases rest with
      | error e => cases hread
      | ok rest =>
          cases hread
          rw [← List.append_assoc]
          exact ih _ _ ((hsettle hw).refill hcontent) rfl

end World

end ChatSpace.Processes
