import ChatSpace.Proofs.History.Reporting
import ChatSpace.Proofs.Processes.Fallback
import ChatSpace.Proofs.Writing.Writer

namespace ChatSpace.History

open Batch Processes

variable {σ τ : Type}

def isDrained : Except (Stop TraversalError) Outcome → Bool
  | .ok .completed => true
  | .error (.failed (.helperExit _ _)) => true
  | _ => false

def notices (drained : Bool) : Exit → List String
  | .code _ => []
  | .signal number =>
      if number = Signal.brokenPipe ∧ drained = false then []
      else [s!"child died of {Signal.name number}"]

namespace Walk

def started (walk : Walk) (w : World σ) : List Handle :=
  [walk.lister, walk.dumper].filter (·.child < w.children.length)

structure Reaped (walk : Walk) (drained : Bool) (w w' : World σ) (waits : List Wait)
    (exits : List Exit) : Prop where
  noted : w'.journal.waits = w.journal.waits ++ waits
  once : waits.map Wait.child = (walk.started w').map Handle.child
  ended : (walk.started w').map w'.exit? = exits.map some
  unblocked : ∀ wait ∈ waits, ∀ e ∈ wait.held, e.pipe ≠ walk.link ∧ e ≠ ⟨walk.output, .writing⟩
  unread : ∀ wait ∈ waits, wait.child = walk.dumper.child → ⟨walk.output, .reading⟩ ∉ wait.held
  warnings : w'.journal.warnings = w.journal.warnings ++ exits.flatMap (notices drained)
  released : ∀ e ∈ w'.held ++ w'.copies, e.pipe ≠ walk.link ∧ e.pipe ≠ walk.output

end Walk

/-- The callback leaves the helpers and their pipes alone, waits for nobody and warns of nothing. -/
structure Aloof (walk : Walk) (callback : Commit → World σ × τ → Answer × (World σ × τ)) :
    Prop where
  joined (c s) : walk.Joined s.1 → walk.Joined (callback c s).2.1
  waits (c s) : (callback c s).2.1.journal.waits = s.1.journal.waits
  warnings (c s) : (callback c s).2.1.journal.warnings = s.1.journal.warnings

theorem aloof_of_calm {callback : Commit → World σ × τ → Answer × (World σ × τ)}
    (h : ∀ c s, Calm s.1 (callback c s).2.1) (walk : Walk) : Aloof walk callback where
  joined c s hj := hj.of_calm (h c s)
  waits c s := by rw [(h c s).journal]
  warnings c s := by rw [(h c s).journal]

theorem calm_showCommit (space : Space) (options : Space.ReadOptions) (c : Commit)
    (s : World σ × Space.Showing) : Calm s.1 (space.showCommit options c s).2.1 := by
  have hwrite := Writing.Writer.calm_writeAll s.2.writer
    (Utf8.encode (Space.text (Space.lines space.colour options (0 < s.2.shown) c))) s.1
  unfold Space.showCommit
  split <;> next heq =>
    rw [heq] at hwrite
    exact hwrite

theorem warning?_eq_notices (drained : Bool) (exit : Exit) :
    (exit.warning? (!drained)).toList = notices drained exit := by
  cases exit with
  | code n => rfl
  | signal number =>
      simp only [Exit.warning?, notices, Bool.not_eq_true']
      split <;> rfl

section Ways

variable {q : Query} {callback : Commit → World σ × τ → Answer × (World σ × τ)}
  {w w' : World σ} {t t' : τ} {result : Except (Stop TraversalError) Outcome}

theorem Walk.released_of_old (hsound : w.Sound) (hcopies : w'.copies = w.copies)
    (hheld : ∀ e ∈ w'.held, e ∈ w.held) :
    ∀ e ∈ w'.held ++ w'.copies, e.pipe ≠ (next w).link ∧ e.pipe ≠ (next w).output := by
  intro e he
  rw [hcopies, hsound.copies, List.append_nil] at he
  have hlt := hsound.held e (hheld e he)
  exact ⟨Nat.ne_of_lt hlt, Nat.ne_of_lt (Nat.lt_succ_of_lt hlt)⟩

theorem Walk.reaped_of_none {drained : Bool} (hsound : w.Sound)
    (hchildren : w'.children.length = w.children.length)
    (hwaits : w'.journal.waits = w.journal.waits)
    (hwarnings : w'.journal.warnings = w.journal.warnings) (hcopies : w'.copies = w.copies)
    (hheld : ∀ e ∈ w'.held, e ∈ w.held) : (next w).Reaped drained w w' [] [] where
  noted := by rw [hwaits, List.append_nil]
  once := by simp [started, next, hchildren]
  ended := by simp [started, next, hchildren]
  unblocked := nofun
  unread := nofun
  warnings := by rw [hwarnings, List.flatMap_nil, List.append_nil]
  released := released_of_old hsound hcopies hheld

theorem Walk.released_of_closed {walk : Walk}
    (hheld : ∀ e ∈ w.held, e.pipe ≠ walk.link ∧ e ≠ ⟨walk.output, .writing⟩)
    (hclosed : ⟨walk.output, .reading⟩ ∉ w.held)
    (hcopies : ∀ e ∈ w.copies, e.pipe ≠ walk.link ∧ e.pipe ≠ walk.output) :
    ∀ e ∈ w.held ++ w.copies, e.pipe ≠ walk.link ∧ e.pipe ≠ walk.output := by
  intro e he
  rcases List.mem_append.mp he with he | he
  · refine ⟨(hheld e he).1, fun houtput => ?_⟩
    obtain ⟨pipe, side⟩ := e
    obtain rfl : pipe = walk.output := houtput
    cases side with
    | reading => exact hclosed he
    | writing => exact (hheld _ he).2 rfl
  · exact hcopies e he

theorem ended_of_unread {c : Child} {link : Nat} (hrest : w.AtRest) (hc : c ∈ w.children)
    (hstreams : c.streams = { stdout := .provisioned ⟨link, .writing⟩ })
    (hunread : ⟨link, .reading⟩ ∉ w.ends) : c.ended.isSome := by
  rcases hrest.ended_or_waits hc with hended | hwaits
  · exact hended
  · cases hwaits with
    | @room target pipe bytes hsink hreader hpipe hfull =>
        have hlink : pipe = link := by
          cases target <;> simp [Child.sink, hstreams, Child.sinkOf] at hsink
          exact hsink.symm
        exact absurd (hlink ▸ hreader) hunread
    | bytes hsupply _ _ => simp [Child.supply, hstreams] at hsupply

structure Walk.Alone (w w' : World σ) : Prop where
  wiring : w'.wiring = w.wiring ++ [(next w).listerStreams]
  held : ∀ e ∈ w'.held, e.pipe ≠ (next w).link ∧ e ≠ ⟨(next w).output, .writing⟩
  copies : w'.copies = []
  waits : w'.journal.waits = w.journal.waits
  warnings : w'.journal.warnings = w.journal.warnings

theorem Walk.Alone.ended (halone : Alone w w') (hsound : w.Sound) :
    ∃ exit, w'.settle.exit? (next w).lister = some exit := by
  have hwiring : w'.settle.wiring = w.wiring ++ [(next w).listerStreams] :=
    (World.wiring_settle w').trans halone.wiring
  have hunread : ⟨(next w).link, .reading⟩ ∉ w'.settle.ends := by
    intro hreader
    rcases World.mem_ends_cases hreader with hheld | hcopy | ⟨c, hc, -, he⟩
    · rw [World.held_settle] at hheld
      exact (halone.held _ hheld).1 rfl
    · rw [World.copies_settle, halone.copies] at hcopy
      cases hcopy
    · have hmem : c.streams ∈ w'.settle.wiring := List.mem_map_of_mem hc
      rw [hwiring, List.mem_append, List.mem_singleton] at hmem
      rcases hmem with hold | hlister
      · exact absurd (hsound.wired _ hold _ he) (Nat.lt_irrefl _)
      · rw [hlister] at he
        exact absurd (List.mem_singleton.mp he) nofun
  have hlast : w'.settle.wiring[w.children.length]? = some (next w).listerStreams := by
    rw [hwiring, show w.children.length = w.wiring.length by simp [World.wiring]]
    exact List.getElem?_concat_length
  obtain ⟨c, hc, hstreams⟩ : ∃ c, w'.settle.children[w.children.length]? = some c ∧
      c.streams = (next w).listerStreams := by
    simpa [World.wiring] using hlast
  have hended := ended_of_unread (World.atRest_settle w') (List.mem_of_getElem? hc) hstreams hunread
  obtain ⟨exit, hexit⟩ := Option.isSome_iff_exists.mp hended
  exact ⟨exit, by simp [World.exit?, next, hc, hexit]⟩

theorem Walk.Alone.reaped (halone : Alone w w') (hsound : w.Sound) :
    ∃ code w'' exit, (Executor.finishAfterClose (next w).lister).start w' = (.ok code, w'') ∧
      (next w).Reaped false w (w''.close ⟨(next w).output, .reading⟩)
        [⟨(next w).lister.child, w'.held⟩] [exit] := by
  obtain ⟨exit, hexit⟩ := halone.ended hsound
  have hlength : w'.settle.children.length = w.children.length + 1 := by
    have hlength := congrArg List.length ((World.wiring_settle w').trans halone.wiring)
    simpa [World.wiring] using hlength
  have hstarted : (next w).started w'.settle = [(next w).lister] := by
    simp [started, next, hlength]
  refine ⟨exit.status, _, exit, Executor.start_reap hexit true, ?_⟩
  constructor
  case noted =>
    simp only [World.close]
    rw [halone.waits, halone.copies, List.append_nil]
  case once =>
    change _ = ((next w).started w'.settle).map Handle.child
    rw [hstarted]
    rfl
  case ended =>
    change ((next w).started w'.settle).map w'.settle.exit? = _
    rw [hstarted]
    exact congrArg (List.cons · []) hexit
  case unblocked =>
    intro wait hwait
    obtain rfl := List.mem_singleton.mp hwait
    exact halone.held
  case unread =>
    intro wait hwait hdumper
    obtain rfl := List.mem_singleton.mp hwait
    exact absurd hdumper (Nat.ne_of_lt (Nat.lt_succ_self _))
  case warnings =>
    simp only [World.close, List.flatMap_cons, List.flatMap_nil, List.append_nil]
    rw [halone.warnings, ← warning?_eq_notices]
    rfl
  case released =>
    apply released_of_closed
    · intro e he
      have hheld : e ∈ w'.settle.held := (List.mem_filter.mp he).1
      exact halone.held e (World.held_settle w' ▸ hheld)
    · simp [World.close]
    · have hnone : w'.settle.copies = [] := (World.copies_settle w').trans halone.copies
      intro e he
      have he : e ∈ w'.settle.copies := he
      rw [hnone] at he
      cases he

theorem stream_aloof {walk : Walk} {v : Verdict} (haloof : Aloof walk callback)
    (hj : walk.Joined w) (h : stream q walk.output callback (w, t) = (v, (w', t'))) :
    walk.Joined w' ∧ ⟨walk.output, .reading⟩ ∉ w'.held ∧
      w'.journal.waits = w.journal.waits ∧ w'.journal.warnings = w.journal.warnings := by
  let keeps (s : World σ × τ) : Prop :=
    walk.Joined s.1 ∧ s.1.journal.waits = w.journal.waits ∧
      s.1.journal.warnings = w.journal.warnings
  have hread (s : World σ × τ) (hs : keeps s) : keeps (beside (readOutput walk.output) s).2 := by
    have hcalm := s.1.calm_receive walk.output readSize
    refine ⟨hs.1.of_calm hcalm, ?_, ?_⟩
    · exact (congrArg Journal.waits hcalm.journal).trans hs.2.1
    · exact (congrArg Journal.warnings hcalm.journal).trans hs.2.2
  have hcall (c : Commit) (s : World σ × τ) (hs : keeps s) : keeps (callback c s).2 :=
    ⟨haloof.joined c s hs.1, (haloof.waits c s).trans hs.2.1, (haloof.warnings c s).trans hs.2.2⟩
  obtain ⟨v', s', ⟨hj', hwaits, hwarnings⟩, hstream⟩ :=
    stream_keeps (q := q) hread hcall (s := (w, t)) ⟨hj, rfl, rfl⟩
  cases hstream.symm.trans h
  exact ⟨hj'.of_calm (World.calm_close _ _), by simp [World.close], hwaits, hwarnings⟩

theorem start_conclude_cases {v : Verdict} (hv : ∀ e, v = .failed e → e.isOfDump) (a b : Nat)
    (s : World σ × τ) :
    ∃ result alarms, (conclude v a b).start s =
        (result, ({ s.1 with journal := { s.1.journal with alarms } }, s.2)) ∧
      isDrained result = decide (v = .ended .completed) := by
  rcases v with (_ | _) | e | source
  · rw [start_conclude_completed]
    refine ⟨_, _, rfl, ?_⟩
    rw [cleanEnd]
    split
    · rfl
    · split <;> rfl
  · exact ⟨_, _, rfl, rfl⟩
  · refine ⟨_, _, rfl, ?_⟩
    have he := hv e rfl
    cases e with
    | exec e => cases he
    | helperExit helper code => cases he
    | _ => rfl
  · have hraise := Executor.start_raise (α := Outcome)
      (.read s!"{engineName} {Helper.dumper.verb}" source) s.1
    refine ⟨_, _, start_onWorld_of_error hraise s.2, ?_⟩
    rw [Executor.stopOf]
    cases s.1.handler <;> rfl

theorem Walk.Joined.started_next (hj : (next w).Joined w') :
    (next w).started w' = [(next w).lister, (next w).dumper] := by
  have hlister := (List.getElem?_eq_some_iff.mp hj.lister).1
  have hdumper := (List.getElem?_eq_some_iff.mp hj.dumper).1
  simp only [World.wiring, List.length_map] at hlister hdumper
  simp [started, hlister, hdumper]

theorem follow_reaps {w₁ : World σ} (haloof : Aloof (.next w) callback)
    (hj : (Walk.next w).Joined w₁) (hwaits : w₁.journal.waits = w.journal.waits)
    (hwarnings : w₁.journal.warnings = w.journal.warnings)
    (h : (follow q (.next w) callback).start (w₁, t) = (result, (w', t'))) :
    ∃ waits exits, (Walk.next w).Reaped (isDrained result) w w' waits exits := by
  rcases hstream : stream q (Walk.next w).output callback (w₁, t) with ⟨v, w₂, t₂⟩
  obtain ⟨hj₂, hclosed, hwaits₂, hwarnings₂⟩ := stream_aloof haloof hj hstream
  have hv (e : TraversalError) (he : v = .failed e) : e.isOfDump :=
    stream_isOfDump ((congrArg Prod.fst hstream).trans he)
  obtain ⟨a, b, ha, hb⟩ :=
    hj₂.settle.ended (World.atRest_settle w₂) (.inr (by simpa using hclosed))
  obtain ⟨concluded, alarms, hconclude, hdrained⟩ := start_conclude_cases hv a.status b.status
    (reaped (.next w) v a b w₂, t₂)
  rw [start_follow_of_ended ha hb hstream, hconclude] at h
  cases h
  have hstarted := hj₂.settle.started_next
  have hreleased := Walk.released_of_closed hj₂.held hclosed hj₂.copies
  refine ⟨[⟨(Walk.next w).lister.child, w₂.held ++ w₂.copies⟩,
    ⟨(Walk.next w).dumper.child, w₂.held ++ w₂.copies⟩], [a, b], ?_⟩
  constructor
  case noted =>
    change w₂.journal.waits ++ _ = _
    rw [hwaits₂, hwaits]
  case once =>
    change _ = ((Walk.next w).started w₂.settle).map Handle.child
    rw [hstarted]
    rfl
  case ended =>
    change ((Walk.next w).started w₂.settle).map w₂.settle.exit? = _
    rw [hstarted]
    simp [ha, hb]
  case unblocked =>
    intro wait hwait e he
    have hheld : wait.held = w₂.held ++ w₂.copies := by
      rcases List.mem_pair.mp hwait with rfl | rfl <;> rfl
    obtain ⟨hlink, houtput⟩ := hreleased e (hheld ▸ he)
    exact ⟨hlink, fun heq => houtput (congrArg PipeEnd.pipe heq)⟩
  case unread =>
    intro wait hwait _ hreader
    have hheld : wait.held = w₂.held ++ w₂.copies := by
      rcases List.mem_pair.mp hwait with rfl | rfl <;> rfl
    exact (hreleased _ (hheld ▸ hreader)).2 rfl
  case warnings =>
    change w₂.journal.warnings ++ _ ++ _ = _
    rw [hwarnings₂, hwarnings, hdrained, show decide (v ≠ .ended .completed) =
      !decide (v = .ended .completed) from decide_not, warning?_eq_notices, warning?_eq_notices]
    simp
  case released =>
    intro e he
    have he : e ∈ w₂.settle.held ++ w₂.settle.copies := he
    rw [World.held_settle, World.copies_settle] at he
    exact hreleased e he

def Walk.Begins (w w' : World σ) : Except (Stop TraversalError) (Handle × Handle) → Prop
  | .ok helpers => helpers = ((next w).lister, (next w).dumper) ∧ (next w).Joined w' ∧
      w'.journal.waits = w.journal.waits ∧ w'.journal.warnings = w.journal.warnings
  | .error (.failed e) => isDrained (.error (.failed e)) = false ∧
      ∃ waits exits, (next w).Reaped false w w' waits exits
  | .error (.halted _) => True

theorem Walk.alone_of_spawned (hsound : w.Sound) {w₃ : World σ} {stop : Stop ExecError}
    {lister : Handle}
    (hlister : Executor.Spawned (q.lister (next w).link) w.withPipe.withPipe lister w₃)
    (hdumper : Executor.Unspawned (q.dumper (next w).link (next w).output) w₃ stop w') :
    Alone w w' where
  wiring := hdumper.wiring.trans hlister.wiring
  held e he := by
    rw [hdumper.held, hlister.held] at he
    simp only [List.mem_filter, decide_eq_true_eq] at he
    obtain ⟨⟨he, helsewhere⟩, hdumped⟩ := he
    exact held_elsewhere hsound he helsewhere hdumped
  copies := hdumper.copies.trans (hlister.copies.trans hsound.copies)
  waits := hdumper.waits.trans hlister.waits
  warnings := hdumper.warnings.trans hlister.warnings

theorem Walk.reaped_of_unspawned (hsound : w.Sound) {stop : Stop ExecError}
    (h : Executor.Unspawned (q.lister (next w).link) w.withPipe.withPipe stop w') :
    (next w).Reaped false w (w'.closeAll [⟨(next w).link, .reading⟩, ⟨(next w).output, .writing⟩,
      ⟨(next w).output, .reading⟩]) [] [] := by
  have hlength : w'.children.length = w.children.length := by
    have hsame := congrArg List.length h.wiring
    rw [World.wiring_withPipe, World.wiring_withPipe] at hsame
    simpa only [World.wiring, List.length_map] using hsame
  rw [World.closeAll_eq]
  refine reaped_of_none hsound hlength h.waits h.warnings h.copies fun e he => ?_
  have hlister : (q.lister (next w).link).ends = [⟨(next w).link, .writing⟩] := rfl
  rw [h.held, List.mem_filter, List.mem_filter, hlister] at he
  obtain ⟨⟨he, hgiven⟩, hclosed⟩ := he
  refine (mem_held_cases he).resolve_left fun hnew => ?_
  simp only [List.mem_cons, List.not_mem_nil, or_false, decide_eq_true_eq, not_or] at *
  rcases hnew with hnew | hnew | hnew | hnew
  · exact hclosed.2.2 hnew
  · exact hclosed.2.1 hnew
  · exact hclosed.1 hnew
  · exact hgiven hnew

theorem startHelpers_begins (hsound : w.Sound)
    {helpers : Except (Stop TraversalError) (Handle × Handle)}
    (hlink : (Executor.openPipe : Act (World σ) ExecError Nat).start w =
      (.ok (Walk.next w).link, w.withPipe))
    (houtput : (Executor.openPipe : Act (World σ) ExecError Nat).start w.withPipe =
      (.ok (Walk.next w).output, w.withPipe.withPipe))
    (h : (startHelpers q (Walk.next w).link (Walk.next w).output).start (w.withPipe.withPipe, t) =
      (helpers, (w', t'))) : Walk.Begins w w' helpers := by
  rcases hlister : (Executor.spawn (q.lister (Walk.next w).link)).start w.withPipe.withPipe with
    ⟨stop | lister, w₃⟩
  · have hunspawned := Executor.unspawned_of_error hlister
    obtain ⟨e, rfl⟩ := hunspawned.stop
    rw [startHelpers, Act.start_bind_of_error (start_onWorldClosing_of_error hlister _ t)] at h
    cases h
    rw [Executor.stopOf]
    cases w.withPipe.withPipe.handler with
    | returns => exact ⟨rfl, [], [], Walk.reaped_of_unspawned hsound hunspawned⟩
    | terminates => trivial
  have hspawned := Executor.spawned_of_ok hlister
  have hlength : w.withPipe.withPipe.wiring.length = w.children.length := List.length_map _
  obtain rfl : lister = (Walk.next w).lister :=
    hspawned.handle.trans (congrArg (Handle.mk · engineName) hlength)
  rw [startHelpers, Act.start_bind_of_ok (start_onWorldClosing_of_ok hlister _ t)] at h
  rcases hdumper : (Executor.spawn (q.dumper (Walk.next w).link (Walk.next w).output)).start w₃ with
    ⟨(e | text) | dumper, w₄⟩
  · have halone := Walk.alone_of_spawned hsound hspawned (Executor.unspawned_of_error hdumper)
    obtain ⟨code, w₅, exit, hreap, hreaped⟩ := halone.reaped hsound
    rw [Act.start_bind_of_ok (start_onWorld_of_ok (Act.start_attempt_of_failed hdumper) t)] at h
    simp only at h
    rw [Act.start_bind_of_ok (start_onWorldClosing_of_ok hreap _ t)] at h
    cases h
    exact ⟨rfl, _, _, hreaped⟩
  · rw [Act.start_bind_of_error (start_onWorld_of_error (Act.start_attempt_of_halted hdumper) t)]
      at h
    cases h
    trivial
  · obtain ⟨hhandle, hwiring, hheld, -, hwaits, hwarnings⟩ := Executor.spawned_of_ok hdumper
    have hlength : w₃.wiring.length = w.children.length + 1 := by
      rw [hspawned.wiring, List.length_append, hlength]
      rfl
    obtain rfl : dumper = (Walk.next w).dumper :=
      hhandle.trans (congrArg (Handle.mk · engineName) hlength)
    have hlaunch : (launch q).start w = (.ok (Walk.next w), w₄) := by
      rw [launch, Act.start_bind_of_ok hlink, Act.start_bind_of_ok houtput,
        Act.start_bind_of_ok hlister, Act.start_bind_of_ok hdumper]
      rfl
    have hj := Walk.joined_of_launch hsound hlaunch
    rw [Act.start_bind_of_ok (start_onWorld_of_ok (Act.start_attempt_of_ok hdumper) t)] at h
    cases h
    exact ⟨rfl, hj, hwaits.trans hspawned.waits, hwarnings.trans hspawned.warnings⟩

end Ways

theorem traverse_reaps {q : Query} {callback : Commit → World σ × τ → Answer × (World σ × τ)}
    {w w' : World σ} {t t' : τ} {result : Except (Stop TraversalError) Outcome}
    (hsound : w.Sound) (haloof : Aloof (.next w) callback)
    (h : (traverse q callback).start (w, t) = (result, (w', t')))
    (hlives : ∀ text, result ≠ .error (.halted text)) :
    ∃ waits exits, (Walk.next w).Reaped (isDrained result) w w' waits exits := by
  rcases Executor.start_openPipe_cases w with ⟨e, -, hlink⟩ | ⟨-, hlink⟩
  · rw [traverse, Act.start_bind_of_error (start_onWorld_of_error hlink t)] at h
    cases h
    exact ⟨[], [], Walk.reaped_of_none hsound rfl rfl rfl rfl fun _ he => he⟩
  rw [traverse, Act.start_bind_of_ok (start_onWorld_of_ok hlink t)] at h
  rcases Executor.start_openPipe_cases w.withPipe with ⟨e, -, houtput⟩ | ⟨-, houtput⟩
  · rw [Act.start_bind_of_error (start_onWorldClosing_of_error houtput _ t), World.closeAll_eq]
      at h
    cases h
    refine ⟨[], [], Walk.reaped_of_none hsound rfl rfl rfl rfl fun e he => ?_⟩
    obtain ⟨he, hclosed⟩ := List.mem_filter.mp he
    have he : e ∈ [⟨(Walk.next w).link, .reading⟩, ⟨(Walk.next w).link, .writing⟩] ++ w.held := he
    exact (List.mem_append.mp he).resolve_left (of_decide_eq_true hclosed)
  have hpipe : w.withPipe.plumbing.pipes.length = (Walk.next w).output := by
    simp [World.withPipe, Walk.next]
  rw [hpipe] at houtput
  rw [Act.start_bind_of_ok (start_onWorldClosing_of_ok houtput _ t)] at h
  rcases hhelpers : (startHelpers q w.plumbing.pipes.length (Walk.next w).output).start
    (w.withPipe.withPipe, t) with ⟨(e | text) | helpers, w₁, t₁⟩
  · obtain ⟨hdrained, hreaped⟩ := startHelpers_begins hsound hlink houtput hhelpers
    rw [Act.start_bind_of_error hhelpers] at h
    cases h
    exact hdrained ▸ hreaped
  · rw [Act.start_bind_of_error hhelpers] at h
    cases h
    exact absurd rfl (hlives text)
  · obtain ⟨rfl, hj, hwaits, hwarnings⟩ := startHelpers_begins hsound hlink houtput hhelpers
    rw [Act.start_bind_of_ok hhelpers] at h
    exact follow_reaps haloof hj hwaits hwarnings h

theorem traverse_reaps_hushed :
    hushedWorld.Sound ∧ Aloof (σ := Unit) (.next hushedWorld) (hushedSpace.showCommit {}) ∧
      ∃ result w t waits exits,
        (traverse hushedQuery (hushedSpace.showCommit {})).start (hushedWorld, freshShowing) =
          (result, (w, t)) ∧
        (∀ text, result ≠ .error (.halted text)) ∧
        (Walk.next hushedWorld).Reaped (isDrained result) hushedWorld w waits exits := by
  have hsound : hushedWorld.Sound := ⟨by decide, rfl, by decide⟩
  have hcalm := calm_showCommit (σ := Unit) hushedSpace {}
  have haloof := aloof_of_calm hcalm (.next hushedWorld)
  have hlives := (candid_traverse (fun c s => (hcalm c s).silent) hushedQuery
    (hushedWorld, freshShowing) rfl).lives
  rcases hstart : (traverse hushedQuery (hushedSpace.showCommit {})).start
    (hushedWorld, freshShowing) with ⟨result, w, t⟩
  rw [hstart] at hlives
  obtain ⟨waits, exits, hreaped⟩ := traverse_reaps hsound haloof hstart hlives
  exact ⟨hsound, haloof, result, w, t, waits, exits, rfl, hlives, hreaped⟩

end ChatSpace.History
