import ChatSpace.History.Traversal
import ChatSpace.Proofs.Processes.Calm
import ChatSpace.Proofs.Processes.Fallback
import ChatSpace.Proofs.Processes.Reading
import Mathlib.Data.List.Chain

namespace ChatSpace

namespace History

open Processes

variable {σ : Type}

structure Walk where
  link : Nat
  output : Nat
  lister : Handle
  dumper : Handle
deriving DecidableEq, Repr

def launch (q : Query) : Act (World σ) ExecError Walk := do
  let link ← Executor.openPipe
  let output ← Executor.openPipe
  let lister ← Executor.spawn (q.lister link)
  let dumper ← Executor.spawn (q.dumper link output)
  pure ⟨link, output, lister, dumper⟩

namespace Walk

variable {walk : Walk} {w w' : World σ}

def listerStreams (walk : Walk) : Streams :=
  { stdout := .provisioned ⟨walk.link, .writing⟩ }

def dumperStreams (walk : Walk) : Streams :=
  { stdin := .provisioned ⟨walk.link, .reading⟩, stdout := .provisioned ⟨walk.output, .writing⟩ }

structure Joined (walk : Walk) (w : World σ) : Prop where
  apart : walk.link ≠ walk.output
  lister : w.wiring[walk.lister.child]? = some walk.listerStreams
  dumper : w.wiring[walk.dumper.child]? = some walk.dumperStreams
  held : ∀ e ∈ w.held, e.pipe ≠ walk.link ∧ e ≠ ⟨walk.output, .writing⟩
  copies : ∀ e ∈ w.copies, e.pipe ≠ walk.link ∧ e.pipe ≠ walk.output
  others : ∀ i s, w.wiring[i]? = some s → i ≠ walk.lister.child → i ≠ walk.dumper.child →
    ∀ e ∈ s.ends, e.pipe ≠ walk.link ∧ e.pipe ≠ walk.output

def Running (w : World σ) (h : Handle) : Prop :=
  ∃ c, w.children[h.child]? = some c ∧ c.ended = none

def next (w : World σ) : Walk where
  link := w.plumbing.pipes.length
  output := w.plumbing.pipes.length + 1
  lister := ⟨w.children.length, engineName⟩
  dumper := ⟨w.children.length + 1, engineName⟩

theorem mem_held_cases {e : PipeEnd} (he : e ∈ w.withPipe.withPipe.held) :
    e ∈ [⟨(next w).output, .reading⟩, ⟨(next w).output, .writing⟩, ⟨(next w).link, .reading⟩,
      ⟨(next w).link, .writing⟩] ∨ e ∈ w.held := by
  have hpipe : w.withPipe.plumbing.pipes.length = (next w).output := by
    simp [World.withPipe, next]
  have he : e ∈ [⟨(next w).output, .reading⟩, ⟨(next w).output, .writing⟩,
      ⟨(next w).link, .reading⟩, ⟨(next w).link, .writing⟩] ++ w.held := hpipe ▸ he
  exact List.mem_append.mp he

theorem held_elsewhere {q : Query} (hsound : w.Sound) {e : PipeEnd}
    (he : e ∈ w.withPipe.withPipe.held) (hlister : e ∉ (q.lister (next w).link).ends)
    (hdumper : e ∉ (q.dumper (next w).link (next w).output).ends) :
    e.pipe ≠ (next w).link ∧ e ≠ ⟨(next w).output, .writing⟩ := by
  have hlisterEnds : (q.lister (next w).link).ends = [⟨(next w).link, .writing⟩] := rfl
  have hdumperEnds : (q.dumper (next w).link (next w).output).ends =
      [⟨(next w).link, .reading⟩, ⟨(next w).output, .writing⟩] := rfl
  rw [hlisterEnds, List.mem_singleton] at hlister
  rw [hdumperEnds, List.mem_pair, not_or] at hdumper
  rcases mem_held_cases he with hnew | hold
  · obtain rfl : e = ⟨(next w).output, .reading⟩ := by
      simpa [hlister, hdumper.1, hdumper.2] using hnew
    exact ⟨Nat.succ_ne_self _, by simp⟩
  · have hlt := hsound.held e hold
    refine ⟨Nat.ne_of_lt hlt, ?_⟩
    rintro rfl
    exact absurd hlt (Nat.not_lt.mpr (Nat.le_succ _))

theorem launch_eq_ok {q : Query} (h : (launch q).start w = (.ok walk, w')) :
    ∃ v, Executor.openPipe.start w = (.ok walk.link, w.withPipe) ∧
      Executor.openPipe.start w.withPipe = (.ok walk.output, w.withPipe.withPipe) ∧
      (Executor.spawn (q.lister walk.link)).start w.withPipe.withPipe = (.ok walk.lister, v) ∧
      (Executor.spawn (q.dumper walk.link walk.output)).start v = (.ok walk.dumper, w') := by
  obtain ⟨link, w₁, hlink, h⟩ := Act.start_bind_eq_ok h
  obtain ⟨output, w₂, houtput, h⟩ := Act.start_bind_eq_ok h
  obtain ⟨lister, v, hlister, h⟩ := Act.start_bind_eq_ok h
  obtain ⟨dumper, u, hdumper, h⟩ := Act.start_bind_eq_ok h
  cases h
  obtain ⟨rfl, rfl⟩ := Executor.openPipe_eq_ok hlink
  obtain ⟨rfl, rfl⟩ := Executor.openPipe_eq_ok houtput
  exact ⟨v, hlink, houtput, hlister, hdumper⟩

theorem joined_of_launch {q : Query} (hsound : w.Sound)
    (h : (launch q).start w = (.ok walk, w')) : walk.Joined w' := by
  obtain ⟨link, output, lister, dumper⟩ := walk
  obtain ⟨w₃, hlink, houtput, hlister, hdumper⟩ := launch_eq_ok h
  simp only at hlink houtput hlister hdumper
  obtain ⟨rfl, -⟩ := Executor.openPipe_eq_ok hlink
  obtain ⟨rfl, -⟩ := Executor.openPipe_eq_ok houtput
  have hpipes : w.withPipe.plumbing.pipes.length = w.plumbing.pipes.length + 1 := by
    simp [World.withPipe]
  rw [hpipes] at hdumper ⊢
  obtain ⟨rfl, hwiring₃, hheld₃, hcopies₃, -, -⟩ := Executor.spawned_of_ok hlister
  obtain ⟨rfl, hwiring₄, hheld₄, hcopies₄, -, -⟩ := Executor.spawned_of_ok hdumper
  simp only [World.wiring_withPipe] at hwiring₃ ⊢
  rw [hwiring₃] at hwiring₄ ⊢
  have hwiring : w'.wiring = w.wiring ++ [(next w).listerStreams, (next w).dumperStreams] := by
    rw [hwiring₄, List.append_assoc]
    rfl
  constructor
  case apart => exact (Nat.succ_ne_self _).symm
  case lister =>
    change _ = some (next w).listerStreams
    simp [hwiring]
  case dumper =>
    change _ = some (next w).dumperStreams
    simp [hwiring]
  case held =>
    intro e he
    rw [hheld₄, hheld₃] at he
    simp only [List.mem_filter, decide_eq_true_eq] at he
    obtain ⟨⟨he, helsewhere⟩, hdumped⟩ := he
    exact held_elsewhere hsound he helsewhere hdumped
  case copies =>
    have hnone : w'.copies = [] := hcopies₄.trans (hcopies₃.trans hsound.copies)
    rw [hnone]
    exact nofun
  case others =>
    intro i s hs hlisterNe hdumperNe e he
    simp only [List.length_append, List.length_singleton] at hlisterNe hdumperNe
    rw [hwiring] at hs
    have hlt : i < w.wiring.length := by
      obtain ⟨hlt, -⟩ := List.getElem?_eq_some_iff.mp hs
      simp only [List.length_append, List.length_cons, List.length_nil] at hlt
      omega
    rw [List.getElem?_append_left hlt] at hs
    have := hsound.wired s (List.mem_of_getElem? hs) e he
    simp only
    omega

namespace Joined

theorem of_subset (hj : walk.Joined w) (hwiring : w'.wiring = w.wiring)
    (hheld : ∀ e ∈ w'.held, e ∈ w.held) (hcopies : w'.copies = w.copies) : walk.Joined w' where
  apart := hj.apart
  lister := hwiring ▸ hj.lister
  dumper := hwiring ▸ hj.dumper
  held e he := hj.held e (hheld e he)
  copies := hcopies ▸ hj.copies
  others := hwiring ▸ hj.others

theorem of_calm (hj : walk.Joined w) (h : Calm w w') : walk.Joined w' :=
  hj.of_subset h.wiring h.held h.copies

theorem settle (hj : walk.Joined w) : walk.Joined w.settle :=
  hj.of_calm (World.calm_settle w)

theorem exists_lister (hj : walk.Joined w) :
    ∃ c, w.children[walk.lister.child]? = some c ∧ c.streams = walk.listerStreams := by
  simpa [World.wiring] using hj.lister

theorem exists_dumper (hj : walk.Joined w) :
    ∃ c, w.children[walk.dumper.child]? = some c ∧ c.streams = walk.dumperStreams := by
  simpa [World.wiring] using hj.dumper

theorem owner (hj : walk.Joined w) {e : PipeEnd} (he : e ∈ w.ends)
    (hpipe : e.pipe = walk.link ∨ e.pipe = walk.output) :
    e ∈ w.held ∨ e = ⟨walk.link, .writing⟩ ∧ Running w walk.lister ∨
      (e = ⟨walk.link, .reading⟩ ∨ e = ⟨walk.output, .writing⟩) ∧ Running w walk.dumper := by
  rcases World.mem_ends_cases he with hheld | hcopy | ⟨c, hc, hended, he⟩
  · exact .inl hheld
  · obtain ⟨hlink, houtput⟩ := hj.copies e hcopy
    exact (hpipe.elim hlink houtput).elim
  · right
    obtain ⟨i, hi⟩ := List.mem_iff_getElem?.mp hc
    have hwiring : w.wiring[i]? = some c.streams := by simp [World.wiring, hi]
    by_cases hlister : i = walk.lister.child
    · left
      subst hlister
      rw [hj.lister, Option.some.injEq] at hwiring
      rw [← hwiring] at he
      have he : e = ⟨walk.link, .writing⟩ := List.mem_singleton.mp he
      exact ⟨he, c, hi, hended⟩
    · by_cases hdumper : i = walk.dumper.child
      · right
        subst hdumper
        rw [hj.dumper, Option.some.injEq] at hwiring
        rw [← hwiring] at he
        have he : e ∈ [⟨walk.link, .reading⟩, ⟨walk.output, .writing⟩] := he
        exact ⟨by simpa using he, c, hi, hended⟩
      · obtain ⟨hlink, houtput⟩ := hj.others i c.streams hwiring hlister hdumper e he
        exact (hpipe.elim hlink houtput).elim

theorem lister_waits (hj : walk.Joined w) {c : Child} (hc : c.streams = walk.listerStreams)
    (hwaits : c.Waits w.ends w.plumbing) :
    Running w walk.dumper ∧ w.content? walk.link ≠ some [] := by
  cases hwaits with
  | @room target pipe bytes hsink hreader hpipe hfull =>
      have hlink : pipe = walk.link := by
        cases target <;> simp [Child.sink, hc, listerStreams, Child.sinkOf] at hsink
        exact hsink.symm
      subst hlink
      constructor
      · rcases hj.owner hreader (.inl rfl) with hheld | ⟨heq, -⟩ | ⟨-, hruns⟩
        · exact absurd rfl (hj.held _ hheld).1
        · cases heq
        · exact hruns
      · rw [World.content?, hpipe]
        intro hempty
        cases hempty
        exact absurd hfull (by decide)
  | bytes hsupply _ _ => simp [Child.supply, hc, listerStreams] at hsupply

theorem dumper_waits (hj : walk.Joined w) {c : Child} (hc : c.streams = walk.dumperStreams)
    (hwaits : c.Waits w.ends w.plumbing) :
    (⟨walk.output, .reading⟩ ∈ w.held ∧ w.content? walk.output ≠ some []) ∨
      Running w walk.lister ∧ w.content? walk.link = some [] := by
  cases hwaits with
  | @room target pipe bytes hsink hreader hpipe hfull =>
      left
      have houtput : pipe = walk.output := by
        cases target <;> simp [Child.sink, hc, dumperStreams, Child.sinkOf] at hsink
        exact hsink.symm
      subst houtput
      constructor
      · rcases hj.owner hreader (.inr rfl) with hheld | ⟨heq, -⟩ | ⟨heq | heq, -⟩
        · exact hheld
        · exact absurd (congrArg PipeEnd.side heq) nofun
        · exact absurd (congrArg PipeEnd.pipe heq).symm hj.apart
        · exact absurd (congrArg PipeEnd.side heq) nofun
      · rw [World.content?, hpipe]
        intro hempty
        cases hempty
        exact absurd hfull (by decide)
  | @bytes pipe hsupply hwriter hpipe =>
      right
      have hlink : pipe = walk.link := by
        simp only [Child.supply, hc, dumperStreams, Supply.pipe.injEq] at hsupply
        exact hsupply.symm
      subst hlink
      refine ⟨?_, hpipe⟩
      rcases hj.owner hwriter (.inl rfl) with hheld | ⟨-, hruns⟩ | ⟨heq | heq, -⟩
      · exact absurd rfl (hj.held _ hheld).1
      · exact hruns
      · cases heq
      · exact absurd (congrArg PipeEnd.pipe heq) hj.apart

theorem ended (hj : walk.Joined w) (hrest : w.AtRest)
    (houtput : w.content? walk.output = some [] ∨ ⟨walk.output, .reading⟩ ∉ w.held) :
    ∃ a b, w.exit? walk.lister = some a ∧ w.exit? walk.dumper = some b := by
  obtain ⟨l, hl, hlstreams⟩ := hj.exists_lister
  obtain ⟨c, hc, hcstreams⟩ := hj.exists_dumper
  have hcended : c.ended.isSome := by
    rcases hrest.ended_or_waits (List.mem_of_getElem? hc) with hended | hwaits
    · exact hended
    · rcases hj.dumper_waits hcstreams hwaits with ⟨hheld, hfull⟩ | ⟨⟨l', hl', hrunning⟩, hempty⟩
      · exact (houtput.elim hfull fun hnot => hnot hheld).elim
      · -- the lister still runs, so it waits for room in a pipe that is empty
        rw [hl, Option.some.injEq] at hl'
        subst hl'
        rcases hrest.ended_or_waits (List.mem_of_getElem? hl) with hended | hwaits
        · simp [hrunning] at hended
        · exact absurd hempty (hj.lister_waits hlstreams hwaits).2
  have hlended : l.ended.isSome := by
    rcases hrest.ended_or_waits (List.mem_of_getElem? hl) with hended | hwaits
    · exact hended
    · obtain ⟨⟨c', hc', hrunning⟩, -⟩ := hj.lister_waits hlstreams hwaits
      rw [hc, Option.some.injEq] at hc'
      subst hc'
      simp [hrunning] at hcended
  obtain ⟨a, ha⟩ := Option.isSome_iff_exists.mp hlended
  obtain ⟨b, hb⟩ := Option.isSome_iff_exists.mp hcended
  exact ⟨a, b, by simp [World.exit?, hl, ha], by simp [World.exit?, hc, hb]⟩

theorem writing_not_mem (hj : walk.Joined w) (hrest : w.AtRest)
    (houtput : w.content? walk.output = some []) : ⟨walk.output, .writing⟩ ∉ w.ends := by
  intro hwriter
  obtain ⟨a, b, -, hb⟩ := hj.ended hrest (.inl houtput)
  rcases hj.owner hwriter (.inr rfl) with hheld | ⟨heq, -⟩ | ⟨-, c, hc, hrunning⟩
  · exact (hj.held _ hheld).2 rfl
  · exact absurd (congrArg PipeEnd.pipe heq).symm hj.apart
  · simp [World.exit?, hc, hrunning] at hb

end Joined

end Walk

end History

end ChatSpace
