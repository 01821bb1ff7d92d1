import ChatSpace.Proofs.History.Pipeline
import ChatSpace.Proofs.Processes.Speaking
import ChatSpace.Proofs.Writing.Writer
import ChatSpace.Space.Read
import Mathlib.Data.Prod.Lex

namespace ChatSpace

namespace History

open Processes

variable {σ τ : Type}

namespace Walk

structure Untouched (walk : Walk) (w v : World σ) : Prop where
  lister : v.children[walk.lister.child]? = w.children[walk.lister.child]?
  dumper : v.children[walk.dumper.child]? = w.children[walk.dumper.child]?
  others : ∀ (i : Nat) (c : Child), v.children[i]? = some c →
    w.children[i]? = some c ∨ ∀ e ∈ c.streams.ends, e.pipe ≠ walk.link ∧ e.pipe ≠ walk.output
  held : ∀ e : PipeEnd, e.pipe = walk.link ∨ e.pipe = walk.output → (e ∈ v.held ↔ e ∈ w.held)
  copies : ∀ e : PipeEnd, e.pipe = walk.link ∨ e.pipe = walk.output → (e ∈ v.copies ↔ e ∈ w.copies)
  link : v.content? walk.link = w.content? walk.link
  output : v.content? walk.output = w.content? walk.output

/-- From one world to a later one while nobody reads for the walk. Children move, any of them may
die, and the parent does what is no business of the walk. -/
inductive Elsewhere (walk : Walk) : World σ → World σ → Prop
  | done {w} : Elsewhere walk w w
  | child {w i c d q w'} : w.children[i]? = some c → c.step w.ends w.plumbing = some (d, q) →
      Elsewhere walk { w with children := w.children.set i d, plumbing := q } w' →
      Elsewhere walk w w'
  | dies {w i c exit w'} : w.children[i]? = some c → c.ended = none →
      Elsewhere walk { w with children := w.children.set i (c.endWith exit) } w' →
      Elsewhere walk w w'
  | parent {w v w'} : walk.Untouched w v → Elsewhere walk v w' → Elsewhere walk w w'

variable {walk : Walk} {u v w w' : World σ} {before : Bytes}

theorem Elsewhere.trans (h : walk.Elsewhere u v) (h' : walk.Elsewhere v w) :
    walk.Elsewhere u w := by
  induction h with
  | done => exact h'
  | child hc hstep _ ih => exact .child hc hstep (ih h')
  | dies hc hrun _ ih => exact .dies hc hrun (ih h')
  | parent hsame _ ih => exact .parent hsame (ih h')

theorem stable_elsewhere (walk : Walk) (w : World σ) : World.Stable (walk.Elsewhere w) :=
  fun _ _ _ _ _ h hc hstep => h.trans (.child hc hstep .done)

structure Taken (walk : Walk) (before : Bytes) (w : World σ) : Prop extends Joined walk w where
  said : ∃ bytes, w.content? walk.output = some bytes ∧
    w.said? walk.dumper = some (before ++ bytes)

theorem taken_of_launch {q : Query} (hsound : w.Sound)
    (h : (launch q).start w = (.ok walk, w')) : walk.Taken [] w' := by
  refine ⟨joined_of_launch hsound h, [], ?_⟩
  obtain ⟨w₃, hlink, houtput, hlister, hdumper⟩ := launch_eq_ok h
  obtain ⟨houtput, -⟩ := Executor.openPipe_eq_ok houtput
  have hplumbing (s : Spec) {u v : World σ} {h : Handle}
      (hspawn : (Executor.spawn s).start u = (.ok h, v)) : v.plumbing = u.plumbing :=
    (congrArg (·.2.plumbing) hspawn).symm.trans (Executor.plumbing_spawn s u)
  have hpipes : w'.plumbing = w.withPipe.withPipe.plumbing :=
    (hplumbing _ hdumper).trans (hplumbing _ hlister)
  refine ⟨?_, Executor.said?_of_spawn hdumper⟩
  rw [World.content?, hpipes, houtput]
  exact List.getElem?_concat_length

structure Drained (walk : Walk) (w : World σ) : Prop where
  content : w.content? walk.output = some []
  dumper : ∃ exit, w.exit? walk.dumper = some exit

/-- What the dumper has left to do, and then how many bytes are on their way to the reader. -/
def rank (walk : Walk) (w : World σ) : ℕ ×ₗ ℕ :=
  toLex (World.weight w.children[walk.dumper.child]?.toList,
    World.pending w.children[walk.dumper.child]?.toList +
      ((w.content? walk.output).getD []).length)

structure Lasts (walk : Walk) (before : Bytes) (w w' : World σ) : Prop where
  taken : walk.Taken before w'
  rank : walk.rank w' ≤ walk.rank w
  drained : walk.Drained w → walk.Drained w'

theorem Lasts.trans (h : walk.Lasts before u v) (h' : walk.Lasts before v w) :
    walk.Lasts before u w :=
  ⟨h'.taken, h'.rank.trans h.rank, fun hdrained => h'.drained (h.drained hdrained)⟩

theorem rank_eq {c : Child} {bytes : Bytes} (hc : w.children[walk.dumper.child]? = some c)
    (hbytes : w.content? walk.output = some bytes) :
    walk.rank w = toLex (c.weight, c.pending + bytes.length) := by
  simp [rank, hc, hbytes, World.weight, World.pending, total]

theorem speaks_dumper (hapart : walk.link ≠ walk.output) :
    Child.Speaks walk.output walk.dumperStreams where
  stdout := rfl
  stdin h := hapart (congrArg PipeEnd.pipe (Disposition.provisioned.inj h))
  stderr := nofun

theorem Joined.reserved (h : walk.Joined w) : w.Reserved walk.dumper walk.output where
  speaks := ⟨walk.dumperStreams, h.dumper, speaks_dumper h.apart⟩
  others i s hs hi e he := by
    by_cases hlister : i = walk.lister.child
    · subst hlister
      obtain rfl : e = ⟨walk.link, .writing⟩ := by
        rw [Option.some.inj (hs.symm.trans h.lister)] at he
        exact List.mem_singleton.mp he
      exact h.apart
    · exact (h.others i s hs hlister hi e he).2

namespace Taken

theorem lasts_of_same (h : walk.Taken before w) (hj : walk.Joined w')
    (hdumper : w'.children[walk.dumper.child]? = w.children[walk.dumper.child]?)
    (hcontent : w'.content? walk.output = w.content? walk.output) : walk.Lasts before w w' where
  taken :=
    { hj with said := by simpa only [World.said?, hdumper, hcontent] using h.said }
  rank := by rw [rank, rank, hdumper, hcontent]
  drained hdrained :=
    ⟨hcontent.trans hdrained.content, by simpa only [World.exit?, hdumper] using hdrained.dumper⟩

theorem lasts_of_emits (h : walk.Taken before w) (hj : walk.Joined w') {c d : Child}
    {bytes : Bytes} (hc : w.children[walk.dumper.child]? = some c) (hrun : c.ended = none)
    (hd : w'.children[walk.dumper.child]? = some d)
    (hbytes : w.content? walk.output = some bytes)
    (hemits : Child.Emits walk.output bytes c d w'.plumbing) : walk.Lasts before w w' := by
  obtain ⟨more, hsaid, hcontent, hless⟩ := hemits
  have hcontent : w'.content? walk.output = some (bytes ++ more) := hcontent
  constructor
  case taken =>
    obtain ⟨held, hheld, hbefore⟩ := h.said
    obtain rfl := Option.some.inj (hbytes.symm.trans hheld)
    refine { hj with said := ⟨_, hcontent, ?_⟩ }
    rw [World.said?, hc] at hbefore
    rw [World.said?, hd, Option.map_some, hsaid, Option.some.inj hbefore, List.append_assoc]
  case rank =>
    rw [rank_eq hc hbytes, rank_eq hd hcontent, Prod.Lex.toLex_le_toLex, List.length_append]
    rcases hless with hless | ⟨hsame, hless⟩
    · exact .inl hless
    · exact .inr ⟨hsame, by omega⟩
  case drained =>
    rintro ⟨-, exit, hexit⟩
    simp [World.exit?, hc, hrun] at hexit

theorem lasts_child (h : walk.Taken before w) {i : Nat} {c d : Child} {q : Plumbing}
    (hc : w.children[i]? = some c) (hstep : c.step w.ends w.plumbing = some (d, q)) :
    walk.Lasts before w { w with children := w.children.set i d, plumbing := q } := by
  have hj : walk.Joined { w with children := w.children.set i d, plumbing := q } :=
    h.toJoined.of_subset (World.wiring_set hc hstep) (fun _ he => he) rfl
  obtain ⟨bytes, hbytes, -⟩ := h.said
  have hlt := (List.getElem?_eq_some_iff.mp hc).1
  rcases h.reserved.step hc hstep hbytes with ⟨rfl, hemits⟩ | ⟨hi, hsame⟩
  · exact h.lasts_of_emits hj hc (Child.steps_of_step hstep).1 (List.getElem?_set_self hlt) hbytes
      hemits
  · exact h.lasts_of_same hj (List.getElem?_set_ne hi) (hsame.trans hbytes.symm)

theorem lasts_dies (h : walk.Taken before w) {i : Nat} {c : Child} (exit : Exit)
    (hc : w.children[i]? = some c) (hrun : c.ended = none) :
    walk.Lasts before w { w with children := w.children.set i (c.endWith exit) } := by
  have hlt := (List.getElem?_eq_some_iff.mp hc).1
  have hj : walk.Joined { w with children := w.children.set i (c.endWith exit) } :=
    h.toJoined.of_subset (World.wiring_set_of_streams hc rfl) (fun _ he => he) rfl
  by_cases hi : i = walk.dumper.child
  · subst hi
    obtain ⟨bytes, hbytes, -⟩ := h.said
    exact h.lasts_of_emits hj hc hrun (List.getElem?_set_self hlt) hbytes
      (Child.emits_nothing rfl hbytes (.inl (Child.weight_endWith_lt hrun exit)))
  · exact h.lasts_of_same hj (List.getElem?_set_ne hi) rfl

theorem lasts_parent (h : walk.Taken before w) (hsame : walk.Untouched w v) :
    walk.Lasts before w v := by
  have hwiring (i : Nat) (hi : v.children[i]? = w.children[i]?) : v.wiring[i]? = w.wiring[i]? := by
    simp [World.wiring, hi]
  have hj : walk.Joined v := by
    constructor
    case apart => exact h.apart
    case lister => exact (hwiring _ hsame.lister).trans h.lister
    case dumper => exact (hwiring _ hsame.dumper).trans h.dumper
    case held =>
      intro e he
      refine ⟨fun hlink => ?_, fun hwriter => ?_⟩
      · exact (h.held e ((hsame.held e (.inl hlink)).mp he)).1 hlink
      · exact (h.held e ((hsame.held e (.inr (congrArg PipeEnd.pipe hwriter))).mp he)).2 hwriter
    case copies =>
      intro e he
      refine ⟨fun hlink => ?_, fun houtput => ?_⟩
      · exact (h.copies e ((hsame.copies e (.inl hlink)).mp he)).1 hlink
      · exact (h.copies e ((hsame.copies e (.inr houtput)).mp he)).2 houtput
    case others =>
      intro i s hs hlister hdumper
      simp only [World.wiring, List.getElem?_map, Option.map_eq_some_iff] at hs
      obtain ⟨c, hc, rfl⟩ := hs
      rcases hsame.others i c hc with hold | hnew
      · exact h.others i c.streams (by simp [World.wiring, hold]) hlister hdumper
      · exact hnew
  exact h.lasts_of_same hj hsame.dumper hsame.output

theorem elsewhere (h : walk.Taken before w) (hless : walk.Elsewhere w w') :
    walk.Lasts before w w' := by
  induction hless with
  | done => exact ⟨h, le_rfl, id⟩
  | child hc hstep _ ih =>
      have hfirst := h.lasts_child hc hstep
      exact hfirst.trans (ih hfirst.taken)
  | @dies w i c exit w' hc hrun _ ih =>
      have hfirst := h.lasts_dies exit hc hrun
      exact hfirst.trans (ih hfirst.taken)
  | parent hsame _ ih =>
      have hfirst := h.lasts_parent hsame
      exact hfirst.trans (ih hfirst.taken)

theorem receive (h : walk.Taken before w) (limit : Nat) :
    ∃ part w', w.receive walk.output (limit + 1) = (.ok part, w') ∧
      walk.Taken (before ++ part) w' ∧ (part = [] → walk.Drained w') ∧
      (part ≠ [] → walk.rank w' < walk.rank w) := by
  have helsewhere : walk.Elsewhere w (w.settleIfEmpty walk.output) :=
    (stable_elsewhere walk w).settleIfEmpty walk.output .done
  obtain ⟨htaken, hrank, -⟩ := h.elsewhere helsewhere
  generalize hv : w.settleIfEmpty walk.output = v at htaken hrank
  obtain ⟨bytes, hbytes, hsaid⟩ := htaken.said
  cases bytes with
  | nil =>
      have hrest : v.AtRest := hv ▸ World.atRest_of_settleIfEmpty (hv ▸ hbytes)
      obtain ⟨a, b, -, hb⟩ := htaken.ended hrest (.inl hbytes)
      refine ⟨[], v, ?_, by rwa [List.append_nil], fun _ => ⟨hbytes, b, hb⟩, absurd rfl⟩
      simp [World.receive, hv, hbytes, htaken.writing_not_mem hrest hbytes]
  | cons b bytes =>
      let part := (b :: bytes).take (limit + 1)
      let rest := (b :: bytes).drop (limit + 1)
      have hcontent : (v.refill walk.output rest).content? walk.output = some rest :=
        World.content?_refill hbytes rest
      refine ⟨part, v.refill walk.output rest, ?_, ?_, (absurd · (List.cons_ne_nil _ _)),
        fun _ => ?_⟩
      · simp [World.receive, hv, hbytes, World.refill, part, rest]
      · refine { htaken.toJoined.of_subset rfl (fun _ he => he) rfl with
          said := ⟨rest, hcontent, ?_⟩ }
        rw [List.append_assoc, List.take_append_drop]
        exact hsaid
      · obtain ⟨c, hc, -⟩ := htaken.exists_dumper
        have hsame : (v.refill walk.output rest).children[walk.dumper.child]? = some c := hc
        refine lt_of_lt_of_le ?_ hrank
        rw [rank_eq hc hbytes, rank_eq hsame hcontent, Prod.Lex.toLex_lt_toLex]
        refine .inr ⟨rfl, ?_⟩
        simp only [rest, List.length_drop, List.length_cons]
        omega

end Taken

end Walk

/-- While what the callback keeps beside the world has a property, the callback preserves it and
leaves the pipes and the helpers of a walk alone. -/
structure Discreet (walk : Walk) (keeps : τ → Prop)
    (callback : Commit → World σ × τ → Answer × (World σ × τ)) : Prop where
  kept (c s) : keeps s.2 → keeps (callback c s).2.2
  elsewhere (c s) : keeps s.2 → walk.Elsewhere s.1 (callback c s).2.1

namespace Walk

variable {walk : Walk} {w w' : World σ}

theorem elsewhere_of_same (hchildren : w'.children = w.children)
    (hheld : ∀ e, e.pipe = walk.link ∨ e.pipe = walk.output → (e ∈ w'.held ↔ e ∈ w.held))
    (hcopies : w'.copies = w.copies) (hlink : w'.content? walk.link = w.content? walk.link)
    (houtput : w'.content? walk.output = w.content? walk.output) : walk.Elsewhere w w' := by
  refine .parent ⟨?_, ?_, ?_, hheld, ?_, hlink, houtput⟩ .done
  · rw [hchildren]
  · rw [hchildren]
  · exact fun i c hc => .inl (hchildren ▸ hc)
  · exact fun e _ => by rw [hcopies]

theorem elsewhere_speak (walk : Walk) (w : World σ) (said : Bytes) :
    walk.Elsewhere w (w.speak said) :=
  elsewhere_of_same rfl (fun _ _ => .rfl) rfl rfl rfl

theorem elsewhere_close {e : PipeEnd} (hlink : e.pipe ≠ walk.link)
    (houtput : e.pipe ≠ walk.output) : walk.Elsewhere w (w.close e) := by
  refine elsewhere_of_same rfl (fun f hf => ?_) rfl rfl rfl
  have hne : f ≠ e := by
    rintro rfl
    exact hf.elim hlink houtput
  simp [World.close, hne]

theorem elsewhere_sendFrom {pipe : Nat} (hlink : pipe ≠ walk.link) (houtput : pipe ≠ walk.output)
    (w : World σ) (count : Nat) (data : Bytes) :
    walk.Elsewhere w (w.sendFrom pipe count data).2 := by
  have hset (v : World σ) (bytes : Bytes) (h : walk.Elsewhere w v) :
      walk.Elsewhere w (v.setPlumbing (v.plumbing.setPipe pipe bytes)) :=
    h.trans (elsewhere_of_same rfl (fun _ _ => .rfl) rfl (List.getElem?_set_ne hlink)
      (List.getElem?_set_ne houtput))
  exact (stable_elsewhere walk w).sendFrom hset count data .done

end Walk

def Aside (walk : Walk) (writer : Writing.Writer) : Prop :=
  ∀ pipe ∈ writer.pipe?, pipe ≠ walk.link ∧ pipe ≠ walk.output

theorem elsewhere_writeAll {walk : Walk} {writer : Writing.Writer} (h : Aside walk writer)
    (data : Bytes) (w : World σ) : walk.Elsewhere w (writer.writeAll data w).2.2 := by
  apply writer.writeAll_keeps ?_ ?_ ?_ data .done
  · intro pipe hpipe data v hv
    obtain ⟨hlink, houtput⟩ := h pipe hpipe
    exact hv.trans (Walk.elsewhere_sendFrom hlink houtput v 0 data)
  · intro pipe hpipe v hv
    obtain ⟨hlink, houtput⟩ := h pipe hpipe
    exact hv.trans (Walk.elsewhere_close hlink houtput)
  · intro said v hv
    exact hv.trans (Walk.elsewhere_speak walk v said)

theorem discreet_showCommit (walk : Walk) (space : Space) (options : Space.ReadOptions) :
    Discreet walk (fun showing => Aside walk showing.writer)
      (space.showCommit options : Commit → World σ × Space.Showing → _) := by
  have hpair (c : Commit) (s : World σ × Space.Showing) :
      ∃ data, (space.showCommit options c s).2.1 = (s.2.writer.writeAll data s.1).2.2 ∧
        (space.showCommit options c s).2.2.writer = (s.2.writer.writeAll data s.1).2.1 := by
    refine ⟨Utf8.encode (Space.text (Space.lines space.colour options (0 < s.2.shown) c)), ?_⟩
    unfold Space.showCommit
    split <;> next heq =>
      rw [heq]
      exact ⟨rfl, rfl⟩
  constructor
  case kept =>
    intro c s hs pipe hpipe
    obtain ⟨data, -, hwriter⟩ := hpair c s
    rw [hwriter] at hpipe
    rcases s.2.writer.pipe?_writeAll data s.1 with hnone | hsame
    · rw [hnone] at hpipe
      cases hpipe
    · exact hs pipe (hsame ▸ hpipe)
  case elsewhere =>
    intro c s hs
    obtain ⟨data, hworld, -⟩ := hpair c s
    rw [hworld]
    exact elsewhere_writeAll hs data s.1

end History

end ChatSpace
