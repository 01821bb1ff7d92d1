import ChatSpace.Proofs.Processes.Collecting
import ChatSpace.Proofs.Processes.Growth

namespace ChatSpace.Processes

variable {σ : Type}

inductive Fed (pipe : Nat) : World σ → Bytes → World σ → Prop
  | done {w} : Fed pipe w [] w
  | child {w i c d q fed v} : w.children[i]? = some c → c.step w.ends w.plumbing = some (d, q) →
      Fed pipe { w with children := w.children.set i d, plumbing := q } fed v → Fed pipe w fed v
  | put {w bytes more fed v} : w.content? pipe = some bytes →
      Fed pipe (w.refill pipe (bytes ++ more)) fed v → Fed pipe w (more ++ fed) v

variable {u v w : World σ} {pipe : Nat} {bytes data fed : Bytes}

theorem Plumbing.pipes_put {sink : Sink} (hsink : sink ≠ .pipe pipe) (p : Plumbing)
    (taken : Bytes) : (p.put taken sink).pipes[pipe]? = p.pipes[pipe]? := by
  cases sink with
  | pipe other => exact List.getElem?_set_ne fun heq => hsink (congrArg Sink.pipe heq)
  | file directory path =>
      simp only [put, append]
      split <;> rfl
  | _ => rfl

namespace Child

variable {c d : Child} {p q : Plumbing} {ends : List PipeEnd}

theorem suffix_of_step (h : c.step ends p = some (d, q))
    (hwriter : ⟨pipe, .writing⟩ ∉ c.streams.ends) (hbytes : p.pipes[pipe]? = some bytes) :
    ∃ left, q.pipes[pipe]? = some left ∧ left <:+ bytes := by
  have hsame (hpipes : q.pipes[pipe]? = p.pipes[pipe]?) :
      ∃ left, q.pipes[pipe]? = some left ∧ left <:+ bytes :=
    ⟨bytes, hpipes.trans hbytes, List.suffix_refl bytes⟩
  have hput (target : Output) (taken : Bytes) :
      (p.put taken (c.sink target)).pipes[pipe]? = p.pipes[pipe]? :=
    Plumbing.pipes_put (fun hsink => hwriter (writing_mem_of_sink hsink)) p taken
  cases (steps_of_step h).2 with
  | wrote => exact hsame (hput _ _)
  | wrotePartly => exact hsame (hput _ _)
  | @took _ _ _ _ source content n _ _ hcontent =>
      by_cases hsource : source = pipe
      · subst hsource
        obtain rfl := Option.some.inj (hbytes.symm.trans hcontent)
        have hlt := (List.getElem?_eq_some_iff.mp hbytes).1
        exact ⟨_, List.getElem?_set_self hlt, List.drop_suffix n bytes⟩
      · exact hsame (List.getElem?_set_ne hsource)
  | _ => exact hsame rfl

end Child

namespace Fed

theorem trans {more : Bytes} (h : Fed pipe u fed v) (h' : Fed pipe v more w) :
    Fed pipe u (fed ++ more) w := by
  induction h with
  | done => exact h'
  | child hc hstep _ ih => exact .child hc hstep (ih h')
  | put hcontent _ ih =>
      rw [List.append_assoc]
      exact .put hcontent (ih h')

theorem append (hbytes : w.content? pipe = some bytes) (more : Bytes) :
    Fed pipe w more (w.refill pipe (bytes ++ more)) := by
  have hfed : Fed pipe w (more ++ []) (w.refill pipe (bytes ++ more)) := .put hbytes .done
  rwa [List.append_nil] at hfed

theorem uses (h : Fed pipe w fed v) : Uses (some pipe) w v := by
  induction h with
  | done => exact .refl _ _
  | child hc hstep _ ih => exact (World.uses_step hc hstep).trans ih
  | put _ _ ih => exact (World.uses_refill _ pipe _).trans ih

theorem journal (h : Fed pipe w fed v) : v.journal = w.journal := by
  induction h with
  | done => rfl
  | child _ _ _ ih => exact ih
  | put _ _ ih => exact ih

theorem fifo (h : Fed pipe w fed v) (hnobody : ∀ s ∈ w.wiring, ⟨pipe, .writing⟩ ∉ s.ends)
    (hbytes : w.content? pipe = some bytes) :
    ∃ left, v.content? pipe = some left ∧ left <:+ bytes ++ fed := by
  induction h generalizing bytes with
  | done => exact ⟨bytes, hbytes, by simp⟩
  | child hc hstep _ ih =>
      have hwiring := (World.uses_step (p := none) hc hstep).wiring
      have hwired := hnobody _ (List.mem_map_of_mem (List.mem_of_getElem? hc))
      obtain ⟨next, hnext, front, rfl⟩ := Child.suffix_of_step hstep hwired hbytes
      obtain ⟨left, hleft, hsuffix⟩ := ih (hwiring ▸ hnobody) hnext
      refine ⟨left, hleft, hsuffix.trans ?_⟩
      rw [List.append_assoc]
      exact List.suffix_append _ _
  | @put w before more fed v hcontent _ ih =>
      obtain rfl := Option.some.inj (hbytes.symm.trans hcontent)
      obtain ⟨left, hleft, hsuffix⟩ := ih hnobody (World.content?_refill hcontent _)
      exact ⟨left, hleft, by rwa [List.append_assoc] at hsuffix⟩

end Fed

def Streams.feeding (pipe : Nat) : Streams :=
  { stdin := .provisioned ⟨pipe, .reading⟩ }

namespace World

theorem stable_fed (w : World σ) (pipe : Nat) : Stable (Fed pipe w []) :=
  fun _ _ _ _ _ h hc hstep => h.trans (.child hc hstep .done)

theorem fed_settleIfFull (w : World σ) (pipe : Nat) : Fed pipe w [] (w.settleIfFull pipe) :=
  (stable_fed w pipe).settleIfFull pipe .done

theorem atRest_of_full (h : (w.settleIfFull pipe).content? pipe = some bytes)
    (hfull : Plumbing.capacity ≤ bytes.length) : (w.settleIfFull pipe).AtRest := by
  unfold settleIfFull at h ⊢
  split at h
  · next hnone => exact nomatch hnone.symm.trans h
  · next hcontent =>
    split at h
    · next hroom =>
      rw [if_pos hroom]
      exact atRest_settle w
    · next hroom =>
      obtain rfl := Option.some.inj (hcontent.symm.trans h)
      exact absurd hfull hroom

theorem fed_put (hbytes : w.content? pipe = some bytes) (taken : Bytes) :
    Fed pipe w taken (w.setPlumbing (w.plumbing.put taken (.pipe pipe))) := by
  have hcontent : w.plumbing.pipes[pipe]? = some bytes := hbytes
  rw [Plumbing.put, hcontent, Option.getD_some]
  exact .append hbytes taken

structure Attached (pipe : Nat) (h : Handle) (w : World σ) : Prop where
  opened : pipe < w.plumbing.pipes.length
  reader : ⟨pipe, .reading⟩ ∉ w.held
  copies : w.copies = []
  child : w.wiring[h.child]? = some (.feeding pipe)
  alone : ∀ s ∈ w.wiring, ∀ e ∈ s.ends, e.pipe = pipe → s = .feeding pipe

namespace Attached

variable {h : Handle}

theorem uses {p : Option Nat} (hattached : w.Attached pipe h) (huse : Uses p w v) :
    v.Attached pipe h where
  opened := huse.length ▸ hattached.opened
  reader := huse.held ▸ hattached.reader
  copies := huse.copies.trans hattached.copies
  child := huse.wiring ▸ hattached.child
  alone := huse.wiring ▸ hattached.alone

theorem exists_content (hattached : w.Attached pipe h) : ∃ bytes, w.content? pipe = some bytes :=
  ⟨_, List.getElem?_eq_getElem hattached.opened⟩

theorem close (hattached : w.Attached pipe h) (e : PipeEnd) : (w.close e).Attached pipe h :=
  ⟨hattached.opened, fun hheld => hattached.reader (List.mem_filter.mp hheld).1,
    hattached.copies, hattached.child, hattached.alone⟩

theorem writing_not_mem (hattached : w.Attached pipe h) :
    ∀ s ∈ w.wiring, ⟨pipe, .writing⟩ ∉ s.ends := by
  intro s hs he
  rw [hattached.alone s hs _ he rfl] at he
  exact nomatch List.mem_singleton.mp he

theorem ended_or_empty (hattached : w.Attached pipe h) (hrest : w.AtRest) {c : Child}
    (hc : c ∈ w.children) (hstreams : c.streams = .feeding pipe) :
    c.ended.isSome ∨ w.content? pipe = some [] ∧ ⟨pipe, .writing⟩ ∈ w.held := by
  rcases hrest.ended_or_waits hc with hended | hwaits
  · exact .inl hended
  · cases hwaits with
    | room hsink _ _ _ =>
        have hend := Child.writing_mem_of_sink hsink
        rw [hstreams] at hend
        exact nomatch List.mem_singleton.mp hend
    | bytes hsupply hwriter hempty =>
        have hend := Child.reading_mem_of_supply hsupply
        rw [hstreams] at hend
        cases List.mem_singleton.mp hend
        refine .inr ⟨hempty, ?_⟩
        rcases (mem_ends_iff hattached.copies).mp hwriter with hheld | ⟨c', hc', -, hend'⟩
        · exact hheld
        · exact absurd hend' (hattached.writing_not_mem _ (List.mem_map_of_mem hc'))

theorem ended (hattached : w.Attached pipe h) (hclosed : ⟨pipe, .writing⟩ ∉ w.held) :
    ∃ exit, w.settle.exit? h = some exit := by
  have hlast := hattached.uses (uses_settle none w)
  obtain ⟨c, hc, hstreams⟩ := exists_child hlast.child
  rcases hlast.ended_or_empty (atRest_settle w) (List.mem_of_getElem? hc) hstreams with
    hended | ⟨-, hheld⟩
  · obtain ⟨exit, hexit⟩ := Option.isSome_iff_exists.mp hended
    exact ⟨exit, by simp [exit?, hc, hexit]⟩
  · exact absurd (held_settle w ▸ hheld) hclosed

theorem deliver_ne_blocked (hattached : w.Attached pipe h) (data : Bytes) :
    (w.settleIfFull pipe).plumbing.deliver (w.settleIfFull pipe).ends data (.pipe pipe) ≠
      .blocked := by
  intro hblocked
  obtain ⟨_, bytes, ⟨⟩, hreader, hcontent, hfull⟩ := Child.deliver_eq_blocked hblocked
  have hlast := hattached.uses (uses_settleIfFull w pipe)
  rcases (mem_ends_iff hlast.copies).mp hreader with hheld | ⟨c, hc, hrunning, hend⟩
  · exact hlast.reader hheld
  · have hstreams := hlast.alone _ (List.mem_map_of_mem hc) _ hend rfl
    rcases hlast.ended_or_empty (atRest_of_full hcontent hfull) hc hstreams with
      hended | ⟨hempty, -⟩
    · rw [hrunning] at hended
      cases hended
    · cases Option.some.inj (hempty.symm.trans hcontent)
      exact absurd hfull (by decide)

theorem sendFrom (hattached : w.Attached pipe h) (count : Nat) (data : Bytes) :
    ∃ taken, taken <+: data ∧ Fed pipe w taken (w.sendFrom pipe count data).2 ∧
      ((w.sendFrom pipe count data).1 = .accepted (count + taken.length) ∧
          (data ≠ [] → 0 < count + taken.length) ∨
        (w.sendFrom pipe count data).1 = .brokenPipe ∧ count = 0 ∧ taken = []) := by
  fun_induction World.sendFrom w pipe count data with
  | case1 w count data v plumbing hdeliver =>
      have hfirst := fed_settleIfFull w pipe
      obtain ⟨bytes, hbytes⟩ := (hattached.uses hfirst.uses).exists_content
      obtain rfl := Plumbing.eq_put_of_done hdeliver
      refine ⟨data, List.prefix_refl data, hfirst.trans (fed_put hbytes data),
        .inl ⟨rfl, fun hd => ?_⟩⟩
      exact Nat.add_pos_right count (List.length_pos_iff.mpr hd)
  | case2 w count data v rest plumbing hdeliver hload ih =>
      have hfirst := fed_settleIfFull w pipe
      obtain ⟨bytes, hbytes⟩ := (hattached.uses hfirst.uses).exists_content
      obtain ⟨taken, rfl, rfl⟩ := Plumbing.eq_put_of_partly hdeliver
      have hstart := hfirst.trans (fed_put hbytes taken)
      have hcount : (taken ++ rest).length - rest.length = taken.length := by
        rw [List.length_append, Nat.add_sub_cancel]
      have hpos : 0 < taken.length := by
        have hshorter := hload.1
        rw [List.length_append] at hshorter
        exact Nat.lt_add_left_iff_pos.mp hshorter
      obtain ⟨more, hmore, hlast, hanswer⟩ := ih (hattached.uses hstart.uses)
      refine ⟨taken ++ more, (List.prefix_append_right_inj taken).mpr hmore,
        hstart.trans hlast, ?_⟩
      rw [hcount] at hanswer ⊢
      rw [List.length_append, ← Nat.add_assoc]
      rcases hanswer with ⟨hanswer, -⟩ | ⟨-, hzero, -⟩
      · exact .inl ⟨hanswer, fun _ => Nat.add_pos_left (Nat.add_pos_right count hpos) _⟩
      · -- some bytes went through, so a break that comes now is not told
        exact absurd (Nat.eq_zero_of_add_eq_zero_left hzero) (Nat.ne_of_gt hpos)
  | case3 w count data v hdeliver => exact absurd hdeliver (hattached.deliver_ne_blocked data)
  | case4 w count data v hdeliver =>
      refine ⟨[], List.nil_prefix, fed_settleIfFull w pipe, ?_⟩
      split
      · next hcount => exact .inr ⟨rfl, hcount, rfl⟩
      · next hcount => exact .inl ⟨rfl, fun _ => Nat.pos_of_ne_zero hcount⟩

end Attached

end World

end ChatSpace.Processes
