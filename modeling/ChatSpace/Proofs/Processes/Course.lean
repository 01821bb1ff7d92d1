import ChatSpace.Proofs.Processes.Fallback
import ChatSpace.Proofs.Processes.Reading

namespace ChatSpace.Processes

variable {σ ε α β : Type}

inductive Course : World σ → List (Nat × Bytes) → World σ → Prop
  | done {w} : Course w [] w
  | child {w i c d q bytes said v} : w.children[i]? = some c →
      c.step w.ends w.plumbing = some (d, q) → q.output = w.plumbing.output ++ bytes →
      Course { w with children := w.children.set i d, plumbing := q } said v →
      Course w ((i, bytes) :: said) v
  | parent {w u said v} : u.plumbing.output = w.plumbing.output → w.children <+: u.children →
      Course u said v → Course w said v

namespace Course

variable {u v w : World σ} {said : List (Nat × Bytes)}

theorem trans {more : List (Nat × Bytes)} (h : Course u said v) (h' : Course v more w) :
    Course u (said ++ more) w := by
  induction h with
  | done => exact h'
  | child hc hstep hout _ ih => exact .child hc hstep hout (ih h')
  | parent hout hchildren _ ih => exact .parent hout hchildren (ih h')

theorem output (h : Course w said v) :
    v.plumbing.output = w.plumbing.output ++ said.flatMap Prod.snd := by
  induction h with
  | done => simp
  | child hc hstep hout _ ih => simp [ih, hout]
  | parent hout _ _ ih => rw [ih, hout]

theorem wiring (h : Course w said v) : w.wiring <+: v.wiring := by
  induction h with
  | done => exact List.prefix_refl _
  | child hc hstep _ _ ih => rwa [World.wiring, World.wiring_set hc hstep] at ih
  | parent _ hchildren _ ih => exact (hchildren.map Child.streams).trans ih

theorem quiet (h : Course w said v) :
    ∀ i bytes, (i, bytes) ∈ said → ∃ s, v.wiring[i]? = some s ∧
      (s.stdout ≠ .inherited → bytes = []) := by
  induction h with
  | done => simp
  | @child w i c d q bytes said v hc hstep hout hrest ih =>
      intro j more hmem
      rcases List.mem_cons.mp hmem with heq | hmem
      · cases heq
        have hwired : w.wiring[i]? = some c.streams := by simp [World.wiring, hc]
        obtain ⟨late, hlate⟩ := (Course.child hc hstep hout hrest).wiring
        have hlast : v.wiring[i]? = some c.streams := by
          rw [← hlate, List.getElem?_append_left (List.getElem?_eq_some_iff.mp hwired).1, hwired]
        refine ⟨c.streams, hlast, fun hne => ?_⟩
        obtain ⟨said, hsaid, hquiet⟩ := (Child.spares_step hstep).output
        rw [← hquiet hne]
        exact List.append_cancel_left (hout.symm.trans hsaid)
      · exact ih j more hmem
  | parent _ _ _ ih => exact ih

end Course

def Goes (w v : World σ) : Prop :=
  ∃ said, Course w said v

namespace Goes

variable {u v w : World σ}

theorem refl (w : World σ) : Goes w w :=
  ⟨[], .done⟩

theorem trans (h : Goes u v) (h' : Goes v w) : Goes u w := by
  obtain ⟨said, hsaid⟩ := h
  obtain ⟨more, hmore⟩ := h'
  exact ⟨said ++ more, hsaid.trans hmore⟩

theorem of_parent (hout : v.plumbing.output = w.plumbing.output)
    (hchildren : w.children <+: v.children) : Goes w v :=
  ⟨[], .parent hout hchildren .done⟩

theorem wiring (h : Goes w v) : w.wiring <+: v.wiring := by
  obtain ⟨said, hcourse⟩ := h
  exact hcourse.wiring

end Goes

namespace World

theorem stable_goes (w : World σ) : Stable (Goes w) := by
  intro v i c d q h hc hstep
  obtain ⟨bytes, hout, -⟩ := (Child.spares_step hstep).output
  exact h.trans ⟨[(i, bytes)], .child hc hstep hout .done⟩

theorem goes_receiveAll (w : World σ) (pipe : Nat) : Goes w (w.receiveAll pipe).2 :=
  (stable_goes w).receiveAll (fun _ _ h => h.trans (.of_parent rfl (List.prefix_refl _))) (.refl w)

theorem goes_wait (w : World σ) (child : Nat) : Goes w (w.wait child).2 :=
  (stable_goes w).wait (fun _ _ h => h.trans (.of_parent rfl (List.prefix_refl _))) child (.refl w)

end World

namespace Executor

theorem goes_spawn (s : Spec) (w : World σ) : Goes w ((spawn s).start w).2 := by
  obtain ⟨n, labels, starts, ⟨e, hstart⟩ | ⟨c, l, -, hstart⟩⟩ := start_spawn_cases s w
  · rw [hstart, World.closeAll_eq]
    exact .of_parent rfl (List.prefix_refl _)
  · rw [hstart, World.closeAll_eq]
    exact .of_parent rfl (List.prefix_append _ _)

theorem goes_reap (h : Handle) (brokenPipeExpected : Bool) (w : World σ) :
    Goes w ((reap h brokenPipeExpected).start w).2 := by
  apply (w.goes_wait h.child).trans
  rw [reap, Act.start_bind_does]
  cases (w.wait h.child).1 with
  | error source =>
      simp only
      rw [start_raise]
      exact .of_parent rfl (List.prefix_refl _)
  | ok exit =>
      simp only
      split <;> exact .of_parent rfl (List.prefix_refl _)

end Executor

end ChatSpace.Processes
