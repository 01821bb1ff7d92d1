import ChatSpace.Proofs.Processes.Rest

namespace ChatSpace.Processes

variable {σ : Type}

structure Calm (w w' : World σ) : Prop where
  wiring : w'.wiring = w.wiring
  held : ∀ e ∈ w'.held, e ∈ w.held
  copies : w'.copies = w.copies
  journal : w'.journal = w.journal
  handler : w'.handler = w.handler

theorem Calm.refl (w : World σ) : Calm w w :=
  ⟨rfl, fun _ he => he, rfl, rfl, rfl⟩

theorem Calm.trans {u v w : World σ} (h : Calm u v) (h' : Calm v w) : Calm u w where
  wiring := h'.wiring.trans h.wiring
  held e he := h.held e (h'.held e he)
  copies := h'.copies.trans h.copies
  journal := h'.journal.trans h.journal
  handler := h'.handler.trans h.handler

namespace World

theorem stable_calm (w : World σ) : Stable (Calm w) :=
  fun _ _ _ _ _ h hc hstep =>
    h.trans ⟨wiring_set hc hstep, fun _ he => he, rfl, rfl, rfl⟩

theorem calm_settle (w : World σ) : Calm w w.settle :=
  (stable_calm w).settle (.refl w)

theorem calm_setPlumbing (w : World σ) (plumbing : Plumbing) : Calm w (w.setPlumbing plumbing) :=
  ⟨rfl, fun _ he => he, rfl, rfl, rfl⟩

theorem calm_close (w : World σ) (e : PipeEnd) : Calm w (w.close e) :=
  ⟨rfl, fun _ he => (List.mem_filter.mp he).1, rfl, rfl, rfl⟩

theorem calm_receive (w : World σ) (pipe limit : Nat) : Calm w (w.receive pipe limit).2 :=
  (stable_calm w).receive (fun _ _ h => h.trans (calm_setPlumbing _ _)) limit (.refl w)

theorem calm_sendFrom (w : World σ) (pipe count : Nat) (data : Bytes) :
    Calm w (w.sendFrom pipe count data).2 :=
  (stable_calm w).sendFrom (fun _ _ h => h.trans (calm_setPlumbing _ _)) count data (.refl w)

end World

end ChatSpace.Processes
