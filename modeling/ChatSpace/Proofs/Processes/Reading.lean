import ChatSpace.Processes.Executor
import ChatSpace.Proofs.Processes.Sparing

namespace ChatSpace.Processes

variable {σ : Type}

structure Uses (pipe : Option Nat) (w w' : World σ) : Prop where
  held : w'.held = w.held
  copies : w'.copies = w.copies
  wiring : w'.wiring = w.wiring
  length : w'.plumbing.pipes.length = w.plumbing.pipes.length
  content : ∀ other, some other ≠ pipe → Unwired other w.wiring →
    w'.content? other = w.content? other

theorem Uses.refl (pipe : Option Nat) (w : World σ) : Uses pipe w w :=
  ⟨rfl, rfl, rfl, rfl, fun _ _ _ => rfl⟩

theorem Uses.trans {pipe : Option Nat} {u v w : World σ} (h : Uses pipe u v)
    (h' : Uses pipe v w) : Uses pipe u w where
  held := h'.held.trans h.held
  copies := h'.copies.trans h.copies
  wiring := h'.wiring.trans h.wiring
  length := h'.length.trans h.length
  content other hother hfree :=
    (h'.content other hother (h.wiring ▸ hfree)).trans (h.content other hother hfree)

inductive Exit.Gives : Exit → Nat → Prop
  | code (n) : Gives (.code n) n
  | signal (number) : Gives (.signal number) (128 + number)

namespace Exit

theorem gives_iff {exit : Exit} {n : Nat} : exit.Gives n ↔ n = exit.status := by
  constructor
  · rintro (n | number) <;> rfl
  · rintro rfl
    cases exit with
    | code n => exact .code n
    | signal number => exact .signal number

theorem status_eq_zero_iff {exit : Exit} : exit.status = 0 ↔ exit = .code 0 := by
  cases exit <;> simp [status]

end Exit

namespace World

variable {σ : Type} {w : World σ} {pipe : Nat}

def exit? (w : World σ) (h : Handle) : Option Exit :=
  w.children[h.child]?.bind Child.ended

theorem atRest_of_settleIfEmpty (h : (w.settleIfEmpty pipe).content? pipe = some []) :
    (w.settleIfEmpty pipe).AtRest := by
  unfold settleIfEmpty at h ⊢
  split
  · exact atRest_settle w
  · next hne =>
    rw [if_neg hne] at h
    exact absurd h hne

theorem settleIfEmpty_of_ne (h : w.content? pipe ≠ some []) : w.settleIfEmpty pipe = w :=
  if_neg h

def refill (w : World σ) (pipe : Nat) (bytes : Bytes) : World σ :=
  w.setPlumbing (w.plumbing.setPipe pipe bytes)

theorem content?_refill {bytes : Bytes} (h : w.content? pipe = some bytes) (other : Bytes) :
    (w.refill pipe other).content? pipe = some other := by
  obtain ⟨hlt, -⟩ := List.getElem?_eq_some_iff.mp h
  simp [content?, refill, setPlumbing, Plumbing.setPipe, hlt]

theorem receiveAll_of_nil (h : (w.settleIfEmpty pipe).content? pipe = some [])
    (hwriter : ⟨pipe, .writing⟩ ∉ (w.settleIfEmpty pipe).ends) :
    w.receiveAll pipe = (.ok [], w.settleIfEmpty pipe) := by
  rw [receiveAll]
  split <;> simp_all

theorem receiveAll_of_cons {b : UInt8} {bytes : Bytes}
    (h : (w.settleIfEmpty pipe).content? pipe = some (b :: bytes)) :
    let rest := ((w.settleIfEmpty pipe).refill pipe []).receiveAll pipe
    w.receiveAll pipe = (rest.1.map ((b :: bytes) ++ ·), rest.2) := by
  intro rest
  rw [receiveAll]
  split
  · next hnone => cases hnone.symm.trans h
  · next hnil => cases hnil.symm.trans h
  · next hcontent =>
    cases hcontent.symm.trans h
    rfl

theorem receiveAll_of_settled {v : World σ} {bytes : Bytes} (hempty : w.content? pipe = some [])
    (hsettle : w.settle = v) (hbytes : v.content? pipe = some bytes) (hne : bytes ≠ [])
    (hrest : (v.refill pipe []).AtRest) (hwriter : ⟨pipe, .writing⟩ ∉ v.ends) :
    w.receiveAll pipe = (.ok bytes, v.refill pipe []) := by
  obtain ⟨b, bytes, rfl⟩ := List.exists_cons_of_ne_nil hne
  have hfirst : w.settleIfEmpty pipe = v := (if_pos hempty).trans hsettle
  have hnone : (v.refill pipe []).content? pipe = some [] := content?_refill hbytes []
  have hstill : (v.refill pipe []).settleIfEmpty pipe = v.refill pipe [] :=
    (if_pos hnone).trans (settle_of_atRest hrest)
  have hend := receiveAll_of_nil (w := v.refill pipe []) (hstill.symm ▸ hnone)
    (hstill.symm ▸ hwriter)
  rw [receiveAll_of_cons (hfirst ▸ hbytes), hfirst, hend, hstill]
  exact Prod.ext (congrArg Except.ok (List.append_nil _)) rfl

theorem uses_step {p : Option Nat} {i : Nat} {c d : Child} {q : Plumbing}
    (hc : w.children[i]? = some c) (hstep : c.step w.ends w.plumbing = some (d, q)) :
    Uses p w { w with children := w.children.set i d, plumbing := q } where
  held := rfl
  copies := rfl
  wiring := wiring_set hc hstep
  length := (Child.spares_step hstep).length
  content other _ hfree :=
    (Child.spares_step hstep).pipes other
      (hfree c.streams (List.mem_map_of_mem (List.mem_of_getElem? hc)))

theorem stable_uses (p : Option Nat) (w : World σ) : Stable (Uses p w) :=
  fun _ _ _ _ _ h hc hstep => h.trans (uses_step hc hstep)

theorem uses_settle (p : Option Nat) (w : World σ) : Uses p w w.settle :=
  (stable_uses p w).settle (.refl p w)

theorem uses_refill (w : World σ) (pipe : Nat) (bytes : Bytes) :
    Uses (some pipe) w (w.refill pipe bytes) where
  held := rfl
  copies := rfl
  wiring := rfl
  length := List.length_set
  content _ hother _ := List.getElem?_set_ne fun h => hother (congrArg some h.symm)

theorem uses_settleIfEmpty (w : World σ) (pipe : Nat) :
    Uses (some pipe) w (w.settleIfEmpty pipe) :=
  (stable_uses _ w).settleIfEmpty pipe (.refl _ w)

theorem uses_settleIfFull (w : World σ) (pipe : Nat) :
    Uses (some pipe) w (w.settleIfFull pipe) :=
  (stable_uses _ w).settleIfFull pipe (.refl _ w)

theorem uses_receiveAll (w : World σ) (pipe : Nat) :
    Uses (some pipe) w (w.receiveAll pipe).2 :=
  (stable_uses _ w).receiveAll (fun v bytes h => h.trans (uses_refill v pipe bytes)) (.refl _ w)

theorem uses_send (w : World σ) (pipe : Nat) (data : Bytes) :
    Uses (some pipe) w (w.send pipe data).2 :=
  (stable_uses _ w).sendFrom (fun v bytes h => h.trans (uses_refill v pipe bytes)) 0 data
    (.refl _ w)

theorem uses_wait (w : World σ) (child : Nat) : Uses none w (w.wait child).2 :=
  (stable_uses _ w).wait (fun _ _ h => ⟨h.held, h.copies, h.wiring, h.length, h.content⟩) child
    (.refl _ w)

theorem receiveAll_end (hpipe : pipe < w.plumbing.pipes.length) :
    (w.receiveAll pipe).2.content? pipe = some [] ∧ (w.receiveAll pipe).2.AtRest ∧
      if ⟨pipe, .writing⟩ ∈ (w.receiveAll pipe).2.ends then
        (w.receiveAll pipe).1 = .error .deadlock
      else ∃ bytes, (w.receiveAll pipe).1 = .ok bytes := by
  fun_induction receiveAll w pipe with
  | case1 w v h =>
      have hlength : v.plumbing.pipes.length = _ := (uses_settleIfEmpty w pipe).length
      rw [content?, List.getElem?_eq_none_iff] at h
      omega
  | case2 w v h hwriter =>
      rw [if_pos hwriter]
      exact ⟨h, atRest_of_settleIfEmpty h, rfl⟩
  | case3 w v h hwriter =>
      rw [if_neg hwriter]
      exact ⟨h, atRest_of_settleIfEmpty h, [], rfl⟩
  | case4 w v b bytes h hload rest u hrest ih =>
      have hlength := ((uses_settleIfEmpty w pipe).trans (uses_refill v pipe [])).length
      obtain ⟨hcontent, hstill, hend⟩ := ih (hlength ▸ hpipe)
      rw [hrest] at hcontent hstill hend
      refine ⟨hcontent, hstill, ?_⟩
      split at hend
      · next hwriter =>
        rw [if_pos hwriter, show rest = .error .deadlock from hend]
        rfl
      · next hwriter =>
        obtain ⟨more, hmore⟩ := hend
        rw [if_neg hwriter, show rest = .ok more from hmore]
        exact ⟨(b :: bytes) ++ more, rfl⟩

theorem receiveAll_of_unwritable {bytes : Bytes} (hcontent : w.content? pipe = some bytes)
    (hfree : Unwired pipe w.wiring) (hheld : ⟨pipe, .writing⟩ ∉ w.held)
    (hcopies : w.copies = []) : (w.receiveAll pipe).1 = .ok bytes := by
  have hnobody {v : World σ} (huse : Uses (some pipe) w v) : ⟨pipe, .writing⟩ ∉ v.ends := by
    intro hwriter
    rcases (mem_ends_iff (huse.copies.trans hcopies)).mp hwriter with h | ⟨c, hc, -, h⟩
    · exact hheld (huse.held ▸ h)
    · have hwired : c.streams ∈ w.wiring := huse.wiring ▸ List.mem_map_of_mem hc
      exact hfree _ hwired _ h rfl
  have hempty {v : World σ} (huse : Uses (some pipe) w v) (hv : v.content? pipe = some []) :
      (v.receiveAll pipe).1 = .ok [] := by
    have hsettle : (v.settleIfEmpty pipe).content? pipe = some [] := by
      rw [settleIfEmpty, if_pos hv, content?_settle (huse.wiring ▸ hfree), hv]
    rw [receiveAll_of_nil hsettle (hnobody (huse.trans (uses_settleIfEmpty v pipe)))]
  cases bytes with
  | nil => exact hempty (.refl _ w) hcontent
  | cons b bytes =>
      have hstill : w.settleIfEmpty pipe = w := settleIfEmpty_of_ne (by simp [hcontent])
      have hfirst : (w.settleIfEmpty pipe).content? pipe = some (b :: bytes) := by
        rw [hstill, hcontent]
      have hrest := hempty (uses_refill w pipe []) (content?_refill hcontent [])
      rw [receiveAll_of_cons hfirst, hstill, hrest]
      exact congrArg Except.ok (List.append_nil _)

end World

end ChatSpace.Processes
