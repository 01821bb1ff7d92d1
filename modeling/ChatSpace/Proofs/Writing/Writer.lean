import ChatSpace.Proofs.Processes.Calm
import ChatSpace.Proofs.Processes.Growth
import ChatSpace.Writing.Writer

namespace ChatSpace.Writing

open Processes

variable {S σ : Type}

section Keeps

variable {c : Channel S} {P : S → Prop} {s : S}

theorem Channel.write_keeps (hsend : ∀ data s, P s → P (c.send data s).2)
    (hclose : ∀ s, P s → P (c.close s)) (isOpen : Bool) (data : Bytes) (h : P s) :
    P (c.write isOpen data s).2.2 := by
  have hsent := hsend data s h
  unfold write
  split
  · split
    · next heq =>
      rw [heq] at hsent
      exact hsent
    · next heq =>
      rw [heq] at hsent
      exact hclose _ hsent
    · next heq =>
      rw [heq] at hsent
      exact hsent
  · exact h

theorem Channel.writeAll_keeps (hsend : ∀ data s, P s → P (c.send data s).2)
    (hclose : ∀ s, P s → P (c.close s)) (isOpen : Bool) (data : Bytes) (h : P s) :
    P (c.writeAll isOpen data s).2.2 := by
  have hwrite (isOpen : Bool) (data : Bytes) (s : S) (h : P s) :=
    write_keeps hsend hclose isOpen data h
  fun_induction c.writeAll isOpen data s with
  | case1 isOpen s => exact h
  | case2 isOpen data s hd e isOpen' s' heq => simpa only [heq] using hwrite isOpen data s h
  | case3 isOpen data s hd isOpen' s' heq => simpa only [heq] using hwrite isOpen data s h
  | case4 isOpen data s hd n isOpen' s' heq hpos ih =>
      apply ih
      simpa only [heq] using hwrite isOpen data s h

end Keeps

namespace Writer

def pipe? : Writer → Option Nat
  | sink _ => none
  | pager p => p.input

theorem pipe?_writeAll (writer : Writer) (data : Bytes) (w : World σ) :
    (writer.writeAll data w).2.1.pipe? = none ∨
      (writer.writeAll data w).2.1.pipe? = writer.pipe? := by
  rcases writer with s | ⟨input, handle⟩
  · exact .inl rfl
  · cases input with
    | none => exact .inl rfl
    | some pipe =>
        obtain ⟨isOpen, hkeep⟩ : ∃ isOpen, ((pager ⟨some pipe, handle⟩).writeAll data w).2.1 =
            pager (Pager.keep ⟨some pipe, handle⟩ isOpen) := ⟨_, rfl⟩
        rw [hkeep]
        cases isOpen with
        | true => exact .inr rfl
        | false => exact .inl rfl

theorem writeAll_keeps {P : World σ → Prop} {w : World σ} (writer : Writer)
    (hsend : ∀ pipe ∈ writer.pipe?, ∀ data w, P w → P (World.send w pipe data).2)
    (hclose : ∀ pipe ∈ writer.pipe?, ∀ w, P w → P (World.close w ⟨pipe, .writing⟩))
    (hspeak : ∀ said w, P w → P (World.speak w said)) (data : Bytes) (h : P w) :
    P (writer.writeAll data w).2.2 := by
  cases writer with
  | sink s => exact hspeak _ w h
  | pager p =>
      change P (p.writeAll data w).2.2
      unfold Pager.writeAll
      split
      · exact h
      · next pipe hpipe =>
        exact Channel.writeAll_keeps (c := Pager.channel pipe) (hsend pipe hpipe)
          (hclose pipe hpipe) true data h

theorem calm_writeAll (writer : Writer) (data : Bytes) (w : World σ) :
    Calm w (writer.writeAll data w).2.2 := by
  apply writer.writeAll_keeps ?_ ?_ ?_ data (.refl w)
  · exact fun pipe _ data v h => h.trans (v.calm_sendFrom pipe 0 data)
  · exact fun pipe _ v h => h.trans (v.calm_close _)
  · exact fun said v h => ⟨h.wiring, h.held, h.copies, h.journal, h.handler⟩

theorem grows_writeAll (writer : Writer) (data : Bytes) (w : World σ) :
    w.plumbing.files.Grows (writer.writeAll data w).2.2.plumbing.files := by
  apply writer.writeAll_keeps (P := fun v => w.plumbing.files.Grows v.plumbing.files)
    ?_ ?_ ?_ data (.refl _)
  · exact fun pipe _ data v h => h.trans (v.grows_sendFrom pipe 0 data)
  · exact fun pipe _ v h => h
  · exact fun said v h => h

end Writer

end ChatSpace.Writing
