import ChatSpace.Proofs.Processes.Fallback
import ChatSpace.Proofs.Processes.Reading
import Mathlib.Data.List.Chain

namespace ChatSpace.Processes

variable {σ : Type}

inductive Way where
  | spawn
  | run
  | capture
deriving DecidableEq, Repr

namespace Executor

def call : Way → Spec → Act (World σ) ExecError Unit
  | .spawn, s => do let _ ← spawn s
  | .run, s => do let _ ← run s
  | .capture, s => do let _ ← capture s

end Executor

inductive Move where
  | openPipe
  | send (pipe : Nat) (data : Bytes)
  | readAll (pipe : Nat)
  | close (pipeEnd : PipeEnd)
  | call (way : Way) (s : Spec)
  | reap (h : Handle) (brokenPipeExpected : Bool)
  | drop (h : Handle)
  | refuse (exhausted : Refusals)

namespace World

def perform (w : World σ) : Move → World σ
  | .openPipe => ((Executor.openPipe : Act (World σ) ExecError Nat).start w).2
  | .send pipe data => (w.send pipe data).2
  | .readAll pipe => (w.receiveAll pipe).2.close ⟨pipe, .reading⟩
  | .close e => w.close e
  | .call way s => ((Executor.call way s).start w).2
  | .reap h brokenPipeExpected => ((Executor.reap h brokenPipeExpected).start w).2
  | .drop h => ((Executor.drop h).start w).2
  | .refuse exhausted => { w with exhausted }

def Permits (w : World σ) : Move → Prop
  | .send pipe _ => ⟨pipe, .writing⟩ ∈ w.held
  | .readAll pipe => ⟨pipe, .reading⟩ ∈ w.held
  | .call _ s => ∀ e ∈ s.ends, e ∈ w.held
  | _ => True

instance (w : World σ) : DecidablePred w.Permits
  | .send pipe _ => inferInstanceAs (Decidable (⟨pipe, .writing⟩ ∈ w.held))
  | .readAll pipe => inferInstanceAs (Decidable (⟨pipe, .reading⟩ ∈ w.held))
  | .call _ s => inferInstanceAs (Decidable (∀ e ∈ s.ends, e ∈ w.held))
  | .openPipe | .close _ | .reap _ _ | .drop _ | .refuse _ => .isTrue trivial

def Next (w w' : World σ) : Prop :=
  ∃ move, w.Permits move ∧ w' = w.perform move

def Later : World σ → World σ → Prop :=
  Relation.ReflTransGen Next

def Fresh (w : World σ) : Prop :=
  w.held = [] ∧ w.copies = [] ∧ w.children = []

def Reached (w : World σ) : Prop :=
  ∃ w₀ : World σ, w₀.Fresh ∧ w₀.Later w

/-- The parent holds an end once, and then no child has it. -/
structure Tidy (w : World σ) : Prop extends Sound w where
  nodup : w.held.Nodup
  exclusive : ∀ e ∈ w.held, ∀ s ∈ w.wiring, e ∉ s.ends

structure Passes (w w' : World σ) : Prop where
  length : w.plumbing.pipes.length ≤ w'.plumbing.pipes.length
  held : ∀ e ∈ w'.held, e ∈ w.held ∨ w.plumbing.pipes.length ≤ e.pipe
  wiring : ∃ late, w'.wiring = w.wiring ++ late ∧ ∀ s ∈ late, ∀ e ∈ s.ends,
    (e ∈ w.held ∨ w.plumbing.pipes.length ≤ e.pipe) ∧ e ∉ w'.held
  content : ∀ pipe < w.plumbing.pipes.length, ⟨pipe, .reading⟩ ∈ w'.held →
    ⟨pipe, .writing⟩ ∉ w.held → Unwired pipe w'.wiring → w'.content? pipe = w.content? pipe

def Advances (w w' : World σ) : Prop :=
  w.Tidy → w'.Tidy ∧ w.Passes w'

theorem Passes.refl (w : World σ) : w.Passes w where
  length := Nat.le_refl _
  held _ he := .inl he
  wiring := ⟨[], by simp, by simp⟩
  content _ _ _ _ _ := rfl

theorem Passes.trans {u v w : World σ} (hv : v.Tidy) (h : u.Passes v) (h' : v.Passes w) :
    u.Passes w := by
  obtain ⟨late, hlate, hends⟩ := h.wiring
  obtain ⟨later, hlater, hends'⟩ := h'.wiring
  -- what is new for `v` is new for `u`
  have hcome (e : PipeEnd) (he : e ∈ v.held ∨ v.plumbing.pipes.length ≤ e.pipe) :
      e ∈ u.held ∨ u.plumbing.pipes.length ≤ e.pipe := by
    rcases he with he | he
    · exact h.held e he
    · exact .inr (Nat.le_trans h.length he)
  refine ⟨Nat.le_trans h.length h'.length, fun e he => hcome e (h'.held e he), ?_, ?_⟩
  · refine ⟨late ++ later, by rw [hlater, hlate, List.append_assoc], ?_⟩
    intro s hs e he
    rcases List.mem_append.mp hs with hs | hs
    · obtain ⟨hfrom, hgone⟩ := hends s hs e he
      refine ⟨hfrom, fun hback => ?_⟩
      have hold := hv.wired s (hlate ▸ List.mem_append_right _ hs) e he
      rcases h'.held e hback with hback | hnew
      · exact hgone hback
      · omega
    · obtain ⟨hfrom, hgone⟩ := hends' s hs e he
      exact ⟨hcome e hfrom, hgone⟩
  · intro pipe hpipe hreader hwriter hfree
    have hreader' : ⟨pipe, .reading⟩ ∈ v.held := by
      refine (h'.held _ hreader).resolve_right fun hnew => ?_
      exact absurd (Nat.lt_of_lt_of_le hpipe h.length) (Nat.not_lt.mpr hnew)
    have hwriter' : ⟨pipe, .writing⟩ ∉ v.held := fun hback =>
      (h.held _ hback).elim hwriter fun hnew => absurd hpipe (Nat.not_lt.mpr hnew)
    have hfree' : Unwired pipe v.wiring := Unwired.of_append (hlater ▸ hfree)
    rw [h'.content pipe (Nat.lt_of_lt_of_le hpipe h.length) hreader hwriter' hfree,
      h.content pipe hpipe hreader' hwriter hfree']

theorem Advances.refl (w : World σ) : w.Advances w :=
  fun h => ⟨h, .refl w⟩

theorem Advances.trans {u v w : World σ} (h : u.Advances v) (h' : v.Advances w) :
    u.Advances w := by
  intro hu
  obtain ⟨hv, huv⟩ := h hu
  obtain ⟨hw, hvw⟩ := h' hv
  exact ⟨hw, huv.trans hv hvw⟩

variable {w w' : World σ}

theorem advances_of_sublist (hlength : w'.plumbing.pipes.length = w.plumbing.pipes.length)
    (hheld : w'.held.Sublist w.held) (hcopies : w'.copies = w.copies)
    (hwiring : w'.wiring = w.wiring)
    (hcontent : ∀ pipe < w.plumbing.pipes.length, ⟨pipe, .reading⟩ ∈ w'.held →
      ⟨pipe, .writing⟩ ∉ w.held → Unwired pipe w'.wiring → w'.content? pipe = w.content? pipe) :
    w.Advances w' := by
  intro htidy
  constructor
  · refine ⟨⟨fun e he => ?_, hcopies.trans htidy.copies, fun s hs e he => ?_⟩,
      htidy.nodup.sublist hheld, fun e he s hs => ?_⟩
    · exact hlength ▸ htidy.held e (hheld.subset he)
    · exact hlength ▸ htidy.wired s (hwiring ▸ hs) e he
    · exact htidy.exclusive e (hheld.subset he) s (hwiring ▸ hs)
  · exact ⟨hlength.ge, fun e he => .inl (hheld.subset he), ⟨[], by simp [hwiring], by simp⟩,
      hcontent⟩

theorem advances_of_uses {pipe : Option Nat} (h : Uses pipe w w')
    (hpipe : ∀ other, some other = pipe → ⟨other, .writing⟩ ∈ w.held) : w.Advances w' := by
  apply advances_of_sublist h.length (by rw [h.held]) h.copies h.wiring
  intro other _ _ hwriter hfree
  exact h.content other (fun hsame => hwriter (hpipe other hsame)) (h.wiring ▸ hfree)

theorem advances_close (w : World σ) (e : PipeEnd) : w.Advances (w.close e) :=
  advances_of_sublist rfl List.filter_sublist rfl rfl fun _ _ _ _ _ => rfl

theorem advances_report (w : World σ) (e : ExecError) : w.Advances (w.report e) :=
  advances_of_sublist rfl (.refl _) rfl rfl fun _ _ _ _ _ => rfl

theorem advances_wait (w : World σ) (child : Nat) : w.Advances (w.wait child).2 :=
  advances_of_uses (uses_wait w child) nofun

theorem advances_readAll (w : World σ) (pipe : Nat) :
    w.Advances ((w.receiveAll pipe).2.close ⟨pipe, .reading⟩) := by
  have huse := uses_receiveAll w pipe
  have hlength : ((w.receiveAll pipe).2.close ⟨pipe, .reading⟩).plumbing.pipes.length =
      w.plumbing.pipes.length := huse.length
  have hheld : ((w.receiveAll pipe).2.close ⟨pipe, .reading⟩).held.Sublist w.held := by
    rw [← huse.held]
    exact List.filter_sublist
  apply advances_of_sublist hlength hheld huse.copies huse.wiring
  intro other _ hreader _ hfree
  -- the pipe that was read is closed
  have hother : some other ≠ some pipe := by
    rintro ⟨rfl⟩
    simp [close] at hreader
  exact huse.content other hother (huse.wiring ▸ hfree)

theorem advances_withPipe (w : World σ) : w.Advances w.withPipe := by
  intro htidy
  have hnew : w.withPipe.plumbing.pipes.length = w.plumbing.pipes.length + 1 := by
    simp [withPipe]
  have hheld (e : PipeEnd) (he : e ∈ w.withPipe.held) :
      e ∈ w.held ∨ e.pipe = w.plumbing.pipes.length := by
    simp only [withPipe, List.mem_cons] at he
    rcases he with rfl | rfl | he
    · exact .inr rfl
    · exact .inr rfl
    · exact .inl he
  have hfresh (side : Side) : ⟨w.plumbing.pipes.length, side⟩ ∉ w.held :=
    fun he => Nat.lt_irrefl _ (htidy.held _ he)
  constructor
  · refine ⟨⟨fun e he => ?_, htidy.copies, fun s hs e he => ?_⟩, ?_, fun e he s hs hback => ?_⟩
    · rcases hheld e he with he | he
      · exact hnew ▸ Nat.lt_succ_of_lt (htidy.held e he)
      · exact hnew ▸ he ▸ Nat.lt_succ_self _
    · exact hnew ▸ Nat.lt_succ_of_lt (htidy.wired s hs e he)
    · simp [withPipe, hfresh, htidy.nodup]
    · rcases hheld e he with he | he
      · exact htidy.exclusive e he s hs hback
      · exact absurd (htidy.wired s hs e hback) (he ▸ Nat.lt_irrefl _)
  · refine ⟨by omega, fun e he => (hheld e he).imp_right fun hpipe => hpipe.ge,
      ⟨[], by simp, by simp⟩, ?_⟩
    intro pipe hpipe _ _ _
    exact List.getElem?_append_left hpipe

theorem advances_handOut {s : Streams} (hpipes : w'.plumbing.pipes = w.plumbing.pipes)
    (hheld : w'.held = w.held.filter (· ∉ s.ends)) (hcopies : w'.copies = w.copies)
    (hwiring : w'.wiring = w.wiring ++ [s]) (hs : ∀ e ∈ s.ends, e ∈ w.held) : w.Advances w' := by
  intro htidy
  have hstay (e : PipeEnd) (he : e ∈ w'.held) : e ∈ w.held ∧ e ∉ s.ends := by
    simpa [hheld] using he
  have hwired (t : Streams) (ht : t ∈ w'.wiring) : t ∈ w.wiring ∨ t = s := by
    simpa [hwiring] using ht
  constructor
  · refine ⟨⟨fun e he => ?_, hcopies.trans htidy.copies, fun t ht e he => ?_⟩, ?_,
      fun e he t ht hback => ?_⟩
    · exact hpipes ▸ htidy.held e (hstay e he).1
    · rw [hpipes]
      rcases hwired t ht with ht | rfl
      · exact htidy.wired t ht e he
      · exact htidy.held e (hs e he)
    · exact hheld ▸ htidy.nodup.filter _
    · rcases hwired t ht with ht | rfl
      · exact htidy.exclusive e (hstay e he).1 t ht hback
      · exact (hstay e he).2 hback
  · refine ⟨by rw [hpipes], fun e he => .inl (hstay e he).1, ⟨[s], hwiring, ?_⟩, ?_⟩
    · intro t ht e he
      cases List.mem_singleton.mp ht
      exact ⟨.inl (hs e he), fun hback => (hstay e hback).2 he⟩
    · intro pipe _ _ _ _
      rw [content?, hpipes, content?]

section Operations

variable {S ε α β : Type}

theorem advances_bind {act : Act (World σ) ε α} {next : α → Act (World σ) ε β}
    (h : w.Advances (act.start w).2)
    (hnext : ∀ a w', act.start w = (.ok a, w') → w'.Advances ((next a).start w').2) :
    w.Advances ((act >>= next).start w).2 := by
  rcases hstart : act.start w with ⟨e | a, w'⟩ <;> rw [hstart] at h
  · rw [Act.start_bind_of_error hstart]
    exact h
  · rw [Act.start_bind_of_ok hstart]
    exact h.trans (hnext a w' hstart)

theorem advances_raise (w : World σ) (e : ExecError) :
    w.Advances ((Executor.raise e : Act (World σ) ExecError α).start w).2 := by
  rw [Executor.start_raise]
  exact advances_report w e

theorem advances_closeAll (w : World σ) (ends : List PipeEnd) : w.Advances (w.closeAll ends) := by
  rw [closeAll_eq]
  exact advances_of_sublist rfl List.filter_sublist rfl rfl fun _ _ _ _ _ => rfl

theorem advances_reap (w : World σ) (h : Handle) (brokenPipeExpected : Bool) :
    w.Advances ((Executor.reap h brokenPipeExpected).start w).2 := by
  apply advances_bind (advances_wait w h.child)
  intro result w' _
  cases result with
  | error source => exact advances_raise w' _
  | ok exit =>
      simp only
      split
      · exact advances_of_sublist rfl (.refl _) rfl rfl fun _ _ _ _ _ => rfl
      · exact .refl w'

theorem ends_connect {s : Spec} (h : s.provisioned? = none) (stream : Stream) (d : Disposition) :
    (s.connect stream d).ends = d.pipeEnd?.toList := by
  have hnone : s.ends = [] := Streams.provisioned?_eq_none_iff.mp h
  have hfree (other : Stream) : (s.streams.get other).pipeEnd? = none := by
    have hall := List.filterMap_eq_nil_iff.mp hnone
    exact hall other (by cases other <;> simp [Streams.order])
  simp only [Spec.ends, Streams.ends, Streams.order, List.filterMap_cons, List.filterMap_nil,
    Spec.get_connect]
  cases stream <;> cases hd : d.pipeEnd? <;> simp [hd, hfree]

theorem advances_onFailure {act : Act (World σ) ε α} (h : w.Advances (act.start w).2)
    (e : PipeEnd) : w.Advances ((act.onFailure (·.close e)).start w).2 := by
  rcases hstart : act.start w with ⟨stop | a, w'⟩ <;> rw [hstart] at h
  · rw [Act.start_onFailure_of_error hstart]
    exact h.trans (advances_close w' e)
  · rw [Act.start_onFailure_of_ok hstart]
    exact h

theorem advances_openPipe (w : World σ) :
    w.Advances ((Executor.openPipe : Act (World σ) ExecError Nat).start w).2 := by
  rcases Executor.start_openPipe_cases w with ⟨e, -, hopen⟩ | ⟨-, hopen⟩ <;> rw [hopen]
  · exact advances_of_sublist rfl (.refl _) rfl rfl fun _ _ _ _ _ => rfl
  · exact advances_withPipe w

theorem advances_refuse (w : World σ) (s : Spec) (operation : Operation) (stream : Stream) :
    w.Advances ((Executor.refuse s operation stream : Act (World σ) ExecError α).start w).2 := by
  rw [Executor.refuse, Act.start_andThen]
  exact (advances_raise w _).trans (advances_closeAll _ s.ends)

theorem advances_spawn (w : World σ) (s : Spec) (hs : ∀ e ∈ s.ends, e ∈ w.held) :
    w.Advances ((Executor.spawn s).start w).2 := by
  obtain ⟨n, labels, starts, ⟨e, hstart⟩ | ⟨c, l, hstreams, hstart⟩⟩ :=
    Executor.start_spawn_cases s w
  · rw [hstart, closeAll_eq]
    exact advances_of_sublist rfl List.filter_sublist rfl rfl fun _ _ _ _ _ => rfl
  · rw [hstart, closeAll_eq]
    have hwiring : ((w.prepared n labels starts).addChild c l).wiring =
        w.wiring ++ [s.streams] := by
      simp [wiring, addChild, prepared, hstreams]
    exact advances_handOut rfl rfl rfl hwiring hs

theorem advances_run (w : World σ) (s : Spec) : w.Advances ((Executor.run s).start w).2 := by
  unfold Executor.run Executor.runBy
  split
  · exact advances_refuse w s _ _
  · next hnone =>
    have hends : s.ends = [] := Streams.provisioned?_eq_none_iff.mp hnone
    apply advances_bind (advances_spawn _ _ (by simp [hends]))
    intro h w' _
    exact advances_reap w' h false

theorem advances_capture (w : World σ) (s : Spec) :
    w.Advances ((Executor.capture s).start w).2 := by
  unfold Executor.capture Executor.captureBy
  split
  · exact advances_refuse w s _ _
  · next hnone =>
    apply advances_bind (advances_openPipe w)
    intro pipe w₁ hopen
    obtain ⟨rfl, rfl⟩ := Executor.openPipe_eq_ok hopen
    have hends := ends_connect hnone .stdout (.provisioned ⟨w.plumbing.pipes.length, .writing⟩)
    have hstart := advances_spawn w.withPipe
      (s.connect .stdout (.provisioned ⟨w.plumbing.pipes.length, .writing⟩))
      (by simp [hends, withPipe, Disposition.pipeEnd?])
    apply advances_bind (advances_onFailure hstart _)
    intro h w₂ _
    rw [Act.start_bind_does]
    apply (advances_readAll w₂ _).trans
    apply advances_bind (advances_reap _ h false)
    intro code w₃ _
    cases (w₂.receiveAll w.plumbing.pipes.length).1 with
    | ok stdout => exact .refl w₃
    | error source => exact advances_raise w₃ _

theorem advances_call (way : Way) {s : Spec} (hs : ∀ e ∈ s.ends, e ∈ w.held) :
    w.Advances ((Executor.call way s).start w).2 := by
  cases way with
  | spawn => exact advances_bind (advances_spawn w s hs) fun _ w' _ => .refl w'
  | run => exact advances_bind (advances_run w s) fun _ w' _ => .refl w'
  | capture => exact advances_bind (advances_capture w s) fun _ w' _ => .refl w'

end Operations

theorem advances_perform {move : Move} (h : w.Permits move) : w.Advances (w.perform move) := by
  cases move with
  | openPipe => exact advances_openPipe w
  | send pipe data =>
      apply advances_of_uses (uses_send w pipe data)
      rintro other ⟨rfl⟩
      exact h
  | readAll pipe => exact advances_readAll w pipe
  | close e => exact advances_close w e
  | call way s => exact advances_call way h
  | reap handle brokenPipeExpected => exact advances_reap w handle brokenPipeExpected
  | drop handle => exact advances_wait w handle.child
  | refuse exhausted => exact advances_of_sublist rfl (.refl _) rfl rfl fun _ _ _ _ _ => rfl

theorem Later.advances (h : w.Later w') : w.Advances w' := by
  induction h with
  | refl => exact .refl w
  | tail _ hnext ih =>
      obtain ⟨move, hpermits, rfl⟩ := hnext
      exact ih.trans (advances_perform hpermits)

theorem Fresh.tidy (h : w.Fresh) : w.Tidy where
  held := by simp [h.1]
  copies := h.2.1
  wired := by simp [wiring, h.2.2]
  nodup := by simp [h.1]
  exclusive := by simp [h.1]

theorem Reached.tidy (h : w.Reached) : w.Tidy := by
  obtain ⟨w₀, hfresh, hlater⟩ := h
  exact (hlater.advances hfresh.tidy).1

end World

end ChatSpace.Processes
