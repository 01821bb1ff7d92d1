import ChatSpace.Processes.World

namespace ChatSpace.Processes

namespace Child

variable {ends : List PipeEnd} {p q : Plumbing} {c c' : Child}

inductive Waits (ends : List PipeEnd) (p : Plumbing) (c : Child) : Prop
  | room {target pipe bytes} : c.sink target = .pipe pipe → ⟨pipe, .reading⟩ ∈ ends →
      p.pipes[pipe]? = some bytes → Plumbing.capacity ≤ bytes.length → Waits ends p c
  | bytes {pipe} : c.supply = .pipe pipe → ⟨pipe, .writing⟩ ∈ ends →
      p.pipes[pipe]? = some [] → Waits ends p c

theorem step_create {path : Bytes} {rest : List Action} {files : Files.Tree} (hrun : c.ended = none)
    (hactions : c.actions = .create path :: rest)
    (hwrite : p.files.write c.directory path [] = .ok files) :
    c.step ends p = some (c.proceed rest, { p with files }) := by
  simp [step, hrun, hactions, hwrite]

theorem deliver_eq_blocked {data : Bytes} {sink : Sink} (h : p.deliver ends data sink = .blocked) :
    ∃ pipe bytes, sink = .pipe pipe ∧ ⟨pipe, .reading⟩ ∈ ends ∧ p.pipes[pipe]? = some bytes ∧
      Plumbing.capacity ≤ bytes.length := by
  cases sink with
  | output => cases h
  | errors => cases h
  | null => cases h
  | file directory path => cases h
  | pipe pipe =>
      simp only [Plumbing.deliver] at h
      split at h
      · cases h
      · split at h
        · cases h
        · next hreader =>
          split at h
          · cases h
          · next bytes hpipe =>
            split at h
            · cases h
            · split at h
              · next hroom =>
                have hfull := Nat.sub_eq_zero_iff_le.mp hroom
                exact ⟨pipe, bytes, rfl, Decidable.not_not.mp hreader, hpipe, hfull⟩
              · cases h

theorem waits_of_write {target : Output} {data : Bytes} {rest : List Action}
    (h : c.write ends p target data rest = none) : c.Waits ends p := by
  unfold write at h
  split at h
  · cases h
  · cases h
  · next hblocked =>
    obtain ⟨pipe, bytes, hsink, hreader, hpipe, hfull⟩ := deliver_eq_blocked hblocked
    exact .room hsink hreader hpipe hfull
  · cases h

theorem waits_of_transform {limit : Option Nat} {target : Output} {f : Bytes → Bytes}
    {rest : List Action} (h : c.transform ends p limit target f rest = none) : c.Waits ends p := by
  unfold transform at h
  split at h
  · cases h
  · simp only at h
    split at h
    · cases h
    · cases h
    · next pipe hsupply =>
      split at h
      · cases h
      · next hpipe =>
        split at h
        · next hwriter => exact .bytes hsupply hwriter hpipe
        · cases h
      · cases h

theorem ended_or_waits (h : c.step ends p = none) : c.ended.isSome ∨ c.Waits ends p := by
  unfold step at h
  split at h
  · next hended => exact .inl hended
  · right
    split at h
    · cases h
    · split at h <;> cases h
    · exact waits_of_write h
    · exact waits_of_transform h

theorem streams_of_step (h : c.step ends p = some (c', q)) : c'.streams = c.streams := by
  cases (steps_of_step h).2 <;> rfl

end Child

namespace World

variable {σ : Type} {w : World σ}

def wiring (w : World σ) : List Streams :=
  w.children.map Child.streams

def AtRest (w : World σ) : Prop :=
  stepFirst w.ends w.plumbing w.children = none

theorem step_of_stepFirst_eq_none {ends : List PipeEnd} {p : Plumbing} {cs : List Child}
    (h : stepFirst ends p cs = none) : ∀ c ∈ cs, c.step ends p = none := by
  induction cs with
  | nil => simp
  | cons c cs ih =>
      unfold stepFirst at h
      split at h
      · cases h
      · next hstep =>
        rw [Option.map_eq_none_iff] at h
        intro c' hc'
        rcases List.mem_cons.mp hc' with rfl | hc'
        · exact hstep
        · exact ih h c' hc'

theorem step_of_stepFirst {ends : List PipeEnd} {p q : Plumbing} {cs ds : List Child}
    (h : stepFirst ends p cs = some (ds, q)) :
    ∃ i c d, cs[i]? = some c ∧ c.step ends p = some (d, q) ∧ ds = cs.set i d := by
  induction cs generalizing ds with
  | nil => cases h
  | cons c cs ih =>
      unfold stepFirst at h
      split at h
      · next hstep =>
        cases h
        exact ⟨0, c, _, rfl, hstep, rfl⟩
      · rw [Option.map_eq_some_iff] at h
        obtain ⟨⟨rest, p'⟩, hrest, heq⟩ := h
        cases heq
        obtain ⟨i, c', d, hc', hstep, rfl⟩ := ih hrest
        exact ⟨i + 1, c', d, hc', hstep, rfl⟩

theorem settle_of_atRest (h : w.AtRest) : w.settle = w := by
  rw [settle]
  split
  · rfl
  · next hmove => exact absurd (h.symm.trans hmove) nofun

theorem settle_of_stepFirst {children : List Child} {plumbing : Plumbing}
    (h : stepFirst w.ends w.plumbing w.children = some (children, plumbing)) :
    w.settle = { w with children, plumbing }.settle := by
  rw [settle]
  split
  · next hrest => exact absurd (hrest.symm.trans h) nofun
  · next hmove =>
    rw [h] at hmove
    cases hmove
    rfl

theorem atRest_settle (w : World σ) : w.settle.AtRest := by
  induction w using settle.induct with
  | case1 w h => rwa [settle_of_atRest h]
  | case2 w children plumbing h hlt ih => rwa [settle_of_stepFirst h]

theorem settle_eq (w : World σ) :
    w.settle = { w with children := w.settle.children, plumbing := w.settle.plumbing } := by
  induction w using settle.induct with
  | case1 w h => rw [settle_of_atRest h]
  | case2 w children plumbing h hlt ih =>
      rw [settle_of_stepFirst h]
      exact ih

@[simp] theorem held_settle (w : World σ) : w.settle.held = w.held := by
  rw [settle_eq]

@[simp] theorem copies_settle (w : World σ) : w.settle.copies = w.copies := by
  rw [settle_eq]

@[simp] theorem exhausted_settle (w : World σ) : w.settle.exhausted = w.exhausted := by
  rw [settle_eq]

@[simp] theorem journal_settle (w : World σ) : w.settle.journal = w.journal := by
  rw [settle_eq]

@[simp] theorem handler_settle (w : World σ) : w.settle.handler = w.handler := by
  rw [settle_eq]

@[simp] theorem spoken_settle (w : World σ) : w.settle.spoken = w.spoken := by
  rw [settle_eq]

theorem wiring_set_of_streams {i : Nat} {c d : Child} (hc : w.children[i]? = some c)
    (hstreams : d.streams = c.streams) : (w.children.set i d).map Child.streams = w.wiring := by
  apply List.ext_getElem?
  intro j
  rw [wiring, List.getElem?_map, List.getElem?_map, List.getElem?_set]
  split
  · next hsame =>
    subst hsame
    obtain ⟨hlt, rfl⟩ := List.getElem?_eq_some_iff.mp hc
    simp [hlt, hstreams]
  · rfl

theorem wiring_set {i : Nat} {c d : Child} {ends : List PipeEnd} {p q : Plumbing}
    (hc : w.children[i]? = some c) (hstep : c.step ends p = some (d, q)) :
    (w.children.set i d).map Child.streams = w.wiring :=
  wiring_set_of_streams hc (Child.streams_of_step hstep)

def Stable (P : World σ → Prop) : Prop :=
  ∀ (w : World σ) (i : Nat) (c d : Child) (q : Plumbing), P w → w.children[i]? = some c →
    c.step w.ends w.plumbing = some (d, q) →
    P { w with children := w.children.set i d, plumbing := q }

namespace Stable

variable {P : World σ → Prop} {pipe : Nat}

theorem settle (h : Stable P) (hw : P w) : P w.settle := by
  induction w using World.settle.induct with
  | case1 w hrest => rwa [settle_of_atRest hrest]
  | case2 w children plumbing hmove hlt ih =>
      obtain ⟨i, c, d, hc, hstep, rfl⟩ := step_of_stepFirst hmove
      rw [settle_of_stepFirst hmove]
      exact ih (h w i c d plumbing hw hc hstep)

theorem settleIfEmpty (h : Stable P) (pipe : Nat) (hw : P w) : P (w.settleIfEmpty pipe) := by
  unfold World.settleIfEmpty
  split
  · exact h.settle hw
  · exact hw

theorem settleIfFull (h : Stable P) (pipe : Nat) (hw : P w) : P (w.settleIfFull pipe) := by
  unfold World.settleIfFull
  repeat' split
  · exact hw
  · exact h.settle hw
  · exact hw

theorem receive (h : Stable P)
    (hset : ∀ v bytes, P v → P (v.setPlumbing (v.plumbing.setPipe pipe bytes))) (limit : Nat)
    (hw : P w) : P (w.receive pipe limit).2 := by
  have hsettle := h.settleIfEmpty pipe hw
  simp only [World.receive]
  split
  · exact hsettle
  · split <;> exact hsettle
  · exact hset _ _ hsettle

theorem receiveAll (h : Stable P)
    (hset : ∀ v bytes, P v → P (v.setPlumbing (v.plumbing.setPipe pipe bytes))) (hw : P w) :
    P (w.receiveAll pipe).2 := by
  have hsettle {v : World σ} (hv : P v) := h.settleIfEmpty pipe hv
  fun_induction World.receiveAll w pipe with
  | case1 w v hcontent => exact hsettle hw
  | case2 w v hcontent hwriter => exact hsettle hw
  | case3 w v hcontent hwriter => exact hsettle hw
  | case4 w v b bytes hcontent hload rest u hrest ih =>
      rw [hrest] at ih
      exact ih (hset _ _ (hsettle hw))

theorem sendFrom (h : Stable P)
    (hset : ∀ v bytes, P v → P (v.setPlumbing (v.plumbing.setPipe pipe bytes))) (count : Nat)
    (data : Bytes) (hw : P w) : P (w.sendFrom pipe count data).2 := by
  have hsettle {v : World σ} (hv : P v) := h.settleIfFull pipe hv
  fun_induction World.sendFrom w pipe count data with
  | case1 w count data v plumbing hdeliver =>
      obtain rfl := Plumbing.eq_put_of_done hdeliver
      exact hset _ _ (hsettle hw)
  | case2 w count data v rest plumbing hdeliver hload ih =>
      obtain ⟨taken, -, rfl⟩ := Plumbing.eq_put_of_partly hdeliver
      exact ih (hset _ _ (hsettle hw))
  | case3 w count data v hdeliver => exact hsettle hw
  | case4 w count data v hdeliver => exact hsettle hw

theorem wait (h : Stable P)
    (hnote : ∀ v waits, P v → P { v with journal := { v.journal with waits } }) (child : Nat)
    (hw : P w) : P (w.wait child).2 := by
  have hsettle := hnote _ (w.settle.journal.waits ++ [⟨child, w.settle.held ++ w.settle.copies⟩])
    (h.settle hw)
  simp only [World.wait]
  split <;> exact hsettle

end Stable

@[simp] theorem wiring_settle (w : World σ) : w.settle.wiring = w.wiring := by
  have hstable : Stable fun v : World σ => v.wiring = w.wiring :=
    fun _ _ _ _ _ hv hc hstep => (wiring_set hc hstep).trans hv
  exact hstable.settle rfl

theorem AtRest.ended_or_waits (h : w.AtRest) {c : Child} (hc : c ∈ w.children) :
    c.ended.isSome ∨ c.Waits w.ends w.plumbing :=
  Child.ended_or_waits (step_of_stepFirst_eq_none h c hc)

structure Sound (w : World σ) : Prop where
  held : ∀ e ∈ w.held, e.pipe < w.plumbing.pipes.length
  copies : w.copies = []
  wired : ∀ s ∈ w.wiring, ∀ e ∈ s.ends, e.pipe < w.plumbing.pipes.length

theorem mem_ends_cases {e : PipeEnd} (he : e ∈ w.ends) :
    e ∈ w.held ∨ e ∈ w.copies ∨ ∃ c ∈ w.children, c.ended = none ∧ e ∈ c.streams.ends := by
  simp only [ends, List.mem_append, List.mem_flatMap, Child.ends] at he
  rcases he with (hheld | hcopy) | ⟨c, hc, he⟩
  · exact .inl hheld
  · exact .inr (.inl hcopy)
  · split at he
    · simp at he
    · next hended => exact .inr (.inr ⟨c, hc, by simpa using hended, he⟩)

theorem mem_ends_iff (hcopies : w.copies = []) {e : PipeEnd} :
    e ∈ w.ends ↔ e ∈ w.held ∨ ∃ c ∈ w.children, c.ended = none ∧ e ∈ c.streams.ends := by
  constructor
  · intro he
    rcases mem_ends_cases he with hheld | hcopy | hchild
    · exact .inl hheld
    · simp [hcopies] at hcopy
    · exact .inr hchild
  · simp only [ends, List.mem_append, List.mem_flatMap, Child.ends]
    rintro (hheld | ⟨c, hc, hended, he⟩)
    · exact .inl (.inl hheld)
    · exact .inr ⟨c, hc, by simpa [hended] using he⟩

end World

end ChatSpace.Processes
