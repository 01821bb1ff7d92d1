import ChatSpace.Proofs.Processes.Rest

namespace ChatSpace.Processes

def Unwired (pipe : Nat) (wiring : List Streams) : Prop :=
  ∀ s ∈ wiring, ∀ e ∈ s.ends, e.pipe ≠ pipe

theorem Unwired.of_append {pipe : Nat} {wiring late : List Streams}
    (h : Unwired pipe (wiring ++ late)) : Unwired pipe wiring :=
  fun s hs => h s (List.mem_append_left late hs)

structure Spares (s : Streams) (p q : Plumbing) : Prop where
  length : q.pipes.length = p.pipes.length
  pipes : ∀ pipe, (∀ e ∈ s.ends, e.pipe ≠ pipe) → q.pipes[pipe]? = p.pipes[pipe]?
  output : ∃ said, q.output = p.output ++ said ∧ (s.stdout ≠ .inherited → said = [])

theorem Spares.refl (s : Streams) (p : Plumbing) : Spares s p p :=
  ⟨rfl, fun _ _ => rfl, [], by simp, fun _ => rfl⟩

theorem Streams.mem_ends_iff {s : Streams} {e : PipeEnd} :
    e ∈ s.ends ↔ ∃ stream, s.get stream = .provisioned e := by
  have hend (d : Disposition) : d.pipeEnd? = some e ↔ d = .provisioned e := by
    cases d <;> simp [Disposition.pipeEnd?]
  simp only [ends, List.mem_filterMap, hend]
  constructor
  · rintro ⟨stream, -, h⟩
    exact ⟨stream, h⟩
  · rintro ⟨stream, h⟩
    exact ⟨stream, by cases stream <;> simp [order], h⟩

namespace Plumbing

variable {p q : Plumbing} {s : Streams} {ends : List PipeEnd}

theorem spares_setPipe {pipe : Nat} (h : ∃ e ∈ s.ends, e.pipe = pipe) (bytes : Bytes) :
    Spares s p (p.setPipe pipe bytes) where
  length := List.length_set
  pipes other hother := by
    obtain ⟨e, he, rfl⟩ := h
    exact List.getElem?_set_ne (hother e he)
  output := ⟨[], by simp [setPipe], fun _ => rfl⟩

theorem spares_append (directory : Files.Location) (path data : Bytes) :
    Spares s p (p.append directory path data) := by
  simp only [append]
  split
  · exact ⟨rfl, fun _ _ => rfl, [], by simp, fun _ => rfl⟩
  · exact .refl s p

end Plumbing

namespace Child

variable {c d : Child} {p q : Plumbing} {ends : List PipeEnd}

theorem sinkOf_eq_pipe {inherited : Sink} {disposition : Disposition} {pipe : Nat}
    (h : sinkOf inherited disposition = .pipe pipe) (hinherited : inherited ≠ .pipe pipe) :
    disposition = .provisioned ⟨pipe, .writing⟩ := by
  unfold sinkOf at h
  split at h
  · exact absurd h hinherited
  · cases h
  · cases h
    rfl
  · cases h

theorem writing_mem_of_sink {target : Output} {pipe : Nat} (h : c.sink target = .pipe pipe) :
    ⟨pipe, .writing⟩ ∈ c.streams.ends := by
  cases target with
  | stdout => exact Streams.mem_ends_iff.mpr ⟨.stdout, sinkOf_eq_pipe h nofun⟩
  | stderr => exact Streams.mem_ends_iff.mpr ⟨.stderr, sinkOf_eq_pipe h nofun⟩
  | file path => cases h

theorem reading_mem_of_supply {pipe : Nat} (h : c.supply = .pipe pipe) :
    ⟨pipe, .reading⟩ ∈ c.streams.ends := by
  apply Streams.mem_ends_iff.mpr
  refine ⟨.stdin, ?_⟩
  unfold supply at h
  split at h <;> cases h
  assumption

theorem sink_ne_output {target : Output} (h : c.streams.stdout ≠ .inherited) :
    c.sink target ≠ .output := by
  have hsink (inherited : Sink) (disposition : Disposition)
      (hne : inherited = .output → disposition ≠ .inherited) :
      sinkOf inherited disposition ≠ .output := by
    unfold sinkOf
    split
    · exact fun houtput => hne houtput rfl
    all_goals simp
  cases target with
  | stdout => exact hsink _ _ fun _ => h
  | stderr => exact hsink _ _ nofun
  | file path => exact nofun

theorem spares_put (c : Child) (p : Plumbing) (target : Output) (taken : Bytes) :
    Spares c.streams p (p.put taken (c.sink target)) := by
  have hquiet (h : c.streams.stdout ≠ .inherited) : c.sink target ≠ .output := sink_ne_output h
  cases hsink : c.sink target with
  | output =>
      rw [hsink] at hquiet
      exact ⟨rfl, fun _ _ => rfl, taken, rfl, fun hne => absurd rfl (hquiet hne)⟩
  | errors => exact ⟨rfl, fun _ _ => rfl, [], (List.append_nil _).symm, fun _ => rfl⟩
  | null => exact .refl _ _
  | pipe pipe => exact Plumbing.spares_setPipe ⟨_, writing_mem_of_sink hsink, rfl⟩ _
  | file directory path => exact Plumbing.spares_append directory path taken

theorem spares_step (h : c.step ends p = some (d, q)) : Spares c.streams p q := by
  cases (steps_of_step h).2 with
  | ended exit => exact .refl _ _
  | created => exact ⟨rfl, fun _ _ => rfl, [], (List.append_nil _).symm, fun _ => rfl⟩
  | wrote => exact spares_put c p _ _
  | wrotePartly => exact spares_put c p _ _
  | transformed => exact .refl _ _
  | drained => exact ⟨rfl, fun _ _ => rfl, [], (List.append_nil _).symm, fun _ => rfl⟩
  | took _ hsupply => exact Plumbing.spares_setPipe ⟨_, reading_mem_of_supply hsupply, rfl⟩ _

end Child

namespace World

variable {σ : Type} {w : World σ} {pipe : Nat}

theorem content?_settle (h : Unwired pipe w.wiring) : w.settle.content? pipe = w.content? pipe := by
  have hstable : Stable fun v : World σ =>
      v.wiring = w.wiring ∧ v.content? pipe = w.content? pipe := by
    rintro v i c d q ⟨hwiring, hcontent⟩ hc hstep
    have hwired : c.streams ∈ v.wiring := List.mem_map_of_mem (List.mem_of_getElem? hc)
    have hsame := (Child.spares_step hstep).pipes pipe (h c.streams (hwiring ▸ hwired))
    exact ⟨(wiring_set hc hstep).trans hwiring, hsame.trans hcontent⟩
  exact (hstable.settle ⟨rfl, rfl⟩).2

end World

end ChatSpace.Processes
