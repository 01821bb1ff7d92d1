import ChatSpace.Proofs.History.Verdict

namespace ChatSpace.History

open Batch Processes

variable {σ τ υ α β ε : Type} {related : τ → υ → Prop}

def Beside (related : τ → υ → Prop) (s : World σ × τ) (t : World σ × υ) : Prop :=
  s.1 = t.1 ∧ related s.2 t.2

def StepsAgree (related : τ → υ → Prop) (act : Act (World σ × τ) ε α)
    (act' : Act (World σ × υ) ε α) : Prop :=
  ∀ s t, Beside related s t → Agree (Beside related) (act.start s) (act'.start t)

theorem StepsAgree.bind {act : Act (World σ × τ) ε α} {act' : Act (World σ × υ) ε α}
    {next : α → Act (World σ × τ) ε β} {next' : α → Act (World σ × υ) ε β}
    (h : StepsAgree related act act') (hnext : ∀ a, StepsAgree related (next a) (next' a)) :
    StepsAgree related (act >>= next) (act' >>= next') := by
  intro s t hst
  obtain ⟨result, s', t', hs, ht, hboth⟩ := (h s t hst).exists_eq
  rw [Act.start_bind, Act.start_bind, hs, ht]
  rcases result with e | a
  · exact ⟨rfl, hboth⟩
  · exact hnext a s' t' hboth

theorem stepsAgree_pure (a : α) :
    StepsAgree related (pure a : Act (World σ × τ) ε α) (pure a : Act (World σ × υ) ε α) :=
  fun _ _ h => ⟨rfl, h⟩

theorem stepsAgree_fail (e : ε) :
    StepsAgree related (Act.fail e : Act (World σ × τ) ε α) (Act.fail e : Act (World σ × υ) ε α) :=
  fun _ _ h => ⟨rfl, h⟩

theorem stepsAgree_onWorld (act : Act (World σ) ExecError α) :
    StepsAgree related (onWorld act : Act (World σ × τ) _ α)
      (onWorld act : Act (World σ × υ) _ α) := by
  rintro ⟨w, t⟩ ⟨w', u⟩ ⟨rfl, h⟩
  exact ⟨rfl, rfl, h⟩

theorem stepsAgree_startHelpers (q : Query) (link output : Nat) :
    StepsAgree related (startHelpers q link output : Act (World σ × τ) _ _)
      (startHelpers q link output : Act (World σ × υ) _ _) := by
  refine (stepsAgree_onWorld _).bind fun lister => (stepsAgree_onWorld _).bind fun dumper => ?_
  rcases dumper with e | dumper
  · exact (stepsAgree_onWorld _).bind fun _ => (stepsAgree_onWorld _).bind fun _ =>
      stepsAgree_fail _
  · exact stepsAgree_pure _

theorem stepsAgree_reapLister (lister dumper : Handle) (v : Verdict) :
    StepsAgree related (reapLister lister dumper v : Act (World σ × τ) _ _)
      (reapLister lister dumper v : Act (World σ × υ) _ _) := by
  refine (stepsAgree_onWorld _).bind fun result => ?_
  rcases result with e | code
  · exact (stepsAgree_onWorld _).bind fun _ => stepsAgree_fail _
  · exact stepsAgree_pure _

theorem stepsAgree_conclude (v : Verdict) (listerCode dumperCode : Nat) :
    StepsAgree related (conclude v listerCode dumperCode : Act (World σ × τ) _ _)
      (conclude v listerCode dumperCode : Act (World σ × υ) _ _) := by
  rcases v with (_ | _) | e | source
  · intro s t h
    rw [start_conclude_completed, start_conclude_completed]
    exact ⟨rfl, h⟩
  · exact stepsAgree_pure _
  · exact stepsAgree_fail _
  · exact stepsAgree_onWorld _

section Walk

variable {callback : Commit → World σ × τ → Answer × (World σ × τ)}
  {callback' : Commit → World σ × υ → Answer × (World σ × υ)}

theorem stepsAgree_stream (hcall : CallbacksAgree (Beside related) callback callback') (q : Query)
    (output : Nat) :
    StepsAgree related (Act.does (stream q output callback) : Act (World σ × τ) ε _)
      (Act.does (stream q output callback') : Act (World σ × υ) ε _) := by
  rintro ⟨w, t⟩ ⟨_, u⟩ ⟨rfl, h⟩
  have hread (s : World σ × τ) (t : World σ × υ) (hst : Beside related s t) :
      Agree (Beside related) (beside (readOutput output) s) (beside (readOutput output) t) := by
    obtain ⟨hworld, hst⟩ := hst
    exact ⟨by simp [beside, hworld], by simp [beside, hworld], hst⟩
  have hboth : Beside related (w, t) (w, u) := ⟨rfl, h⟩
  obtain ⟨v, ⟨w', t'⟩, ⟨_, u'⟩, ⟨rfl, hlast⟩, hs, ht⟩ := stream_agree (q := q) hread hcall hboth
  rw [Act.start_does, Act.start_does, hs, ht]
  exact ⟨rfl, rfl, hlast⟩

theorem traverse_agree (hcall : CallbacksAgree (Beside related) callback callback') (q : Query) :
    StepsAgree related (traverse q callback) (traverse q callback') := by
  refine (stepsAgree_onWorld _).bind fun link => (stepsAgree_onWorld _).bind fun output => ?_
  refine (stepsAgree_startHelpers q link output).bind fun (lister, dumper) => ?_
  refine (stepsAgree_stream hcall q output).bind fun verdict => ?_
  refine (stepsAgree_reapLister lister dumper verdict).bind fun listerCode => ?_
  refine (stepsAgree_onWorld _).bind fun _ => ?_
  exact stepsAgree_conclude verdict listerCode _

end Walk

end ChatSpace.History
