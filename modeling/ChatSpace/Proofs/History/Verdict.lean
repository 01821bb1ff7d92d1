import ChatSpace.Proofs.Files.Walk
import ChatSpace.Proofs.History.Delivery
import ChatSpace.Proofs.History.Elsewhere

namespace ChatSpace

namespace History

open Batch Files Processes

variable {σ τ υ S T : Type}

def noting (callback : Commit → S × τ → Answer × (S × τ)) (c : Commit)
    (s : S × τ × List (Commit × Answer)) : Answer × (S × τ × List (Commit × Answer)) :=
  match callback c (s.1, s.2.1) with
  | (a, r, t) => (a, r, t, s.2.2 ++ [(c, a)])

def forget (s : S × τ × List (Commit × Answer)) : S × τ :=
  (s.1, s.2.1)

def noted (c : Commit) (calls : List (Commit × Answer)) (a : Answer)
    (calls' : List (Commit × Answer)) : Prop :=
  calls' = calls ++ [(c, a)]

theorem traceable_noted : Traceable noted (· <+: ·) where
  refl := List.prefix_refl
  trans := List.IsPrefix.trans
  step h := h ▸ List.prefix_append _ _
  unique := by
    rintro c a b calls m n last rfl rfl hm hn
    have hsame := (List.prefix_of_prefix_length_le hm hn (by simp)).eq_of_length (by simp)
    simp only [List.append_cancel_left_eq, List.cons.injEq, Prod.mk.injEq, true_and, and_true]
      at hsame
    exact ⟨hsame, by rw [hsame]⟩

section Stream

variable {q : Query} {output : Nat} {s : World σ × τ}
  {callback : Commit → World σ × τ → Answer × (World σ × τ)}
  {callback' : Commit → World σ × υ → Answer × (World σ × υ)} {v : Verdict}

theorem stream_eq {s' : World σ × τ} (h : Batch.Framer.pump (beside (readOutput output)) callback
      { delimiter := q.delimiter } s = some (v, s')) :
    stream q output callback s = (v, (s'.1.close ⟨output, .reading⟩, s'.2)) := by
  rw [stream, h]
  rfl

theorem stream_of_none (h : Batch.Framer.pump (beside (readOutput output)) callback
      { delimiter := q.delimiter } s = none) :
    stream q output callback s = (.unread .deadlock, (s.1.close ⟨output, .reading⟩, s.2)) := by
  rw [stream, h]
  rfl

theorem stream_agree {related : World σ × τ → World σ × υ → Prop}
    (hread : ∀ s t, related s t →
      Agree related (beside (readOutput output) s) (beside (readOutput output) t))
    (hcall : CallbacksAgree related callback callback') {t : World σ × υ} (h : related s t) :
    ∃ v s' t', related s' t' ∧
      stream q output callback s = (v, (s'.1.close ⟨output, .reading⟩, s'.2)) ∧
      stream q output callback' t = (v, (t'.1.close ⟨output, .reading⟩, t'.2)) := by
  rcases pump_agree hread hcall { delimiter := q.delimiter } h with
    ⟨v, s', t', hs, ht, hboth⟩ | ⟨hs, ht⟩
  · exact ⟨v, s', t', hboth, stream_eq hs, stream_eq ht⟩
  · exact ⟨_, s, t, h, stream_of_none hs, stream_of_none ht⟩

theorem stream_keeps {keeps : World σ × τ → Prop}
    (hread : ∀ s, keeps s → keeps (beside (readOutput output) s).2)
    (hcall : ∀ c s, keeps s → keeps (callback c s).2) (h : keeps s) :
    ∃ v s', keeps s' ∧
      stream q output callback s = (v, (s'.1.close ⟨output, .reading⟩, s'.2)) := by
  rcases hpump : Batch.Framer.pump (beside (readOutput output)) callback
      { delimiter := q.delimiter } s with
    _ | ⟨v, s'⟩
  · exact ⟨_, s, h, stream_of_none hpump⟩
  · exact ⟨v, s', pump_keeps hread hcall h hpump, stream_eq hpump⟩

theorem stream_isOfDump {e : TraversalError} (h : (stream q output callback s).1 = .failed e) :
    e.isOfDump := by
  rcases hpump : Batch.Framer.pump (beside (readOutput output)) callback
      { delimiter := q.delimiter } s with
    _ | ⟨v, s'⟩
  · rw [stream_of_none hpump] at h
    cases h
  · rw [stream_eq hpump] at h
    obtain rfl : v = .failed e := h
    exact pump_isOfDump hpump

theorem stream_ne_exec (e : ExecError) :
    (stream q output callback s).1 ≠ .failed (.exec e) :=
  fun h => absurd (stream_isOfDump h) nofun

theorem stream_noting {w w' : World σ} {t t' : τ} {calls calls' : List (Commit × Answer)}
    (h : stream q output (noting callback) (w, t, calls) = (v, (w', t', calls'))) :
    stream q output callback (w, t) = (v, (w', t')) := by
  let related (s : World σ × τ) (s' : World σ × τ × List (Commit × Answer)) : Prop :=
    s = forget s'
  have hread (s s') (hs : related s s') :
      Agree related (beside (readOutput output) s) (beside (readOutput output) s') := by
    subst hs
    exact ⟨rfl, rfl⟩
  have hcall : CallbacksAgree related callback (noting callback) := by
    rintro oid raw c _ s' - rfl
    exact ⟨rfl, rfl⟩
  obtain ⟨v', s₁, s₂, rfl, hs, hs'⟩ := stream_agree (q := q) hread hcall (s := (w, t))
    (t := (w, t, calls)) rfl
  have hsame := hs'.symm.trans h
  simp only [Prod.mk.injEq] at hsame
  obtain ⟨rfl, rfl, hkept⟩ := hsame
  rw [hs, forget, hkept]

end Stream

section Stream

variable {q : Query} {walk : Walk} {keeps : τ → Prop}
  {callback : Commit → World σ × τ → Answer × (World σ × τ)} {w : World σ} {t : τ}
  {before : Bytes}

theorem Discreet.noting (h : Discreet walk keeps callback) :
    Discreet walk (fun u => keeps u.1) (noting callback) where
  kept c s := h.kept c (forget s)
  elsewhere c s := h.elsewhere c (forget s)

theorem Discreet.supplies (h : Discreet walk keeps callback) :
    Supplies (beside (readOutput walk.output)) callback
      (fun before s => keeps s.2 ∧ walk.Taken before s.1) (fun s => walk.Drained s.1)
      (fun s => walk.rank s.1) where
  read := by
    rintro before ⟨w, t⟩ ⟨ht, htaken⟩
    obtain ⟨part, w', hread, htaken', hlast, hless⟩ := htaken.receive 8191
    refine ⟨part, (w', t), ?_, ⟨ht, htaken'⟩, hlast, hless⟩
    simp [beside, readOutput, readSize, hread]
  callback := by
    rintro before s c ⟨ht, htaken⟩
    have hlasts := htaken.elsewhere (h.elsewhere c s ht)
    exact ⟨⟨h.kept c s ht, hlasts.taken⟩, hlasts.rank⟩

theorem observes_noting (output : Nat)
    (callback : Commit → World σ × τ → Answer × (World σ × τ)) :
    Observes (beside (readOutput output)) (noting callback) (fun s => s.2.2) noted where
  read _ := rfl
  callback _ _ := rfl

theorem Walk.Taken.close (h : walk.Taken before w) (e : PipeEnd) : walk.Taken before (w.close e) :=
  ⟨h.toJoined.of_calm (World.calm_close w e), h.said⟩

theorem stream_concludes (htaken : walk.Taken [] w) (hd : Discreet walk keeps callback)
    (ht : keeps t) :
    ∃ v w' t' calls dump,
      stream q walk.output (noting callback) (w, t, []) = (v, (w', t', calls)) ∧
      (∀ source, v ≠ .unread source) ∧ walk.Joined w' ∧ ⟨walk.output, .reading⟩ ∉ w'.held ∧
      w'.settle.said? walk.dumper = some dump ∧
      (Brief q.delimiter dump → ∀ os rest, Records q.delimiter dump os rest →
        Exhausted q.delimiter rest → Concludes q.delimiter noted os rest [] v calls) := by
  obtain ⟨v, ⟨w', t', calls⟩, read, hpump, hreads, ⟨-, hread⟩, hall⟩ :=
    pump_concludes (f := { delimiter := q.delimiter }) (s := (w, t, [])) hd.noting.supplies
      (observes_noting walk.output callback) ⟨ht, htaken⟩ (Framer.take_nil _)
  have hclosed := hread.close ⟨walk.output, .reading⟩
  have hlasts := hclosed.elsewhere ((Walk.stable_elsewhere walk _).settle .done)
  obtain ⟨late, hlate, hsaid⟩ := hlasts.taken.said
  refine ⟨v, w'.close ⟨walk.output, .reading⟩, t', calls, _, stream_eq hpump, hreads,
    hclosed.toJoined, by simp [World.close], hsaid, fun hbrief os rest hrec hrest => ?_⟩
  refine hall late os rest (fun hdrained => ?_) hbrief hrec hrest
  -- what was drained is so after the reader has closed it
  have hstill := hlasts.drained ⟨hdrained.content, hdrained.dumper⟩
  exact Option.some.inj (hlate.symm.trans hstill.content)

end Stream

def follow (q : Query) (walk : Walk) (callback : Commit → World σ × τ → Answer × (World σ × τ)) :
    Act (World σ × τ) TraversalError Outcome := do
  let verdict ← Act.does (stream q walk.output callback)
  let listerCode ← reapLister walk.lister walk.dumper verdict
  let dumperCode ← onWorld (reapHelper walk.dumper verdict)
  conclude verdict listerCode dumperCode

theorem start_onWorld_of_ok {α : Type} {act : Act (World σ) ExecError α} {w w' : World σ} {a : α}
    (h : act.start w = (.ok a, w')) (t : τ) :
    (onWorld act : Act (World σ × τ) TraversalError α).start (w, t) = (.ok a, (w', t)) := by
  simp [onWorld, h, Except.mapError]

theorem start_onWorld_of_error {α : Type} {act : Act (World σ) ExecError α} {w w' : World σ}
    {stop : Stop ExecError} (h : act.start w = (.error stop, w')) (t : τ) :
    (onWorld act : Act (World σ × τ) TraversalError α).start (w, t) =
      (.error (stop.map .exec), (w', t)) := by
  simp [onWorld, h, Except.mapError]

theorem start_onWorldClosing_of_ok {α : Type} {act : Act (World σ) ExecError α} {w w' : World σ}
    {a : α} (h : act.start w = (.ok a, w')) (ends : List PipeEnd) (t : τ) :
    (onWorldClosing ends act : Act (World σ × τ) TraversalError α).start (w, t) =
      (.ok a, (w', t)) :=
  start_onWorld_of_ok (Act.start_onFailure_of_ok h) t

theorem start_onWorldClosing_of_error {α : Type} {act : Act (World σ) ExecError α}
    {w w' : World σ} {stop : Stop ExecError} (h : act.start w = (.error stop, w'))
    (ends : List PipeEnd) (t : τ) :
    (onWorldClosing ends act : Act (World σ × τ) TraversalError α).start (w, t) =
      (.error (stop.map .exec), (w'.closeAll ends, t)) :=
  start_onWorld_of_error (Act.start_onFailure_of_error h) t

theorem start_reapLister_of_ok {lister : Handle} {v : Verdict} {w w' : World σ} {code : Nat}
    (h : (reapHelper lister v).start w = (.ok code, w')) (dumper : Handle) (t : τ) :
    (reapLister lister dumper v : Act (World σ × τ) TraversalError Nat).start (w, t) =
      (.ok code, (w', t)) := by
  rw [reapLister, Act.start_bind_of_ok (start_onWorld_of_ok (Act.start_attempt_of_ok h) t)]
  rfl

theorem start_traverse {q : Query} {walk : Walk}
    {callback : Commit → World σ × τ → Answer × (World σ × τ)} {w w' : World σ}
    (h : (launch q).start w = (.ok walk, w')) (t : τ) :
    (traverse q callback).start (w, t) = (follow q walk callback).start (w', t) := by
  obtain ⟨w₃, hlink, houtput, hlister, hdumper⟩ := Walk.launch_eq_ok h
  have hhelpers :
      (startHelpers q walk.link walk.output : Act (World σ × τ) TraversalError _).start
        (w.withPipe.withPipe, t) = (.ok (walk.lister, walk.dumper), (w', t)) := by
    rw [startHelpers, Act.start_bind_of_ok (start_onWorldClosing_of_ok hlister _ t),
      Act.start_bind_of_ok (start_onWorld_of_ok (Act.start_attempt_of_ok hdumper) t)]
    rfl
  rw [traverse, Act.start_bind_of_ok (start_onWorld_of_ok hlink t),
    Act.start_bind_of_ok (start_onWorldClosing_of_ok houtput _ t), Act.start_bind_of_ok hhelpers]
  rfl

def reaped (walk : Walk) (v : Verdict) (a b : Exit) (w : World σ) : World σ :=
  { w.settle with
    journal :=
      { w.journal with
        warnings := w.journal.warnings ++ (a.warning? (v ≠ .ended .completed)).toList ++
          (b.warning? (v ≠ .ended .completed)).toList
        waits := w.journal.waits ++
          [⟨walk.lister.child, w.held ++ w.copies⟩, ⟨walk.dumper.child, w.held ++ w.copies⟩] } }

theorem start_follow_of_ended {q : Query} {walk : Walk}
    {callback : Commit → World σ × τ → Answer × (World σ × τ)} {w w' : World σ} {t t' : τ}
    {v : Verdict} {a b : Exit} (ha : w'.settle.exit? walk.lister = some a)
    (hb : w'.settle.exit? walk.dumper = some b)
    (hstream : stream q walk.output callback (w, t) = (v, (w', t'))) :
    (follow q walk callback).start (w, t) =
      (conclude v a.status b.status).start (reaped walk v a b w', t') := by
  let journal : Journal :=
    { w'.journal with
      warnings := w'.journal.warnings ++ (a.warning? (v ≠ .ended .completed)).toList
      waits := w'.journal.waits ++ [⟨walk.lister.child, w'.held ++ w'.copies⟩] }
  have hlister : (reapHelper walk.lister v).start w' =
      (.ok a.status, { w'.settle with journal }) :=
    Executor.start_reap ha _
  -- children at rest stay so while the next one is waited for
  have hsettle : World.settle { w'.settle with journal } = { w'.settle with journal } :=
    World.settle_of_atRest (World.atRest_settle w')
  have hdumper : (reapHelper walk.dumper v).start { w'.settle with journal } =
      (.ok b.status, reaped walk v a b w') := by
    have hreap := Executor.start_reap (w := { w'.settle with journal }) (h := walk.dumper)
      (by rw [hsettle]; exact hb) (v ≠ .ended .completed)
    rw [hsettle] at hreap
    simpa [reaped, journal, reapHelper] using hreap
  rw [follow, Act.start_bind_does, hstream,
    Act.start_bind_of_ok (start_reapLister_of_ok hlister walk.dumper t'),
    Act.start_bind_of_ok (start_onWorld_of_ok hdumper t')]

/-- What decides the outcome of a walk: the objects and the bytes after them, the calls of the
callback with its answers, and how the helpers ended. -/
structure Account (d : Delimiter) (os : List Object) (rest : Bytes)
    (calls : List (Commit × Answer)) (a b : Exit)
    (result : Except (Stop TraversalError) Outcome) : Prop where
  completed : result = .ok .completed ↔
    (rest = [] ∧ Proceeds noted os [] calls) ∧ a = .code 0 ∧ b = .code 0
  stopped : result = .ok .stopped ↔ EndsEarly noted os [] (.ended .stopped) calls
  parse (e) : result = .error (.failed (.parse e)) ↔
    EndsEarly noted os [] (.failed (.parse e)) calls
  callback (chain) : result = .error (.failed (.callback chain)) ↔
    EndsEarly noted os [] (.failed (.callback chain)) calls
  protocol (e) : result = .error (.failed (.protocol e)) ↔
    Framer.ending d rest = .error e ∧ Proceeds noted os [] calls
  helperExit (helper code) : result = .error (.failed (.helperExit helper code)) ↔
    (rest = [] ∧ Proceeds noted os [] calls) ∧ code ≠ 0 ∧
      (helper = .lister ∧ a.Gives code ∨ helper = .dumper ∧ a = .code 0 ∧ b.Gives code)
  exec (e) : result ≠ .error (.failed (.exec e))
  halted (text) : result ≠ .error (.halted text)

section Outcome

variable {d : Delimiter} {os : List Object} {rest : Bytes} {calls : List (Commit × Answer)}
  {v u : Verdict}

theorem ending_eq_ok_iff : Framer.ending d rest = .ok () ↔ rest = [] := by
  constructor
  · intro h
    unfold Framer.ending at h
    split at h
    · cases h
    · split at h
      · assumption
      · cases h
  · rintro rfl
    rw [Framer.ending_of_none (Framer.take_nil d), if_pos rfl]

theorem ofRest_eq_completed_iff : Verdict.ofRest d rest = .ended .completed ↔ rest = [] := by
  rw [← ending_eq_ok_iff (d := d), Verdict.ofRest]
  rcases Framer.ending d rest with e | ⟨⟩ <;> simp

theorem ofRest_eq_protocol_iff {e : ProtocolError} :
    Verdict.ofRest d rest = .failed (.protocol e) ↔ Framer.ending d rest = .error e := by
  rw [Verdict.ofRest]
  rcases Framer.ending d rest with e | ⟨⟩ <;> simp

theorem ofRest_cases (d : Delimiter) (rest : Bytes) :
    rest = [] ∧ Verdict.ofRest d rest = .ended .completed ∨
      ∃ e, Framer.ending d rest = .error e ∧ Verdict.ofRest d rest = .failed (.protocol e) := by
  cases h : Framer.ending d rest with
  | ok _ => exact .inl ⟨ending_eq_ok_iff.mp h, ofRest_eq_completed_iff.mpr (ending_eq_ok_iff.mp h)⟩
  | error e => exact .inr ⟨e, rfl, ofRest_eq_protocol_iff.mpr h⟩

theorem Concludes.unique_noted (h : Concludes d noted os rest [] v calls)
    (h' : Concludes d noted os rest [] u calls) : v = u :=
  (h.unique traceable_noted h' List.prefix_rfl List.prefix_rfl).1

theorem EndsEarly.verdict_cases (h : EndsEarly noted os [] v calls) :
    (∃ e, v = .failed (.parse e)) ∨ (∃ chain, v = .failed (.callback chain)) ∨
      v = .ended .stopped := by
  obtain ⟨before, o, after, middle, -, -, hends⟩ := h
  cases hends with
  | unparsed _ => exact .inl ⟨_, rfl⟩
  | refused _ _ => exact .inr (.inl ⟨_, rfl⟩)
  | stopped _ _ => exact .inr (.inr rfl)

theorem EndsEarly.ne_ofRest (h : EndsEarly noted os [] v calls) : v ≠ .ofRest d rest := by
  intro heq
  rcases ofRest_cases d rest with ⟨-, hrest⟩ | ⟨e, -, hrest⟩ <;> rw [hrest] at heq <;>
    subst heq <;> rcases h.verdict_cases with ⟨e, he⟩ | ⟨chain, he⟩ | he <;> cases he

def cleanEnd (a b : Nat) : Except (Stop TraversalError) Outcome :=
  if a ≠ 0 then .error (.failed (.helperExit .lister a))
  else if b ≠ 0 then .error (.failed (.helperExit .dumper b))
  else .ok .completed

theorem start_conclude_completed (a b : Nat) (s : World σ × τ) :
    (conclude (.ended .completed) a b).start s = (cleanEnd a b, s) := by
  simp only [conclude, cleanEnd]
  split
  · rfl
  · split <;> rfl

theorem exists_conclude (hv : ∀ source, v ≠ .unread source) (a b : Nat) :
    ∃ result, ∀ (τ : Type) (s : World σ × τ), (conclude v a b).start s = (result, s) := by
  rcases v with (_ | _) | e | source
  · exact ⟨_, fun _ s => start_conclude_completed a b s⟩
  · exact ⟨_, fun _ _ => rfl⟩
  · exact ⟨_, fun _ _ => rfl⟩
  · exact absurd rfl (hv source)

theorem cleanEnd_eq_completed_iff {a b : Nat} : cleanEnd a b = .ok .completed ↔ a = 0 ∧ b = 0 := by
  unfold cleanEnd
  split
  · next ha => simp [ha]
  · next ha =>
    split
    · next hb => simp [hb]
    · next hb => simp [Decidable.not_not.mp ha, Decidable.not_not.mp hb]

theorem cleanEnd_eq_helperExit_iff {a b code : Nat} {helper : Helper} :
    cleanEnd a b = .error (.failed (.helperExit helper code)) ↔
      code ≠ 0 ∧ (helper = .lister ∧ code = a ∨ helper = .dumper ∧ a = 0 ∧ code = b) := by
  unfold cleanEnd
  split
  · next ha => cases helper <;> grind
  · next ha =>
    split
    · next hb => cases helper <;> grind
    · next hb => cases helper <;> grind

theorem cleanEnd_cases (a b : Nat) :
    cleanEnd a b = .ok .completed ∨
      ∃ helper code, cleanEnd a b = .error (.failed (.helperExit helper code)) := by
  unfold cleanEnd
  split
  · exact .inr ⟨_, _, rfl⟩
  · split
    · exact .inr ⟨_, _, rfl⟩
    · exact .inl rfl

theorem account_cleanEnd (hall : Proceeds noted os [] calls)
    (hnot : ∀ u, ¬ EndsEarly noted os [] u calls) (a b : Exit) :
    Account d os [] calls a b (cleanEnd a.status b.status) := by
  have hend : Framer.ending d [] = .ok () := ending_eq_ok_iff.mpr rfl
  have hcases := cleanEnd_cases a.status b.status
  constructor
  case completed =>
    rw [cleanEnd_eq_completed_iff, Exit.status_eq_zero_iff, Exit.status_eq_zero_iff]
    constructor
    · intro hcodes
      exact ⟨⟨rfl, hall⟩, hcodes⟩
    · rintro ⟨-, hcodes⟩
      exact hcodes
  case helperExit =>
    intro helper code
    rw [cleanEnd_eq_helperExit_iff, ← Exit.gives_iff, ← Exit.gives_iff, Exit.status_eq_zero_iff]
    constructor
    · intro hcodes
      exact ⟨⟨rfl, hall⟩, hcodes⟩
    · rintro ⟨-, hcodes⟩
      exact hcodes
  -- no other outcome comes of the codes, and nothing else calls for one
  all_goals rcases hcases with heq | ⟨helper, code, heq⟩ <;> simp [heq, hnot, hend]

theorem Concludes.account (h : Concludes d noted os rest [] v calls) (a b : Exit) :
    ∃ result, Account d os rest calls a b result ∧ ∀ (τ : Type) (s : World σ × τ),
      (conclude v a.status b.status).start s = (result, s) := by
  have hsame {u : Verdict} (h' : Concludes d noted os rest [] u calls) : u = v := h'.unique_noted h
  cases h with
  | early hearly =>
      have hnot : ¬ Proceeds noted os [] calls := by
        intro hall
        exact hearly.ne_ofRest (hsame (.drained hall)).symm
      have hiff (u : Verdict) : EndsEarly noted os [] u calls ↔ u = v := by
        constructor
        · intro h
          exact hsame (.early h)
        · rintro rfl
          exact hearly
      rcases hearly.verdict_cases with ⟨e, rfl⟩ | ⟨chain, rfl⟩ | rfl
      · refine ⟨.error (.failed (.parse e)), ?_, fun _ _ => rfl⟩
        constructor <;> simp [hiff, hnot, eq_comm]
      · refine ⟨.error (.failed (.callback chain)), ?_, fun _ _ => rfl⟩
        constructor <;> simp [hiff, hnot, eq_comm]
      · refine ⟨.ok .stopped, ?_, fun _ _ => rfl⟩
        constructor <;> simp [hiff, hnot]
  | drained hall =>
      have hnot (u : Verdict) : ¬ EndsEarly noted os [] u calls := by
        intro h
        exact h.ne_ofRest (hsame (.early h))
      rcases ofRest_cases d rest with ⟨rfl, heq⟩ | ⟨e, hend, heq⟩
      · refine ⟨_, account_cleanEnd hall hnot a b, ?_⟩
        intro τ s
        rw [heq, start_conclude_completed]
      · have hrest : rest ≠ [] := by
          intro hnil
          simp [ending_eq_ok_iff.mpr hnil] at hend
        refine ⟨.error (.failed (.protocol e)), ?_, fun τ s => by rw [heq]; rfl⟩
        constructor <;> simp [hall, hnot, hend, hrest]

end Outcome

theorem traverse_account {q : Query} {walk : Walk} {keeps : τ → Prop}
    {callback : Commit → World σ × τ → Answer × (World σ × τ)} {w w₁ : World σ} {t : τ}
    (hsound : w.Sound) (hlaunch : (launch q).start w = (.ok walk, w₁))
    (hdiscreet : Discreet walk keeps callback) (ht : keeps t) :
    ∃ result w₂ t₂ calls a b dump,
      (traverse q callback).start (w, t) = (result, (w₂, t₂)) ∧
      (traverse q (noting callback)).start (w, (t, [])) = (result, (w₂, (t₂, calls))) ∧
      w₂.exit? walk.lister = some a ∧ w₂.exit? walk.dumper = some b ∧
      w₂.said? walk.dumper = some dump ∧
      (Brief q.delimiter dump → ∃ os rest, Records q.delimiter dump os rest ∧
        Exhausted q.delimiter rest ∧ Account q.delimiter os rest calls a b result) := by
  obtain ⟨v, w', t', calls, dump, hstream, hreads, hj, hclosed, hsaid, hconc⟩ :=
    stream_concludes (q := q) (Walk.taken_of_launch hsound hlaunch) hdiscreet ht
  obtain ⟨a, b, ha, hb⟩ := hj.settle.ended (World.atRest_settle w') (.inr (by simpa using hclosed))
  obtain ⟨result, hconclude⟩ := exists_conclude (σ := σ) hreads a.status b.status
  have haccount : Brief q.delimiter dump → ∃ os rest, Records q.delimiter dump os rest ∧
      Exhausted q.delimiter rest ∧ Account q.delimiter os rest calls a b result := by
    intro hbrief
    obtain ⟨os, rest, hrec, hrest⟩ := exists_records q.delimiter dump
    obtain ⟨result', haccount, hconclude'⟩ := (hconc hbrief os rest hrec hrest).account (σ := σ) a b
    have hsame := (hconclude' τ (w', t')).symm.trans (hconclude τ (w', t'))
    obtain rfl : result' = result := congrArg Prod.fst hsame
    exact ⟨os, rest, hrec, hrest, haccount⟩
  refine ⟨result, reaped walk v a b w', t', calls, a, b, dump, ?_, ?_, ha, hb, hsaid, haccount⟩
  · rw [start_traverse hlaunch, start_follow_of_ended ha hb (stream_noting hstream), hconclude]
  · rw [start_traverse hlaunch, start_follow_of_ended ha hb hstream, hconclude]

def hushedQuery : Query :=
  { workDir := Utf8.encode "/bin", start := none, limit := none, delimiter := ⟨"0123456789abcdef"⟩ }

def hushedWorld : World Unit :=
  { state := ()
    programs := fun launch s =>
      (if launch.args.head? = some (Utf8.encode Helper.dumper.verb) then
        { actions := [], exit := .signal 9 }
      else { actions := [], exit := .code 0 }, s)
    environment := [(Utf8.encode "PATH", Utf8.encode "/bin")]
    plumbing :=
      { files := .ofList
          [([Utf8.encode "bin", Utf8.encode "git"], .file 0o755 Image.nativeMark)] } }

def hushedWalk : Walk :=
  ⟨0, 1, ⟨0, engineName⟩, ⟨1, engineName⟩⟩

def freshShowing : Space.Showing :=
  { writer := .sink {} }

def hushedSpace : Space :=
  { location := [] }

theorem resolve_hushed_bin (here : Files.Location) :
    hushedWorld.plumbing.files.resolve here (Utf8.encode "/bin") =
      .ok ([Utf8.encode "bin"],
        .directory [(Utf8.encode "git", .file 0o755 Image.nativeMark)]) :=
  Tree.resolve_of_descend here (by decide) rfl (by simp)

theorem resolve_hushed_git (here : Files.Location) :
    hushedWorld.plumbing.files.resolve here (Utf8.encode "/bin/git") =
      .ok ([Utf8.encode "bin", Utf8.encode "git"], .file 0o755 Image.nativeMark) :=
  Tree.resolve_of_descend here (by decide) rfl (by simp)

theorem spawn_hushed {w : World Unit} {s : Spec}
    (hs : s = hushedQuery.lister 0 ∨ s = hushedQuery.dumper 0 1)
    (hfiles : w.plumbing.files = hushedWorld.plumbing.files)
    (henvironment : w.environment = hushedWorld.environment) (hfree : w.exhausted = false)
    (hformats : w.formats = Image.ofContent) :
    let c := Executor.commandOf w s (Utf8.encode "/bin/git")
    (Executor.spawn s).start w = (.ok ⟨w.children.length, engineName⟩,
      (((w.noteLabel s.streams.label).noteStart c none).addChild c
        ⟨Image.nativeMark, c.args, Command.visible c.environment, [Utf8.encode "bin"],
          w.plumbing.files⟩).closeAll s.ends) := by
  have hpath : Lookup.find? w.plumbing.files w.directory w.searchPath .engine =
      some (Utf8.encode "/bin/git") := by
    rw [hfiles, World.searchPath_of_environment henvironment]
    exact Lookup.search_of_head rfl (resolve_hushed_git w.directory) rfl
  intro c
  have hhere : c.directory w.plumbing.files w.directory = .ok [Utf8.encode "bin"] := by
    have hdir : c.workDir = some (Utf8.encode "/bin") := by
      rcases hs with rfl | rfl <;> rfl
    rw [Command.directory, hdir, hfiles]
    simp only [resolve_hushed_bin]
  have hnul : c.hasNul = false := by
    simp only [c, Executor.commandOf, henvironment]
    rcases hs with rfl | rfl <;> decide
  have hlong : c.isTooLong (Utf8.encode "/bin/git") = false := by
    simp only [c, Executor.commandOf, henvironment]
    rcases hs with rfl | rfl <;> decide
  have hgit : w.plumbing.files.resolve [Utf8.encode "bin"] (Utf8.encode "/bin/git") = _ :=
    hfiles ▸ resolve_hushed_git _
  rcases hs with rfl | rfl <;>
    exact Executor.spawn_of_native hfree hpath (by decide) hnul hlong hhere hgit rfl
      (hformats ▸ by decide)

def hushedCommand (s : Spec) : Command :=
  Executor.commandOf hushedWorld s (Utf8.encode "/bin/git")

def hushedStart : World Unit :=
  { hushedWorld with
    plumbing := { hushedWorld.plumbing with pipes := [[], []] }
    held := [⟨1, .reading⟩]
    children := [
      { streams := hushedWalk.listerStreams
        directory := [Utf8.encode "bin"]
        actions := []
        exit := .code 0
        broken := .signal Signal.brokenPipe },
      { streams := hushedWalk.dumperStreams
        directory := [Utf8.encode "bin"]
        actions := []
        exit := .signal 9
        broken := .signal Signal.brokenPipe }]
    journal :=
      { labels := [hushedWalk.listerStreams.label, hushedWalk.dumperStreams.label]
        starts :=
          [⟨hushedCommand (hushedQuery.lister 0), none⟩,
            ⟨hushedCommand (hushedQuery.dumper 0 1), none⟩] } }

theorem launch_hushed :
    (launch hushedQuery).start hushedWorld = (.ok hushedWalk, hushedStart) := by
  have hlink : (Executor.openPipe : Act (World Unit) ExecError Nat).start hushedWorld =
      (.ok 0, hushedWorld.openPipe.2) := rfl
  have houtput : (Executor.openPipe : Act (World Unit) ExecError Nat).start
      hushedWorld.openPipe.2 = (.ok 1, hushedWorld.openPipe.2.openPipe.2) := rfl
  have hlister := spawn_hushed (w := hushedWorld.openPipe.2.openPipe.2) (.inl rfl) rfl rfl rfl rfl
  rw [launch, Act.start_bind_of_ok hlink, Act.start_bind_of_ok houtput,
    Act.start_bind_of_ok hlister]
  generalize hw : World.closeAll _ (hushedQuery.lister 0).ends = w
  have hdumper := spawn_hushed (w := w) (.inr rfl) (hw ▸ rfl) (hw ▸ rfl) (hw ▸ rfl) (hw ▸ rfl)
  rw [Act.start_bind_of_ok hdumper, ← hw]
  rfl

def hushedEnd : World Unit :=
  { hushedStart with
    children := hushedStart.children.map fun c => { c with ended := some c.exit } }

theorem settle_hushedStart : hushedStart.settle = hushedEnd := by
  have hrest : hushedEnd.AtRest := (rfl : World.stepFirst _ _ _ = none)
  rw [World.settle_of_stepFirst rfl, World.settle_of_stepFirst rfl]
  exact World.settle_of_atRest hrest

def hushedLast : World Unit :=
  hushedEnd.close ⟨1, .reading⟩

theorem settle_hushedLast : hushedLast.settle = hushedLast :=
  World.settle_of_atRest (rfl : World.stepFirst _ _ _ = none)

theorem stream_hushed {τ : Type} (callback : Commit → World Unit × τ → Answer × (World Unit × τ))
    (t : τ) : stream hushedQuery 1 callback (hushedStart, t) =
      (.ended .completed, (hushedLast, t)) := by
  have hsettle : hushedStart.settleIfEmpty 1 = hushedEnd := (if_pos rfl).trans settle_hushedStart
  have hread : hushedStart.receive 1 readSize = (.ok [], hushedEnd) := by
    rw [World.receive, hsettle]
    rfl
  have hbeside : beside (readOutput 1) (hushedStart, t) = (.ok [], (hushedEnd, t)) := by
    rw [beside, readOutput, hread]
  exact stream_eq (pump_of_end hbeside)

theorem traverse_account_hushed :
    hushedWorld.Sound ∧ (launch hushedQuery).start hushedWorld = (.ok hushedWalk, hushedStart) ∧
      Aside hushedWalk freshShowing.writer ∧
      ∃ w t, w.exit? hushedWalk.dumper = some (.signal 9) ∧
        (traverse hushedQuery (hushedSpace.showCommit {})).start (hushedWorld, freshShowing) =
          (.error (.failed (.helperExit .dumper 137)), (w, t)) := by
  have hsound : hushedWorld.Sound := ⟨by decide, rfl, by decide⟩
  have hdiscreet := discreet_showCommit (σ := Unit) hushedWalk hushedSpace {}
  have haside : Aside hushedWalk freshShowing.writer := nofun
  obtain ⟨result, w, t, calls, a, b, dump, hrun, hnoting, ha, hb, hsaid, haccount⟩ :=
    traverse_account hsound launch_hushed hdiscreet haside
  -- what the run comes to, with the calls beside it
  have hlister : hushedLast.settle.exit? hushedWalk.lister = some (.code 0) := by
    rw [settle_hushedLast]
    rfl
  have hdumper : hushedLast.settle.exit? hushedWalk.dumper = some (.signal 9) := by
    rw [settle_hushedLast]
    rfl
  rw [start_traverse launch_hushed,
    start_follow_of_ended hlister hdumper (stream_hushed _ _), start_conclude_completed] at hnoting
  simp only [Prod.mk.injEq] at hnoting
  obtain ⟨-, rfl, -, rfl⟩ := hnoting
  have hnothing : hushedLast.settle.said? hushedWalk.dumper = some [] := by
    rw [settle_hushedLast]
    rfl
  obtain rfl := Option.some.inj (hnothing.symm.trans hsaid)
  obtain rfl := Option.some.inj (hlister.symm.trans ha)
  obtain rfl := Option.some.inj (hdumper.symm.trans hb)
  have hrest := Framer.exhausted_of_none (Framer.take_nil hushedQuery.delimiter)
  have hbrief : Brief hushedQuery.delimiter [] := by
    apply Brief.of_exhausted hrest
    intro line tail heq _
    cases line with
    | nil => exact Nat.zero_le _
    | cons b line => cases heq
  obtain ⟨os, rest, hrec, hrest', haccount⟩ := haccount hbrief
  obtain ⟨rfl, rfl⟩ := hrec.unique .done hrest' hrest
  obtain rfl := (haccount.helperExit .dumper 137).mpr
    ⟨⟨rfl, .nil⟩, by decide, .inr ⟨rfl, rfl, .signal 9⟩⟩
  exact ⟨hsound, launch_hushed, haside, _, t, hb, hrun⟩

end History

end ChatSpace
