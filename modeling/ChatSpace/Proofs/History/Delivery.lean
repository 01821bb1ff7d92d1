import ChatSpace.History.Delivery
import ChatSpace.Proofs.Batch.Parts
import ChatSpace.Proofs.Batch.RoundTrip
import Mathlib.Order.RelClasses

namespace ChatSpace.History

open Batch

variable {S T κ τ α : Type}

inductive Proceeds (reply : Commit → κ → Answer → κ → Prop) : List Object → κ → κ → Prop
  | nil {k} : Proceeds reply [] k k
  | cons {o os c k k' k''} : Commit.parse o.oid o.content = .ok c → reply c k .proceed k' →
      Proceeds reply os k' k'' → Proceeds reply (o :: os) k k''

inductive Ends (reply : Commit → κ → Answer → κ → Prop) (o : Object) (k : κ) : Verdict → κ → Prop
  | unparsed {e} : Commit.parse o.oid o.content = .error e →
      Ends reply o k (.failed (.parse e)) k
  | refused {c chain k'} : Commit.parse o.oid o.content = .ok c →
      reply c k (.refuse chain) k' → Ends reply o k (.failed (.callback chain)) k'
  | stopped {c k'} : Commit.parse o.oid o.content = .ok c →
      reply c k .stop k' → Ends reply o k (.ended .stopped) k'

def Verdict.ofRest (d : Delimiter) (rest : Bytes) : Verdict :=
  match Framer.ending d rest with
  | .ok () => .ended .completed
  | .error e => .failed (.protocol e)

def EndsEarly (reply : Commit → κ → Answer → κ → Prop) (os : List Object) (k : κ) (v : Verdict)
    (k' : κ) : Prop :=
  ∃ before o after middle, os = before ++ o :: after ∧ Proceeds reply before k middle ∧
    Ends reply o middle v k'

inductive Concludes (d : Delimiter) (reply : Commit → κ → Answer → κ → Prop) (os : List Object)
    (rest : Bytes) (k : κ) : Verdict → κ → Prop
  | early {v k'} : EndsEarly reply os k v k' → Concludes d reply os rest k v k'
  | drained {k'} : Proceeds reply os k k' → Concludes d reply os rest k (.ofRest d rest) k'

structure Traceable (reply : Commit → κ → Answer → κ → Prop) (leads : κ → κ → Prop) : Prop where
  refl (k : κ) : leads k k
  trans {k k' k'' : κ} : leads k k' → leads k' k'' → leads k k''
  step {c : Commit} {a : Answer} {k k' : κ} : reply c k a k' → leads k k'
  unique {c : Commit} {a b : Answer} {k m n z : κ} : reply c k a m → reply c k b n →
    leads m z → leads n z → a = b ∧ m = n

def Answer.verdict? : Answer → Option Verdict
  | .proceed => none
  | .stop => some (.ended .stopped)
  | .refuse chain => some (.failed (.callback chain))

section Walk

variable {d : Delimiter} {reply : Commit → κ → Answer → κ → Prop} {leads : κ → κ → Prop}
  {o : Object} {os os' : List Object} {rest : Bytes} {k k' k'' m n z : κ} {v u : Verdict}

theorem Proceeds.append (h : Proceeds reply os k k') (h' : Proceeds reply os' k' k'') :
    Proceeds reply (os ++ os') k k'' := by
  induction h with
  | nil => exact h'
  | cons hparse hgo _ ih => exact .cons hparse hgo (ih h')

theorem Concludes.after (h : Proceeds reply os k k') (h' : Concludes d reply os' rest k' v k'') :
    Concludes d reply (os ++ os') rest k v k'' := by
  cases h' with
  | early hearly =>
      obtain ⟨before, o, after, middle, rfl, hbefore, hends⟩ := hearly
      exact .early ⟨_, o, after, middle, (List.append_assoc _ _ _).symm, h.append hbefore, hends⟩
  | drained hall => exact .drained (h.append hall)

theorem Concludes.of_corrupt {dump held late : Bytes} {e : ProtocolError} (hbrief : Brief d dump)
    (hfront : Records d dump os (held ++ late)) (htake : Object.take d held = .error e)
    (hall : Proceeds reply os k k') (hrec : Records d dump os' rest) (hrest : Exhausted d rest) :
    Concludes d reply os' rest k (.failed (.protocol e)) k' := by
  obtain ⟨more, rfl, hmore⟩ := hfront.split hrec hrest
  -- what was found corrupt stays so, and no object is left to end the walk
  have hcorrupt := (hbrief.of_records hfront).take_append htake
  obtain ⟨rfl, rfl⟩ := hmore.unique .done hrest (Framer.exhausted_of_error hcorrupt)
  have hverdict : Verdict.ofRest d (held ++ late) = .failed (.protocol e) := by
    rw [Verdict.ofRest, Framer.ending_of_error hcorrupt]
  rw [← hverdict]
  exact .after hall (.drained .nil)

theorem not_endsEarly_nil : ¬ EndsEarly reply [] k v k' := by
  rintro ⟨before, o, after, middle, hos, -, -⟩
  simp at hos

theorem Concludes.cons_cases (h : Concludes d reply (o :: os) rest k v k') :
    Ends reply o k v k' ∨
      ∃ k'', Proceeds reply [o] k k'' ∧ Concludes d reply os rest k'' v k' := by
  cases h with
  | early hearly =>
      obtain ⟨before, o', after, middle, hos, hbefore, hends⟩ := hearly
      cases hbefore with
      | nil =>
          rw [List.nil_append, List.cons.injEq] at hos
          exact .inl (hos.1 ▸ hends)
      | cons hparse hgo hbefore =>
          rw [List.cons_append, List.cons.injEq] at hos
          obtain ⟨rfl, hos⟩ := hos
          exact .inr ⟨_, .cons hparse hgo .nil, .early ⟨_, _, _, _, hos, hbefore, hends⟩⟩
  | drained hall =>
      cases hall with
      | cons hparse hgo hall => exact .inr ⟨_, .cons hparse hgo .nil, .drained hall⟩

theorem Proceeds.leads_to (h : Proceeds reply os k k') (ht : Traceable reply leads) :
    leads k k' := by
  induction h with
  | nil => exact ht.refl _
  | cons _ hgo _ ih => exact ht.trans (ht.step hgo) ih

theorem Ends.leads_to (h : Ends reply o k v k') (ht : Traceable reply leads) : leads k k' := by
  cases h with
  | unparsed _ => exact ht.refl k
  | refused _ hreply => exact ht.step hreply
  | stopped _ hreply => exact ht.step hreply

theorem Concludes.leads_to (h : Concludes d reply os rest k v k') (ht : Traceable reply leads) :
    leads k k' := by
  cases h with
  | early hearly =>
      obtain ⟨_, _, _, _, -, hbefore, hends⟩ := hearly
      exact ht.trans (hbefore.leads_to ht) (hends.leads_to ht)
  | drained hall => exact hall.leads_to ht

theorem Ends.answer {c : Commit} (h : Ends reply o k v k')
    (hparse : Commit.parse o.oid o.content = .ok c) :
    ∃ a, reply c k a k' ∧ a.verdict? = some v := by
  cases h with
  | unparsed hparse' => simp [hparse] at hparse'
  | refused hparse' hreply =>
      rw [hparse] at hparse'
      cases hparse'
      exact ⟨_, hreply, rfl⟩
  | stopped hparse' hreply =>
      rw [hparse] at hparse'
      cases hparse'
      exact ⟨_, hreply, rfl⟩

theorem Ends.unique (ht : Traceable reply leads) (h : Ends reply o k v m)
    (h' : Ends reply o k u n) (hm : leads m z) (hn : leads n z) : v = u ∧ m = n := by
  cases hparse : Commit.parse o.oid o.content with
  | error e => cases h <;> cases h' <;> simp_all
  | ok c =>
      obtain ⟨a, hreply, hv⟩ := h.answer hparse
      obtain ⟨b, hreply', hu⟩ := h'.answer hparse
      obtain ⟨rfl, rfl⟩ := ht.unique hreply hreply' hm hn
      rw [hv, Option.some.injEq] at hu
      exact ⟨hu, rfl⟩

theorem Ends.not_proceeds (ht : Traceable reply leads) (h : Ends reply o k v m)
    (h' : Proceeds reply [o] k n) (hm : leads m z) (hn : leads n z) : False := by
  cases h' with
  | cons hparse hgo hnil =>
      cases hnil
      obtain ⟨a, hreply, hv⟩ := h.answer hparse
      obtain ⟨rfl, -⟩ := ht.unique hgo hreply hn hm
      cases hv

theorem Proceeds.unique (ht : Traceable reply leads) (h : Proceeds reply [o] k m)
    (h' : Proceeds reply [o] k n) (hm : leads m z) (hn : leads n z) : m = n := by
  cases h with
  | cons hparse hgo hnil =>
      cases hnil
      cases h' with
      | cons hparse' hgo' hnil' =>
          cases hnil'
          rw [hparse] at hparse'
          cases hparse'
          exact (ht.unique hgo hgo' hm hn).2

theorem Concludes.unique (ht : Traceable reply leads) (h : Concludes d reply os rest k v m)
    (h' : Concludes d reply os rest k u n) (hm : leads m z) (hn : leads n z) :
    v = u ∧ m = n := by
  induction os generalizing k with
  | nil =>
      cases h with
      | early hearly => exact (not_endsEarly_nil hearly).elim
      | drained hall =>
          cases h' with
          | early hearly => exact (not_endsEarly_nil hearly).elim
          | drained hall' =>
              cases hall
              cases hall'
              exact ⟨rfl, rfl⟩
  | cons o os ih =>
      rcases h.cons_cases with hends | ⟨p, hgo, hconc⟩
      · rcases h'.cons_cases with hends' | ⟨q, hgo', hconc'⟩
        · exact hends.unique ht hends' hm hn
        · exact (hends.not_proceeds ht hgo' hm (ht.trans (hconc'.leads_to ht) hn)).elim
      · rcases h'.cons_cases with hends' | ⟨q, hgo', hconc'⟩
        · exact (hends'.not_proceeds ht hgo hn (ht.trans (hconc.leads_to ht) hm)).elim
        · obtain rfl := hgo.unique ht hgo' (ht.trans (hconc.leads_to ht) hm)
            (ht.trans (hconc'.leads_to ht) hn)
          exact ih hconc hconc'

end Walk

def Agree (related : S → T → Prop) (x : α × S) (y : α × T) : Prop :=
  x.1 = y.1 ∧ related x.2 y.2

theorem Agree.exists_eq {related : S → T → Prop} {x : α × S} {y : α × T} (h : Agree related x y) :
    ∃ a s t, x = (a, s) ∧ y = (a, t) ∧ related s t :=
  ⟨x.1, x.2, y.2, rfl, Prod.ext h.1.symm rfl, h.2⟩

def CallbacksAgree (related : S → T → Prop) (callback : Commit → S → Answer × S)
    (callback' : Commit → T → Answer × T) : Prop :=
  ∀ oid raw c s t, Commit.parse oid raw = .ok c → related s t →
    Agree related (callback c s) (callback' c t)

section Deliver

variable {d : Delimiter} {reply : Commit → κ → Answer → κ → Prop} {view : S → κ}
  {callback : Commit → S → Answer × S} {f g : Framer} {o : Object} {os : List Object}
  {rest tail : Bytes}

theorem next_of_take (htake : Object.take f.delimiter f.buffer = .ok (some (o, tail))) :
    f.next = .ok (some (o, .holding f.delimiter tail)) := by
  rw [Framer.next_eq, htake]
  rfl

theorem deliver_of_error {e : ProtocolError} (h : Object.take f.delimiter f.buffer = .error e)
    (s : S) : deliver callback f s = (.over (.failed (.protocol e)), s) := by
  have hnext : f.next = .error e := by
    rw [Framer.next_eq, h]
    rfl
  rw [deliver]
  split <;> simp_all

theorem deliver_of_none (h : Object.take f.delimiter f.buffer = .ok none) (s : S) :
    deliver callback f s = (.more f, s) := by
  have hnext : f.next = .ok none := by
    rw [Framer.next_eq, h]
    rfl
  rw [deliver]
  split <;> simp_all

theorem deliver_of_next (h : f.next = .ok (some (o, g))) (s : S) :
    deliver callback f s =
      match Commit.parse o.oid o.content with
      | .error e => (.over (.failed (.parse e)), s)
      | .ok c =>
          match callback c s with
          | (.refuse chain, s) => (.over (.failed (.callback chain)), s)
          | (.stop, s) => (.over (.ended .stopped), s)
          | (.proceed, s) => deliver callback g s := by
  rw [deliver]
  split
  · simp_all
  · simp_all
  · next hsome =>
    rw [h] at hsome
    cases hsome
    rfl

theorem deliver_agree {related : S → T → Prop} {callback' : Commit → T → Answer × T}
    (hcall : CallbacksAgree related callback callback') (f : Framer) {s : S}
    {t : T} (h : related s t) :
    Agree related (deliver callback f s) (deliver callback' f t) := by
  induction f, s using deliver.induct callback generalizing t with
  | case1 f s e hnext =>
      have htake := Framer.take_of_next_error hnext
      rw [deliver_of_error htake, deliver_of_error htake]
      exact ⟨rfl, h⟩
  | case2 f s hnext =>
      have htake := Framer.take_of_next_none hnext
      rw [deliver_of_none htake, deliver_of_none htake]
      exact ⟨rfl, h⟩
  | case3 f s o g hnext e hparse =>
      rw [deliver_of_next hnext, deliver_of_next hnext, hparse]
      exact ⟨rfl, h⟩
  | case4 f s o g hnext c hparse chain s' hanswer =>
      obtain ⟨a, s'', t', hcase, hother, hstep⟩ := (hcall _ _ c s t hparse h).exists_eq
      cases hanswer.symm.trans hcase
      rw [deliver_of_next hnext, deliver_of_next hnext, hparse]
      simp only [hanswer, hother]
      exact ⟨rfl, hstep⟩
  | case5 f s o g hnext c hparse s' hanswer =>
      obtain ⟨a, s'', t', hcase, hother, hstep⟩ := (hcall _ _ c s t hparse h).exists_eq
      cases hanswer.symm.trans hcase
      rw [deliver_of_next hnext, deliver_of_next hnext, hparse]
      simp only [hanswer, hother]
      exact ⟨rfl, hstep⟩
  | case6 f s o g hnext c hparse s' hanswer hlt ih =>
      obtain ⟨a, s'', t', hcase, hother, hstep⟩ := (hcall _ _ c s t hparse h).exists_eq
      cases hanswer.symm.trans hcase
      rw [deliver_of_next hnext, deliver_of_next hnext, hparse]
      simp only [hanswer, hother]
      exact ih hstep

theorem deliver_keeps {keeps : S → Prop} (hkeep : ∀ c s, keeps s → keeps (callback c s).2)
    (f : Framer) {s : S} (h : keeps s) : keeps (deliver callback f s).2 := by
  have hcall : CallbacksAgree (fun s t => s = t ∧ keeps s) callback callback := by
    rintro oid raw c s _ - ⟨rfl, hs⟩
    exact ⟨rfl, rfl, hkeep c s hs⟩
  exact (deliver_agree hcall f ⟨rfl, h⟩).2.2

theorem deliver_records
    (hreply : ∀ c s, reply c (view s) (callback c s).1 (view (callback c s).2))
    (hrec : Records d f.buffer os rest) (hdelim : f.delimiter = d) (s : S) :
    (∃ v s', deliver callback f s = (.over v, s') ∧ EndsEarly reply os (view s) v (view s')) ∨
    ∃ g s', g.buffer = rest ∧ g.delimiter = d ∧ Proceeds reply os (view s) (view s') ∧
      deliver callback f s = deliver callback g s' := by
  generalize hbuffer : f.buffer = dump at hrec
  induction hrec generalizing f s with
  | done => exact .inr ⟨f, s, hbuffer, hdelim, .nil, rfl⟩
  | @next line o tail os rest hline _ ih =>
      have hnext := next_of_take (f := f) (by rw [hdelim, hbuffer]; exact hline.take_record tail)
      rw [deliver_of_next hnext]
      cases hparse : Commit.parse o.oid o.content with
      | error e => exact .inl ⟨_, s, rfl, [], o, os, view s, rfl, .nil, .unparsed hparse⟩
      | ok c =>
          have hanswer := hreply c s
          rcases hcall : callback c s with ⟨_ | _ | chain, s'⟩ <;> rw [hcall] at hanswer
          · simp only [hcall]
            rcases ih (f := .holding f.delimiter tail) hdelim s' (Framer.buffer_holding _ _) with
              ⟨v, s'', heq, before, o', after, k, rfl, hbefore, hends⟩ |
              ⟨g, s'', hg, hdg, hall, heq⟩
            · exact .inl ⟨v, s'', heq, o :: before, o', after, k, rfl,
                .cons hparse hanswer hbefore, hends⟩
            · exact .inr ⟨g, s'', hg, hdg, .cons hparse hanswer hall, heq⟩
          · simp only [hcall]
            exact .inl ⟨_, s', rfl, [], o, os, view s, rfl, .nil, .stopped hparse hanswer⟩
          · simp only [hcall]
            exact .inl ⟨_, s', rfl, [], o, os, view s, rfl, .nil, .refused hparse hanswer⟩

end Deliver

/-- In some states `got` was read of the dump, and a read brings more, until nothing more can come.
What is left to read becomes less with each read, and no more by calls of the receiver. -/
structure Supplies {M : Type} [Preorder M] (read : S → Except SystemError Bytes × S)
    (callback : Commit → S → Answer × S) (got : Bytes → S → Prop) (drained : S → Prop)
    (rank : S → M) : Prop where
  read {before s} : got before s → ∃ part s', read s = (.ok part, s') ∧ got (before ++ part) s' ∧
    (part = [] → drained s') ∧ (part ≠ [] → rank s' < rank s)
  callback {before s} (c) : got before s →
    got before (callback c s).2 ∧ rank (callback c s).2 ≤ rank s

/-- What is known of the receiver depends on nothing but the answers that it gives. -/
structure Observes (read : S → Except SystemError Bytes × S) (callback : Commit → S → Answer × S)
    (view : S → κ) (reply : Commit → κ → Answer → κ → Prop) : Prop where
  read (s) : view (read s).2 = view s
  callback (c s) : reply c (view s) (callback c s).1 (view (callback c s).2)

theorem Ends.ne_unread {reply : Commit → κ → Answer → κ → Prop} {o : Object} {k k' : κ}
    {v : Verdict} (h : Ends reply o k v k') (source : SystemError) : v ≠ .unread source := by
  rintro rfl
  cases h

theorem atEnd_ne_unread (f : Framer) (source : SystemError) :
    Verdict.atEnd f ≠ .unread source := by
  rw [Verdict.atEnd]
  split <;> exact nofun

theorem atEnd_eq_ofRest {f : Framer} (h : Object.take f.delimiter f.buffer = .ok none) :
    Verdict.atEnd f = .ofRest f.delimiter f.buffer := by
  have hending : Framer.ending f.delimiter f.buffer = f.finish := by
    rw [Framer.ending_of_none h, Framer.finish_eq]
  cases hfinish : f.finish with
  | error e => simp only [Verdict.atEnd, Verdict.ofRest, hending, hfinish]
  | ok u => simp only [Verdict.atEnd, Verdict.ofRest, hending, hfinish]

section Pump

variable {read : S → Except SystemError Bytes × S} {callback : Commit → S → Answer × S}
  {view : S → κ} {reply : Commit → κ → Answer → κ → Prop} {f g : Framer} {s s' s'' : S}
  {part : Bytes} {v : Verdict}

theorem pump_of_unread {e : SystemError} (hread : read s = (.error e, s')) :
    f.pump read callback s = some (.unread e, s') := by
  rw [Batch.Framer.pump, hread]

theorem pump_of_end (hread : read s = (.ok [], s')) :
    f.pump read callback s = some (.atEnd f, s') := by
  rw [Batch.Framer.pump, hread]
  rfl

theorem pump_of_more (hread : read s = (.ok part, s')) (hne : part ≠ [])
    (h : deliver callback (f.extend part) s' = (.more g, s'')) :
    f.pump read callback s = g.pump read callback s'' := by
  rw [Batch.Framer.pump, hread]
  simp only [List.isEmpty_iff, hne, if_false, h]

theorem pump_of_over (hread : read s = (.ok part, s')) (hne : part ≠ [])
    (h : deliver callback (f.extend part) s' = (.over v, s'')) :
    f.pump read callback s = some (v, s'') := by
  rw [Batch.Framer.pump, hread]
  simp only [List.isEmpty_iff, hne, if_false, h]

theorem pump_related {related : S → T → Prop} {read' : T → Except SystemError Bytes × T}
    {callback' : Commit → T → Answer × T}
    (hread : ∀ s t, related s t → Agree related (read s) (read' t))
    (hcall : CallbacksAgree related callback callback') {t : T} (h : related s t)
    (hpump : f.pump read callback s = some (v, s')) :
    ∃ t', f.pump read' callback' t = some (v, t') ∧ related s' t' := by
  refine Batch.Framer.pump.partial_correctness read callback
    (fun f s result => ∀ t, related s t →
      ∃ t', f.pump read' callback' t = some (result.1, t') ∧ related result.2 t')
    ?_ f s (v, s') hpump t h
  intro again ih f s result hstep t hst
  obtain ⟨answer, s', t', hs, ht, hboth⟩ := (hread s t hst).exists_eq
  rw [hs] at hstep
  rcases answer with e | part
  · cases hstep
    exact ⟨t', pump_of_unread ht, hboth⟩
  simp only at hstep
  split at hstep
  · next hend =>
    cases hstep
    rw [List.isEmpty_iff.mp hend] at ht
    exact ⟨t', pump_of_end ht, hboth⟩
  · next hmore =>
    have hne : part ≠ [] := fun hnil => hmore (List.isEmpty_iff.mpr hnil)
    obtain ⟨progress, s'', t'', hds, hdt, hboth⟩ :=
      (deliver_agree hcall (f.extend part) hboth).exists_eq
    rw [hds] at hstep
    rcases progress with g | v
    · rw [pump_of_more ht hne hdt]
      exact ih g s'' result hstep t'' hboth
    · cases hstep
      exact ⟨t'', pump_of_over ht hne hdt, hboth⟩

theorem Agree.symm {related : S → T → Prop} {x : α × S} {y : α × T} (h : Agree related x y) :
    Agree (fun t s => related s t) y x :=
  ⟨h.1.symm, h.2⟩

theorem pump_agree {related : S → T → Prop} {read' : T → Except SystemError Bytes × T}
    {callback' : Commit → T → Answer × T}
    (hread : ∀ s t, related s t → Agree related (read s) (read' t))
    (hcall : CallbacksAgree related callback callback') (f : Framer) {t : T} (h : related s t) :
    (∃ v s' t', f.pump read callback s = some (v, s') ∧
        f.pump read' callback' t = some (v, t') ∧ related s' t') ∨
      f.pump read callback s = none ∧ f.pump read' callback' t = none := by
  rcases hs : f.pump read callback s with _ | ⟨v, s'⟩
  · rcases ht : f.pump read' callback' t with _ | ⟨v, t'⟩
    · exact .inr ⟨rfl, rfl⟩
    · let back (t : T) (s : S) : Prop := related s t
      have hread' (t : T) (s : S) (hst : back t s) : Agree back (read' t) (read s) :=
        (hread s t hst).symm
      have hcall' : CallbacksAgree back callback' callback :=
        fun oid raw c t s hparse hst => (hcall oid raw c s t hparse hst).symm
      obtain ⟨s', hs', -⟩ := pump_related hread' hcall' h ht
      cases hs.symm.trans hs'
  · obtain ⟨t', ht, hboth⟩ := pump_related hread hcall h hs
    exact .inl ⟨v, s', t', rfl, ht, hboth⟩

theorem pump_keeps {keeps : S → Prop} (hread : ∀ s, keeps s → keeps (read s).2)
    (hkeep : ∀ c s, keeps s → keeps (callback c s).2) (h : keeps s)
    (hpump : f.pump read callback s = some (v, s')) : keeps s' := by
  have hreads (s t : S) (hst : s = t ∧ keeps s) :
      Agree (fun s t => s = t ∧ keeps s) (read s) (read t) := by
    obtain ⟨rfl, hs⟩ := hst
    exact ⟨rfl, rfl, hread s hs⟩
  have hcall : CallbacksAgree (fun s t => s = t ∧ keeps s) callback callback := by
    rintro oid raw c s _ - ⟨rfl, hs⟩
    exact ⟨rfl, rfl, hkeep c s hs⟩
  obtain ⟨-, -, -, hkept⟩ := pump_related hreads hcall ⟨rfl, h⟩ hpump
  exact hkept

def TraversalError.isOfDump : TraversalError → Bool
  | .exec _ => false
  | .helperExit _ _ => false
  | _ => true

theorem deliver_isOfDump {e : TraversalError} (h : (deliver callback f s).1 = .over (.failed e)) :
    e.isOfDump := by
  fun_induction deliver callback f s with
  | case6 f s o g hnext c hparse s' hanswer hlt ih => exact ih h
  | _ => cases h <;> rfl

theorem pump_isOfDump {e : TraversalError}
    (hpump : f.pump read callback s = some (.failed e, s')) : e.isOfDump := by
  refine Batch.Framer.pump.partial_correctness read callback
    (fun _ _ result => ∀ e, result.1 = .failed e → e.isOfDump) ?_ f s (.failed e, s') hpump e rfl
  intro again ih f s result hstep e he
  rcases hread : read s with ⟨source | part, s'⟩ <;> rw [hread] at hstep
  · cases hstep
    cases he
  simp only at hstep
  split at hstep
  · cases hstep
    rw [Verdict.atEnd] at he
    split at he <;> cases he
    rfl
  · rcases hdeliver : deliver callback (f.extend part) s' with ⟨g | v, s''⟩ <;>
      rw [hdeliver] at hstep
    · exact ih g s'' result hstep e he
    · cases hstep
      obtain rfl : v = .failed e := he
      exact deliver_isOfDump (congrArg Prod.fst hdeliver)

theorem pump_concludes {M : Type} [Preorder M] [WellFoundedLT M] {got : Bytes → S → Prop}
    {drained : S → Prop} {rank : S → M} (hsup : Supplies read callback got drained rank)
    (hobs : Observes read callback view reply) {before : Bytes} (hgot : got before s)
    (hwait : Object.take f.delimiter f.buffer = .ok none) :
    ∃ v s' part, f.pump read callback s = some (v, s') ∧ (∀ source, v ≠ .unread source) ∧
      got (before ++ part) s' ∧ ∀ late os rest, (drained s' → late = []) →
        Brief f.delimiter (f.buffer ++ part ++ late) →
        Records f.delimiter (f.buffer ++ part ++ late) os rest → Exhausted f.delimiter rest →
        Concludes f.delimiter reply os rest (view s) v (view s') := by
  induction hr : rank s using WellFoundedLT.induction generalizing f s before with
  | ind r ih =>
  subst hr
  obtain ⟨part, s', hread, hgot', hlast, hless⟩ := hsup.read hgot
  have hview : view s' = view s := by
    have hsame := hobs.read s
    rwa [hread] at hsame
  by_cases hne : part = []
  · subst hne
    refine ⟨_, s', [], pump_of_end hread, atEnd_ne_unread f, hgot', ?_⟩
    intro late os rest hlate _ hrec hrest
    obtain rfl := hlate (hlast rfl)
    rw [List.append_nil, List.append_nil] at hrec
    obtain ⟨rfl, rfl⟩ := hrec.unique .done hrest (Framer.exhausted_of_none hwait)
    rw [atEnd_eq_ofRest hwait, hview]
    exact .drained .nil
  -- the records that are in full in the buffer now, and those that the rest brings
  obtain ⟨hfront, -, htake⟩ := Framer.drain_records (f.extend part)
  rw [Framer.buffer_extend, Framer.delimiter_extend] at hfront
  rw [Framer.delimiter_extend] at htake
  generalize (f.extend part).drain.objects = arrived at hfront
  generalize (f.extend part).drain.framer.buffer = held at hfront htake
  generalize (f.extend part).drain.fault = fault at htake
  let keeps (u : S) : Prop := got (before ++ part) u ∧ rank u ≤ rank s'
  have hkeep (c : Commit) (u : S) (hu : keeps u) : keeps (callback c u).2 := by
    obtain ⟨hsame, hle⟩ := hsup.callback c hu.1
    exact ⟨hsame, hle.trans hu.2⟩
  have hkept : keeps (deliver callback (f.extend part) s').2 :=
    deliver_keeps hkeep _ ⟨hgot', le_rfl⟩
  rcases deliver_records (f := f.extend part) hobs.callback (by rwa [Framer.buffer_extend])
      (Framer.delimiter_extend f part) s' with
    ⟨v, u, hdeliver, front, o, after, k, rfl, hbefore, hends⟩ |
    ⟨g, u, rfl, hdelim, hall, hdeliver⟩
  · rw [hdeliver] at hkept
    rw [hview] at hbefore
    refine ⟨v, u, part, pump_of_over hread hne hdeliver, hends.ne_unread, hkept.1,
      fun late os rest _ _ hrec hrest => ?_⟩
    obtain ⟨os', rfl, -⟩ := (hfront.append late).split hrec hrest
    exact .early ⟨front, o, _, k, List.append_assoc _ _ _, hbefore, hends⟩
  rw [hview] at hall
  rw [← hdelim] at htake
  cases fault with
  | none =>
      rw [deliver_of_none (f := g) htake] at hdeliver
      rw [hdeliver] at hkept
      obtain ⟨v, t, more, hpump, hreads, hgot'', hconc⟩ :=
        ih (rank u) (hkept.2.trans_lt (hless hne)) hkept.1 htake rfl
      rw [pump_of_more hread hne hdeliver]
      refine ⟨v, t, part ++ more, hpump, hreads, by rwa [List.append_assoc] at hgot'',
        fun late os rest hlate hbrief hrec hrest => ?_⟩
      have hbytes : f.buffer ++ (part ++ more) ++ late = f.buffer ++ part ++ (more ++ late) := by
        simp
      rw [hbytes] at hbrief hrec
      obtain ⟨os', rfl, hrec'⟩ := (hfront.append (more ++ late)).split hrec hrest
      have hbrief' := hbrief.of_records (hfront.append (more ++ late))
      rw [← hdelim, ← List.append_assoc] at hbrief' hrec'
      rw [← hdelim] at hrest
      have hconc' := hconc late os' rest hlate hbrief' hrec' hrest
      rw [hdelim] at hconc'
      exact hconc'.after hall
  | some e =>
      rw [deliver_of_error (f := g) htake] at hdeliver
      rw [hdeliver] at hkept
      refine ⟨_, u, part, pump_of_over hread hne hdeliver, nofun, hkept.1,
        fun late os rest _ hbrief hrec hrest => ?_⟩
      rw [hdelim] at htake
      exact .of_corrupt hbrief (hfront.append late) htake hall hrec hrest

end Pump

def apart (receiver : Commit → τ → Answer × τ) (c : Commit) (s : S × τ) : Answer × (S × τ) :=
  ((receiver c s.2).1, (s.1, (receiver c s.2).2))

def nextPart : List Bytes → Except SystemError Bytes × List Bytes
  | [] => (.ok [], [])
  | part :: parts => (.ok part, parts)

def answers (receiver : Commit → τ → Answer × τ) (c : Commit) (t : τ) (a : Answer) (t' : τ) :
    Prop :=
  receiver c t = (a, t')

theorem traceable_answers (receiver : Commit → τ → Answer × τ) :
    Traceable (answers receiver) fun _ _ => True where
  refl _ := trivial
  trans _ _ := trivial
  step _ := trivial
  unique h h' _ _ := by
    rw [answers] at h h'
    rw [h] at h'
    cases h'
    exact ⟨rfl, rfl⟩

theorem supplies_nextPart (receiver : Commit → τ → Answer × τ) (dump : Bytes) :
    Supplies (beside nextPart) (apart receiver)
      (fun got s => got ++ s.1.flatten = dump ∧ ∀ part ∈ s.1, part ≠ []) (·.1 = [])
      (·.1.length) where
  read := by
    rintro got ⟨_ | ⟨part, parts⟩, t⟩ ⟨hdump, hne⟩
    · exact ⟨[], ([], t), rfl, ⟨by simpa using hdump, hne⟩, fun _ => rfl, fun h => absurd rfl h⟩
    · refine ⟨part, (parts, t), rfl, ⟨by simpa using hdump, ?_⟩, fun h => absurd h (hne part ?_),
        fun _ => Nat.lt_succ_self _⟩
      · exact fun other hother => hne other (List.mem_cons_of_mem _ hother)
      · exact List.mem_cons_self
  callback _ h := ⟨h, Nat.le_refl _⟩

theorem pump_parts_iff {d : Delimiter} {receiver : Commit → τ → Answer × τ} {parts : List Bytes}
    {os : List Object} {rest : Bytes} (hparts : ∀ part ∈ parts, part ≠ [])
    (hbrief : Brief d parts.flatten) (hrec : Records d parts.flatten os rest)
    (hrest : Exhausted d rest) (t t' : τ) (v : Verdict) :
    (∃ unread, Batch.Framer.pump (beside nextPart) (apart receiver) { delimiter := d } (parts, t) =
      some (v, (unread, t'))) ↔ Concludes d (answers receiver) os rest t v t' := by
  have hobs : Observes (beside nextPart) (apart receiver) Prod.snd (answers receiver) := by
    constructor
    · intro s
      rfl
    · intro c s
      rfl
  have hfirst : [] ++ parts.flatten = parts.flatten ∧ ∀ part ∈ parts, part ≠ [] := ⟨rfl, hparts⟩
  obtain ⟨v', ⟨unread, u⟩, read, hrun, -, ⟨hdump, -⟩, hall⟩ :=
    pump_concludes (f := { delimiter := d }) (s := (parts, t))
      (supplies_nextPart receiver parts.flatten) hobs hfirst (Framer.take_nil d)
  have hwhole : [] ++ read ++ unread.flatten = parts.flatten := hdump
  have hconc := hall unread.flatten os rest (fun hnone => by simp [show unread = [] from hnone])
    (hwhole ▸ hbrief) (hwhole ▸ hrec) hrest
  rw [hrun]
  constructor
  · rintro ⟨unread', heq⟩
    cases heq
    exact hconc
  · intro h
    obtain ⟨rfl, rfl⟩ :=
      h.unique (traceable_answers receiver) hconc (z := t) trivial trivial
    exact ⟨unread, rfl⟩

def plainContent : Bytes :=
  Commit.layout (Commit.headerLines .zero [] ⟨"A", "a@b", ⟨1, 0⟩⟩ ⟨"A", "a@b", ⟨1, 0⟩⟩ [])
    (Utf8.encode "hi")

def plainCommit : Commit :=
  ⟨.zero, .zero, [], ⟨"A", "a@b", ⟨1, 0⟩⟩, ⟨"A", "a@b", ⟨1, 0⟩⟩, "hi"⟩

theorem parse_plainContent : Commit.parse .zero plainContent = .ok plainCommit :=
  rfl

def plainThenEmpty : List Object :=
  [⟨.zero, plainContent⟩, ⟨.zero, []⟩]

theorem pump_parts_stops :
    let d : Delimiter := ⟨"0123456789abcdef"⟩
    let dump := plainThenEmpty.flatMap (Object.encode d)
    (∀ part ∈ [dump.take 7, dump.drop 7], part ≠ []) ∧ Brief d dump ∧
      Records d dump plainThenEmpty [] ∧ Exhausted d [] ∧
      ∃ unread, Batch.Framer.pump (beside nextPart) (apart fun _ calls => (.stop, calls + 1))
        { delimiter := d } ([dump.take 7, dump.drop 7], 0) =
          some (.ended .stopped, (unread, 1)) := by
  intro d dump
  have hd : d.IsHex := ⟨by decide, by decide +kernel⟩
  have hos : ∀ o ∈ plainThenEmpty, o.Fits d := by
    unfold Object.Fits
    decide +kernel
  have hparts : ∀ part ∈ [dump.take 7, dump.drop 7], part ≠ [] := by
    decide
  have hdump : [dump.take 7, dump.drop 7].flatten = dump := by simp
  have hbrief : Brief d dump := Object.brief_flatMap_encode hd hos
  have hrec : Records d dump plainThenEmpty [] := Object.records_flatMap_encode hd hos
  have hrest : Exhausted d [] := Framer.exhausted_of_none (Framer.take_nil d)
  refine ⟨hparts, hbrief, hrec, hrest, ?_⟩
  apply (pump_parts_iff hparts (by rwa [hdump]) (by rwa [hdump]) hrest 0 1 _).mpr
  exact .early ⟨[], _, _, 0, rfl, .nil, .stopped parse_plainContent rfl⟩

end ChatSpace.History
