import ChatSpace.Proofs.Batch.Records

namespace ChatSpace.Batch

def withoutObject : Option ProtocolError → Except ProtocolError (Option (Object × Bytes))
  | some e => .error e
  | none => .ok none

namespace Framer

structure Run where
  deliveries : List (List Object)
  fault : Option ProtocolError
  framer : Framer
deriving DecidableEq, Repr

def run (f : Framer) : List Bytes → Run
  | [] => ⟨[], none, f⟩
  | part :: parts =>
      let d := (f.extend part).drain
      match d.fault with
      | some e => ⟨[d.objects], some e, d.framer⟩
      | none =>
          let r := d.framer.run parts
          { r with deliveries := d.objects :: r.deliveries }

def Run.result (r : Run) : Except ProtocolError Unit :=
  match r.fault with
  | some e => .error e
  | none => r.framer.finish

@[simp] theorem delimiter_holding (d : Delimiter) (bytes : Bytes) :
    (holding d bytes).delimiter = d := rfl

@[simp] theorem delimiter_extend (f : Framer) (bytes : Bytes) :
    (f.extend bytes).delimiter = f.delimiter := by
  unfold extend
  split <;> rfl

theorem drain_of_error {f : Framer} {e : ProtocolError} (h : f.next = .error e) :
    f.drain = ⟨[], some e, f⟩ := by
  rw [drain]
  split <;> simp_all

theorem drain_of_none {f : Framer} (h : f.next = .ok none) : f.drain = ⟨[], none, f⟩ := by
  rw [drain]
  split <;> simp_all

theorem drain_of_some {f g : Framer} {o : Object} (h : f.next = .ok (some (o, g))) :
    f.drain = { g.drain with objects := o :: g.drain.objects } := by
  rw [drain]
  split <;> simp_all

theorem take_of_next_error {f : Framer} {e : ProtocolError} (h : f.next = .error e) :
    Object.take f.delimiter f.buffer = .error e := by
  rw [next_eq] at h
  rcases htake : Object.take f.delimiter f.buffer with e' | _ | ⟨o, tail⟩ <;>
    rw [htake] at h <;> cases h
  rfl

theorem take_of_next_none {f : Framer} (h : f.next = .ok none) :
    Object.take f.delimiter f.buffer = .ok none := by
  rw [next_eq] at h
  rcases htake : Object.take f.delimiter f.buffer with e' | _ | ⟨o, tail⟩ <;>
    rw [htake] at h <;> cases h

theorem take_of_next_some {f g : Framer} {o : Object} (h : f.next = .ok (some (o, g))) :
    Object.take f.delimiter f.buffer = .ok (some (o, g.buffer)) ∧ g.delimiter = f.delimiter := by
  rw [next_eq] at h
  rcases htake : Object.take f.delimiter f.buffer with e' | _ | ⟨o', tail⟩ <;>
    rw [htake] at h <;> cases h
  simp

theorem drain_records (f : Framer) :
    Records f.delimiter f.buffer f.drain.objects f.drain.framer.buffer ∧
      f.drain.framer.delimiter = f.delimiter ∧
      Object.take f.delimiter f.drain.framer.buffer = withoutObject f.drain.fault := by
  induction f using drain.induct with
  | case1 f e h =>
      rw [drain_of_error h]
      exact ⟨.done, rfl, take_of_next_error h⟩
  | case2 f h =>
      rw [drain_of_none h]
      exact ⟨.done, rfl, take_of_next_none h⟩
  | case3 f o g h hlt ih =>
      obtain ⟨htake, hdelim⟩ := take_of_next_some h
      obtain ⟨line, hline, hbuffer⟩ := Object.take_eq_some_iff.mp htake
      rw [drain_of_some h, hbuffer]
      rw [hdelim] at ih
      exact ⟨.next hline ih.1, ih.2⟩

theorem run_records (parts : List Bytes) (f : Framer)
    (hf : Object.take f.delimiter f.buffer = .ok none) :
    ∃ unread,
      Records f.delimiter (f.buffer ++ parts.flatten) (f.run parts).deliveries.flatten
        ((f.run parts).framer.buffer ++ unread) ∧
      Object.take f.delimiter (f.run parts).framer.buffer = withoutObject (f.run parts).fault ∧
      ((f.run parts).fault = none → unread = []) := by
  induction parts generalizing f with
  | nil => exact ⟨[], by simpa [run] using .done, hf, fun _ => rfl⟩
  | cons part parts ih =>
      obtain ⟨hrec, hdelim, htake⟩ := drain_records (f.extend part)
      rw [delimiter_extend] at hrec hdelim htake
      rw [buffer_extend] at hrec
      rw [List.flatten_cons, ← List.append_assoc, run]
      cases hfault : (f.extend part).drain.fault with
      | some e =>
          rw [hfault] at htake
          exact ⟨parts.flatten, by simpa using hrec.append parts.flatten, htake, nofun⟩
      | none =>
          rw [hfault, ← hdelim] at htake
          obtain ⟨unread, hrest, htake', hunread⟩ := ih _ htake
          rw [hdelim] at hrest htake'
          exact ⟨unread, (hrec.append parts.flatten).trans hrest, htake', hunread⟩

theorem run_singleton (f : Framer) (part : Bytes) :
    f.run [part] =
      ⟨[(f.extend part).drain.objects], (f.extend part).drain.fault,
        (f.extend part).drain.framer⟩ := by
  rw [run]
  cases h : (f.extend part).drain.fault with
  | some e => rfl
  | none => rfl

theorem take_nil (d : Delimiter) : Object.take d [] = .ok none := by
  rw [Object.take_of_not_mem List.not_mem_nil]
  rfl

theorem run_holding_records (d : Delimiter) (parts : List Bytes) :
    ∃ unread,
      Records d parts.flatten ((holding d []).run parts).deliveries.flatten
        (((holding d []).run parts).framer.buffer ++ unread) ∧
      Object.take d ((holding d []).run parts).framer.buffer =
        withoutObject ((holding d []).run parts).fault ∧
      (((holding d []).run parts).fault = none → unread = []) := by
  have h := run_records parts (holding d []) (take_nil d)
  rwa [buffer_holding, List.nil_append, delimiter_holding] at h

def ending (d : Delimiter) (rest : Bytes) : Except ProtocolError Unit :=
  match (holding d rest).next with
  | .error e => .error e
  | .ok _ => if rest = [] then .ok () else .error (.trailingBytes rest.length)

def report (d : Delimiter) (parts : List Bytes) : List Object × Except ProtocolError Unit :=
  (((holding d []).run parts).deliveries.flatten, ((holding d []).run parts).result)

theorem ending_of_error {d : Delimiter} {rest : Bytes} {e : ProtocolError}
    (h : Object.take d rest = .error e) : ending d rest = .error e := by
  simp [ending, next_eq, h, Except.map]

theorem ending_of_none {d : Delimiter} {rest : Bytes} (h : Object.take d rest = .ok none) :
    ending d rest = if rest = [] then .ok () else .error (.trailingBytes rest.length) := by
  simp [ending, next_eq, h, Except.map]

theorem finish_eq (f : Framer) :
    f.finish = if f.buffer = [] then .ok () else .error (.trailingBytes f.buffer.length) := by
  unfold finish
  rw [← length_buffer]
  simp only [List.length_eq_zero_iff]

theorem exhausted_of_none {d : Delimiter} {rest : Bytes} (h : Object.take d rest = .ok none) :
    Exhausted d rest := by
  rw [exhausted_iff, h]
  exact nofun

theorem exhausted_of_error {d : Delimiter} {rest : Bytes} {e : ProtocolError}
    (h : Object.take d rest = .error e) : Exhausted d rest := by
  rw [exhausted_iff, h]
  exact nofun

theorem exhausted_of_take {d : Delimiter} {rest : Bytes} {fault : Option ProtocolError}
    (h : Object.take d rest = withoutObject fault) : Exhausted d rest := by
  cases fault with
  | none => exact exhausted_of_none h
  | some e => exact exhausted_of_error h

theorem report_eq_or_refused {d : Delimiter} {parts : List Bytes} {os : List Object} {rest : Bytes}
    (hrec : Records d parts.flatten os rest) (hrest : Exhausted d rest) :
    report d parts = (os, ending d rest) ∨
      ∃ os' line tail, Records d parts.flatten os' (line ++ Bytes.newline :: tail) ∧
        Bytes.newline ∉ line ∧ Summary.maxLength < line.length ∧
        report d parts =
          (os', .error (.malformedSummary (Utf8.lossy (line.take Summary.maxLength)))) := by
  obtain ⟨unread, hrun, htake, hunread⟩ := run_holding_records d parts
  unfold report Run.result
  generalize (holding d []).run parts = r at *
  cases hfault : r.fault with
  | none =>
      left
      rw [hfault] at htake
      rw [hunread hfault, List.append_nil] at hrun
      obtain ⟨rfl, rfl⟩ := hrun.unique hrec (exhausted_of_take htake) hrest
      rw [ending_of_none htake, ← finish_eq]
  | some e =>
      rw [hfault] at htake
      rcases Object.take_append_of_error htake unread with
        hall | ⟨line, tail, heq, hline, hlong, he⟩
      · left
        obtain ⟨rfl, rfl⟩ := hrun.unique hrec (exhausted_of_error hall) hrest
        rw [ending_of_error hall]
      · right
        exact ⟨_, line, tail, heq ▸ hrun, hline, hlong, by rw [he]⟩

theorem report_of_error {d : Delimiter} {part : Bytes} {e : ProtocolError}
    (h : Object.take d part = .error e) (parts : List Bytes) :
    report d (part :: parts) = ([], .error e) := by
  have hnext : ((holding d []).extend part).next = .error e := by
    rw [next_eq, delimiter_extend, buffer_extend, delimiter_holding, buffer_holding,
      List.nil_append, h]
    rfl
  simp [report, run, Run.result, drain_of_error hnext]

theorem report_of_brief {d : Delimiter} {parts : List Bytes} {os : List Object} {rest : Bytes}
    (hbrief : Brief d parts.flatten) (hrec : Records d parts.flatten os rest)
    (hrest : Exhausted d rest) : report d parts = (os, ending d rest) := by
  rcases report_eq_or_refused hrec hrest with h | ⟨os', line, tail, hline, hunbroken, hlong, -⟩
  · exact h
  · have := hbrief os' line tail hline hunbroken
    omega

theorem report_singleton {d : Delimiter} {dump rest : Bytes} {os : List Object}
    (hrec : Records d dump os rest) (hrest : Exhausted d rest) :
    report d [dump] = (os, ending d rest) := by
  obtain ⟨hdrain, -, htake⟩ := drain_records ((holding d []).extend dump)
  rw [buffer_extend, buffer_holding, delimiter_extend, delimiter_holding, List.nil_append] at hdrain
  rw [delimiter_extend, delimiter_holding] at htake
  obtain ⟨hos, hbuffer⟩ := hdrain.unique hrec (exhausted_of_take htake) hrest
  rw [report, run_singleton, Run.result, ← hos, ← hbuffer]
  simp only [List.flatten_singleton, Prod.mk.injEq, true_and]
  cases hfault : ((holding d []).extend dump).drain.fault with
  | none =>
      rw [hfault] at htake
      rw [ending_of_none htake, ← finish_eq]
  | some e =>
      rw [hfault] at htake
      rw [ending_of_error htake]

end Framer

theorem exists_records (d : Delimiter) (dump : Bytes) :
    ∃ os rest, Records d dump os rest ∧ Exhausted d rest := by
  obtain ⟨hrec, -, htake⟩ := Framer.drain_records (.holding d dump)
  rw [Framer.buffer_holding] at hrec
  exact ⟨_, _, hrec, Framer.exhausted_of_take htake⟩

theorem Records.split {d : Delimiter} {dump middle rest : Bytes} {os all : List Object}
    (h : Records d dump os middle) (hall : Records d dump all rest) (hrest : Exhausted d rest) :
    ∃ more, all = os ++ more ∧ Records d middle more rest := by
  obtain ⟨more, last, hmore, hlast⟩ := exists_records d middle
  obtain ⟨rfl, rfl⟩ := (h.trans hmore).unique hall hlast hrest
  exact ⟨more, rfl, hmore⟩

theorem report_of_parts (d : Delimiter) (dump : Bytes) :
    (Brief d dump → ∀ parts parts' : List Bytes, parts.flatten = dump → parts'.flatten = dump →
      Framer.report d parts = Framer.report d parts') ∧
    ∀ parts : List Bytes, parts.flatten = dump →
      Framer.report d parts = Framer.report d [dump] ∨
        ∃ os line tail, Records d dump os (line ++ Bytes.newline :: tail) ∧
          Bytes.newline ∉ line ∧ Summary.maxLength < line.length ∧
          Framer.report d parts =
            (os, .error (.malformedSummary (Utf8.lossy (line.take Summary.maxLength)))) := by
  obtain ⟨os, rest, hrec, hrest⟩ := exists_records d dump
  constructor
  · intro hbrief parts parts' hparts hparts'
    subst hparts
    rw [Framer.report_of_brief hbrief hrec hrest,
      Framer.report_of_brief (hparts' ▸ hbrief) (hparts' ▸ hrec) hrest]
  · rintro parts rfl
    rw [Framer.report_singleton hrec hrest]
    exact Framer.report_eq_or_refused hrec hrest

def paddedLine : Bytes :=
  Utf8.encode "0123456789abcdef " ++ List.replicate 40 0x30 ++ Utf8.encode " commit " ++
    List.replicate 64 0x30

theorem announces_paddedLine : Announces ⟨"0123456789abcdef"⟩ paddedLine ⟨.zero, []⟩ where
  unbroken := by decide
  parsed := by cbv
  fits := by decide +kernel

theorem report_depends_on_parts :
    ¬ ∀ (d : Delimiter) (parts parts' : List Bytes), parts.flatten = parts'.flatten →
      Framer.report d parts = Framer.report d parts' := by
  intro h
  have hwhole : Framer.report ⟨"0123456789abcdef"⟩ [paddedLine ++ [Bytes.newline, Bytes.newline]] =
      ([⟨.zero, []⟩], .ok ()) := by
    have hrec := Records.next announces_paddedLine (@Records.done _ [])
    have hrest := Framer.exhausted_of_none (Framer.take_nil ⟨"0123456789abcdef"⟩)
    rw [Framer.report_singleton (by simpa using hrec) hrest,
      Framer.ending_of_none (Framer.take_nil _)]
    rfl
  have hcut : Framer.report ⟨"0123456789abcdef"⟩ [paddedLine, [Bytes.newline, Bytes.newline]] =
      ([], .error (.malformedSummary (Utf8.lossy (paddedLine.take Summary.maxLength)))) := by
    apply Framer.report_of_error
    rw [Object.take_of_not_mem announces_paddedLine.unbroken, if_pos (by decide +kernel)]
  have hsame := h ⟨"0123456789abcdef"⟩ [paddedLine, [Bytes.newline, Bytes.newline]]
    [paddedLine ++ [Bytes.newline, Bytes.newline]] (by simp)
  rw [hwhole, hcut] at hsame
  simp at hsame

end ChatSpace.Batch
