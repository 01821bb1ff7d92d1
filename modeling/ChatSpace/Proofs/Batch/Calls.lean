import ChatSpace.Proofs.Batch.Grammar

namespace ChatSpace.Batch

structure Declares (d : Delimiter) (line : Bytes) (o : Object) : Prop where
  unbroken : Bytes.newline ∉ line
  fields : ∃ name size,
    line = Fields.join Bytes.space [Utf8.encode d.token, name, Summary.expectedType, size] ∧
      ObjectId.Named name o.oid ∧ Decimal.unsigned? size = some o.content.length

theorem Summary.fields_of_parse {d : Delimiter} {line : Bytes} {s : Summary}
    (h : parse d line = .ok s) :
    ∃ name size,
      line = Fields.join Bytes.space [Utf8.encode d.token, name, expectedType, size] ∧
        ObjectId.Named name s.oid ∧ Decimal.unsigned? size = some s.size := by
  cases reads_iff.mpr h with
  | summary hfields hname hsize =>
      exact ⟨_, _, hfields.line_eq, hname, Decimal.unsigned?_eq_some_iff.mpr hsize.1⟩

theorem Announces.declares {d : Delimiter} {line : Bytes} {o : Object} (h : Announces d line o) :
    Declares d line o :=
  ⟨h.unbroken, Summary.fields_of_parse h.parsed⟩

def segments (lines : List (Bytes × Object)) : Bytes :=
  lines.flatMap fun (line, o) => line ++ Bytes.newline :: o.content ++ [Bytes.newline]

theorem Records.exists_segments {d : Delimiter} {dump rest : Bytes} {os : List Object}
    (h : Records d dump os rest) :
    ∃ lines, lines.map Prod.snd = os ∧ (∀ line ∈ lines, Declares d line.1 line.2) ∧
      dump = segments lines ++ rest := by
  induction h with
  | done => exact ⟨[], rfl, by simp, rfl⟩
  | @next line o tail os rest hline _ ih =>
      obtain ⟨lines, rfl, hlines, rfl⟩ := ih
      refine ⟨(line, o) :: lines, rfl, ?_, by simp [segments]⟩
      intro l hl
      rcases List.mem_cons.mp hl with rfl | hl
      · exact hline.declares
      · exact hlines l hl

theorem Records.prefix_of_exhausted {d : Delimiter} {dump middle rest : Bytes}
    {os all : List Object} (h : Records d dump os middle) (hall : Records d dump all rest)
    (hrest : Exhausted d rest) : os <+: all := by
  obtain ⟨more, rfl, -⟩ := h.split hall hrest
  exact List.prefix_append os more

namespace Framer

inductive Call where
  | extend (bytes : Bytes)
  | next
  | finish
deriving DecidableEq, Repr

inductive Answer where
  | extended
  | nothing
  | delivered (object : Object)
  | refused (error : ProtocolError)
  | finished
deriving DecidableEq, Repr

def perform (f : Framer) : Call → Answer × Framer
  | .extend bytes => (.extended, f.extend bytes)
  | .next =>
      match f.next with
      | .error e => (.refused e, f)
      | .ok none => (.nothing, f)
      | .ok (some (o, g)) => (.delivered o, g)
  | .finish =>
      match f.finish with
      | .error e => (.refused e, f)
      | .ok () => (.finished, f)

structure Turn where
  before : Framer
  call : Call
  answer : Answer
  after : Framer
deriving DecidableEq, Repr

def turns (f : Framer) : List Call → List Turn
  | [] => []
  | call :: calls =>
      ⟨f, call, (f.perform call).1, (f.perform call).2⟩ :: (f.perform call).2.turns calls

def after (f : Framer) : List Call → Framer
  | [] => f
  | call :: calls => (f.perform call).2.after calls

def Answer.object? : Answer → Option Object
  | .delivered o => some o
  | _ => none

def delivered (f : Framer) (calls : List Call) : List Object :=
  (f.turns calls).filterMap fun turn => turn.answer.object?

def Call.bytes : Call → Bytes
  | .extend bytes => bytes
  | _ => []

def arrivals (calls : List Call) : Bytes :=
  calls.flatMap Call.bytes

def Turn.Orderly (turn : Turn) : Prop :=
  match turn.call with
  | .extend bytes => turn.after.buffer = turn.before.buffer ++ bytes
  | .next =>
      match turn.answer.object? with
      | some _ => turn.after.buffered < turn.before.buffered
      | none => turn.after.buffer = turn.before.buffer
  | .finish => turn.after.buffer = turn.before.buffer

variable {f g : Framer} {o : Object}

theorem perform_next_cases (f : Framer) :
    (∃ o g, f.perform .next = (.delivered o, g) ∧ f.next = .ok (some (o, g))) ∨
      ∃ answer, f.perform .next = (answer, f) ∧ answer.object? = none := by
  unfold perform
  cases hnext : f.next with
  | error e => exact .inr ⟨_, rfl, rfl⟩
  | ok found =>
      cases found with
      | none => exact .inr ⟨_, rfl, rfl⟩
      | some taken => exact .inl ⟨taken.1, taken.2, rfl, rfl⟩

theorem perform_finish (f : Framer) :
    ∃ answer, f.perform .finish = (answer, f) ∧ answer.object? = none := by
  unfold perform
  cases f.finish with
  | error e => exact ⟨_, rfl, rfl⟩
  | ok _ => exact ⟨_, rfl, rfl⟩

theorem orderly_perform (f : Framer) (call : Call) :
    Turn.Orderly ⟨f, call, (f.perform call).1, (f.perform call).2⟩ := by
  cases call with
  | extend bytes => exact buffer_extend f bytes
  | next =>
      rcases f.perform_next_cases with ⟨o, g, hperform, hnext⟩ | ⟨answer, hperform, hnone⟩
      · rw [hperform]
        exact buffered_lt_of_next hnext
      · rw [hperform]
        simp only [Turn.Orderly, hnone]
  | finish =>
      obtain ⟨answer, hperform, -⟩ := f.perform_finish
      rw [hperform]
      rfl

theorem orderly_turns (calls : List Call) (f : Framer) : ∀ turn ∈ f.turns calls, turn.Orderly := by
  induction calls generalizing f with
  | nil => simp [turns]
  | cons call calls ih =>
      intro turn hturn
      rcases List.mem_cons.mp hturn with rfl | hturn
      · exact f.orderly_perform call
      · exact ih (f.perform call).2 turn hturn

theorem records_after (calls : List Call) (f : Framer) :
    Records f.delimiter (f.buffer ++ arrivals calls) (f.delivered calls)
      (f.after calls).buffer := by
  induction calls generalizing f with
  | nil => simpa [arrivals, delivered, turns, after] using Records.done
  | cons call calls ih =>
      have hrest := ih (f.perform call).2
      cases call with
      | extend bytes =>
          rw [show f.perform (.extend bytes) = (.extended, f.extend bytes) from rfl] at hrest
          rw [delimiter_extend, buffer_extend, List.append_assoc] at hrest
          exact hrest
      | next =>
          rcases f.perform_next_cases with ⟨o, g, hperform, hnext⟩ | ⟨answer, hperform, hnone⟩
          · obtain ⟨htake, hdelim⟩ := take_of_next_some hnext
            obtain ⟨line, hline, hbuffer⟩ := Object.take_eq_some_iff.mp htake
            rw [hperform, hdelim] at hrest
            simpa [arrivals, Call.bytes, delivered, turns, after, hperform, hbuffer,
              Answer.object?] using Records.next hline hrest
          · rw [hperform] at hrest
            simpa [arrivals, Call.bytes, delivered, turns, after, hperform, hnone] using hrest
      | finish =>
          obtain ⟨answer, hperform, hnone⟩ := f.perform_finish
          rw [hperform] at hrest
          simpa [arrivals, Call.bytes, delivered, turns, after, hperform, hnone] using hrest

theorem exists_next_without_object (f : Framer) :
    ∃ count ≤ f.buffered,
      ((f.after (List.replicate count .next)).perform .next).1.object? = none := by
  induction f using drain.induct with
  | case1 f e h => exact ⟨0, Nat.zero_le _, by simp [after, perform, h, Answer.object?]⟩
  | case2 f h => exact ⟨0, Nat.zero_le _, by simp [after, perform, h, Answer.object?]⟩
  | case3 f o g h hlt ih =>
      obtain ⟨count, hle, hnone⟩ := ih
      refine ⟨count + 1, Nat.lt_of_le_of_lt hle hlt, ?_⟩
      have hperform : f.perform .next = (.delivered o, g) := by rw [perform, h]
      rw [List.replicate_succ, after, hperform]
      exact hnone

theorem turns_account (d : Delimiter) (calls : List Call) :
    let f := holding d []
    let g := f.after calls
    (∃ lines : List (Bytes × Object), lines.map Prod.snd = f.delivered calls ∧
      (∀ line ∈ lines, Declares d line.1 line.2) ∧ segments lines ++ g.buffer = arrivals calls) ∧
    (∀ turn ∈ f.turns calls, turn.Orderly) ∧
    (∃ count ≤ g.buffered,
      ((g.after (List.replicate count .next)).perform .next).1.object? = none) ∧
    f.delivered calls <+: (f.extend (arrivals calls)).drain.objects := by
  intro f g
  have hrec : Records d (arrivals calls) (f.delivered calls) g.buffer := records_after calls f
  obtain ⟨hall, -, hend⟩ := drain_records (f.extend (arrivals calls))
  rw [delimiter_extend] at hall hend
  rw [buffer_extend] at hall
  refine ⟨?_, orderly_turns calls f, g.exists_next_without_object, ?_⟩
  · obtain ⟨lines, hlines, hdeclares, hbytes⟩ := hrec.exists_segments
    exact ⟨lines, hlines, hdeclares, hbytes.symm⟩
  · exact hrec.prefix_of_exhausted hall (exhausted_of_take hend)

example :
    let calls : List Call :=
      [.extend paddedLine, .next, .extend [Bytes.newline, Bytes.newline], .next, .finish]
    ((holding ⟨"0123456789abcdef"⟩ []).turns calls).map Turn.answer =
      [.extended, .refused (.malformedSummary (Utf8.lossy (paddedLine.take Summary.maxLength))),
        .extended, .delivered ⟨.zero, []⟩, .finished] := by
  decide +kernel

end Framer

end ChatSpace.Batch
