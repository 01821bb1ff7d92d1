import ChatSpace.Batch.Framer
import ChatSpace.Proofs.Text.Fields

namespace ChatSpace.Batch

structure Announces (d : Delimiter) (line : Bytes) (o : Object) : Prop where
  unbroken : Bytes.newline ∉ line
  parsed : Summary.parse d line = .ok ⟨o.oid, o.content.length⟩
  fits : line.length + 1 + o.content.length < Summary.limit

inductive Records (d : Delimiter) : Bytes → List Object → Bytes → Prop
  | done {rest} : Records d rest [] rest
  | next {line o tail os rest} : Announces d line o → Records d tail os rest →
      Records d (line ++ Bytes.newline :: o.content ++ Bytes.newline :: tail) (o :: os) rest

def Exhausted (d : Delimiter) (rest : Bytes) : Prop :=
  ∀ line o tail, Announces d line o →
    rest ≠ line ++ Bytes.newline :: o.content ++ Bytes.newline :: tail

/-- No line that is reached as a summary line, and has its newline, is longer than 128 bytes. -/
def Brief (d : Delimiter) (dump : Bytes) : Prop :=
  ∀ os line rest, Records d dump os (line ++ Bytes.newline :: rest) → Bytes.newline ∉ line →
    line.length ≤ Summary.maxLength

theorem line_inj {line line' rest rest' : Bytes} (h : Bytes.newline ∉ line)
    (h' : Bytes.newline ∉ line')
    (heq : line ++ Bytes.newline :: rest = line' ++ Bytes.newline :: rest') :
    line = line' ∧ rest = rest' :=
  Fields.append_cons_inj h h' heq

theorem mem_newline_iff {bytes : Bytes} :
    Bytes.newline ∈ bytes ↔
      ∃ line rest, bytes = line ++ Bytes.newline :: rest ∧ Bytes.newline ∉ line := by
  constructor
  · exact List.eq_append_cons_of_mem
  · rintro ⟨line, rest, rfl, -⟩
    simp

namespace Object

variable {d : Delimiter}

theorem take_line {line : Bytes} (h : Bytes.newline ∉ line) (rest : Bytes) :
    take d (line ++ Bytes.newline :: rest) =
      match Summary.parse d line with
      | .error e => .error e
      | .ok s => cut line rest s := by
  have htake := Fields.takeWhile_append_cons h rest
  have hdrop := Fields.dropWhile_append_cons h rest
  cases hparse : Summary.parse d line with
  | error e => simp only [take, htake, hdrop, hparse]
  | ok s => simp only [take, htake, hdrop, hparse]

theorem take_of_not_mem {dump : Bytes} (h : Bytes.newline ∉ dump) :
    take d dump =
      if Summary.maxLength < dump.length then
        .error (.malformedSummary (Utf8.lossy (dump.take Summary.maxLength)))
      else .ok none := by
  simp only [take, Fields.dropWhile_of_not_mem h]

theorem cut_content {line tail : Bytes} {o : Object}
    (h : line.length + 1 + o.content.length < Summary.limit) :
    cut line (o.content ++ Bytes.newline :: tail) ⟨o.oid, o.content.length⟩ =
      .ok (some (o, tail)) := by
  simp [cut, Nat.not_le.mpr h]

theorem take_eq_some_iff {dump tail : Bytes} {o : Object} :
    take d dump = .ok (some (o, tail)) ↔
      ∃ line, Announces d line o ∧
        dump = line ++ Bytes.newline :: o.content ++ Bytes.newline :: tail := by
  constructor
  · intro h
    by_cases hmem : Bytes.newline ∈ dump
    · obtain ⟨line, rest, rfl, hline⟩ := mem_newline_iff.mp hmem
      rw [take_line hline] at h
      split at h
      · cases h
      · next s hs =>
        have hlimit : line.length + 1 + s.size < Summary.limit := by
          unfold cut at h
          split at h
          · cases h
          · omega
        obtain ⟨hrest, hoid, hlen⟩ := cut_eq_some h
        refine ⟨line, ⟨hline, by rw [hs, hoid, hlen], by rwa [hlen]⟩, by simp [hrest]⟩
    · rw [take_of_not_mem hmem] at h
      split at h <;> cases h
  · rintro ⟨line, h, rfl⟩
    rw [List.append_assoc, List.cons_append, take_line h.unbroken, h.parsed]
    exact cut_content h.fits

theorem cut_append_of_error {line rest : Bytes} {s : Summary} {e : ProtocolError}
    (h : cut line rest s = .error e) (more : Bytes) : cut line (rest ++ more) s = .error e := by
  unfold cut at h ⊢
  split at h
  · next hlimit => rw [if_pos hlimit]; exact h
  · next hlimit =>
    rw [if_neg hlimit]
    cases hdrop : rest.drop s.size with
    | nil => rw [hdrop] at h; cases h
    | cons b tail =>
        have hlen : s.size < rest.length := by
          have := congrArg List.length hdrop
          simp at this
          omega
        rw [hdrop] at h
        rw [List.drop_append_of_le_length (Nat.le_of_lt hlen), hdrop, List.cons_append]
        by_cases hb : b = Bytes.newline
        · simp [hb] at h
        · simpa [hb] using h

theorem take_append_of_error {dump : Bytes} {e : ProtocolError} (h : take d dump = .error e)
    (more : Bytes) :
    take d (dump ++ more) = .error e ∨
      ∃ line rest, dump ++ more = line ++ Bytes.newline :: rest ∧ Bytes.newline ∉ line ∧
        Summary.maxLength < line.length ∧
        e = .malformedSummary (Utf8.lossy (line.take Summary.maxLength)) := by
  by_cases hmem : Bytes.newline ∈ dump
  · left
    obtain ⟨line, rest, rfl, hline⟩ := mem_newline_iff.mp hmem
    rw [take_line hline] at h
    rw [List.append_assoc, List.cons_append, take_line hline]
    cases hs : Summary.parse d line with
    | error e' => rw [hs] at h; exact h
    | ok s => rw [hs] at h; exact cut_append_of_error h more
  · rw [take_of_not_mem hmem] at h
    split at h
    · next hlong =>
      cases h
      by_cases hmore : Bytes.newline ∈ more
      · right
        obtain ⟨line, rest, rfl, hline⟩ := mem_newline_iff.mp hmore
        refine ⟨dump ++ line, rest, by simp, by simp [hmem, hline], ?_, ?_⟩
        · simp only [List.length_append]
          omega
        · rw [List.take_append_of_le_length (Nat.le_of_lt hlong)]
      · left
        have hlonger : Summary.maxLength < (dump ++ more).length := by
          rw [List.length_append]
          omega
        rw [take_of_not_mem (by simp [hmem, hmore]), if_pos hlonger,
          List.take_append_of_le_length (Nat.le_of_lt hlong)]
    · cases h

end Object

theorem exhausted_iff {d : Delimiter} {rest : Bytes} :
    Exhausted d rest ↔ ∀ o tail, Object.take d rest ≠ .ok (some (o, tail)) := by
  constructor
  · intro h o tail htake
    obtain ⟨line, hline, heq⟩ := Object.take_eq_some_iff.mp htake
    exact h line o tail hline heq
  · intro h line o tail hline heq
    exact h o tail (Object.take_eq_some_iff.mpr ⟨line, hline, heq⟩)

theorem Announces.take_record {d : Delimiter} {line : Bytes} {o : Object} (h : Announces d line o)
    (tail : Bytes) :
    Object.take d (line ++ Bytes.newline :: o.content ++ Bytes.newline :: tail) =
      .ok (some (o, tail)) :=
  Object.take_eq_some_iff.mpr ⟨line, h, rfl⟩

namespace Records

variable {d : Delimiter} {dump middle rest rest' : Bytes} {os os' : List Object}

theorem trans (h : Records d dump os middle) (h' : Records d middle os' rest) :
    Records d dump (os ++ os') rest := by
  induction h with
  | done => exact h'
  | next hline _ ih => exact .next hline (ih h')

theorem append (h : Records d dump os rest) (more : Bytes) :
    Records d (dump ++ more) os (rest ++ more) := by
  induction h with
  | done => exact .done
  | next hline _ ih => simpa using Records.next hline ih

theorem exists_front (h : Records d dump os rest) :
    ∃ front, dump = front ++ rest ∧ ∀ after, Records d (front ++ after) os after := by
  induction h with
  | done => exact ⟨[], rfl, fun _ => .done⟩
  | next hline _ ih =>
      obtain ⟨front, rfl, hfront⟩ := ih
      refine ⟨_, (List.append_assoc _ (_ :: front) _).symm, ?_⟩
      intro after
      simpa using Records.next hline (hfront after)

theorem unique (h : Records d dump os rest) (h' : Records d dump os' rest')
    (hrest : Exhausted d rest) (hrest' : Exhausted d rest') : os = os' ∧ rest = rest' := by
  induction h generalizing os' with
  | done =>
      cases h' with
      | done => exact ⟨rfl, rfl⟩
      | next hline _ => exact absurd rfl (hrest _ _ _ hline)
  | @next line o tail os rest hline _ ih =>
      generalize hdump : line ++ Bytes.newline :: o.content ++ Bytes.newline :: tail = dump at h'
      cases h' with
      | done => exact absurd hdump.symm (hrest' _ _ _ hline)
      | @next line' o' tail' os' _ hline' h' =>
          have htake := hline.take_record tail
          rw [hdump, hline'.take_record tail'] at htake
          cases htake
          obtain ⟨rfl, rfl⟩ := ih h' hrest
          exact ⟨rfl, rfl⟩

end Records

theorem Brief.of_records {d : Delimiter} {dump rest : Bytes} {os : List Object}
    (h : Brief d dump) (hrec : Records d dump os rest) : Brief d rest := by
  intro os' line tail hrest hline
  exact h _ line tail (hrec.trans hrest) hline

theorem Brief.of_exhausted {d : Delimiter} {rest : Bytes} (h : Exhausted d rest)
    (hline : ∀ line tail, rest = line ++ Bytes.newline :: tail → Bytes.newline ∉ line →
      line.length ≤ Summary.maxLength) : Brief d rest := by
  intro os line tail hrec hunbroken
  generalize hfollow : line ++ Bytes.newline :: tail = follow at hrec
  cases hrec with
  | done => exact hline line tail hfollow.symm hunbroken
  | next hfirst _ => exact absurd rfl (h _ _ _ hfirst)

theorem Announces.brief {d : Delimiter} {line tail : Bytes} {o : Object} (h : Announces d line o)
    (hline : line.length ≤ Summary.maxLength) (htail : Brief d tail) :
    Brief d (line ++ Bytes.newline :: o.content ++ Bytes.newline :: tail) := by
  intro os line' tail' hrec hunbroken
  generalize hdump : line ++ Bytes.newline :: o.content ++ Bytes.newline :: tail = dump at hrec
  cases hrec with
  | done =>
      rw [List.append_assoc, List.cons_append] at hdump
      obtain ⟨rfl, -⟩ := line_inj h.unbroken hunbroken hdump
      exact hline
  | next hfirst hrec =>
      have htake := h.take_record tail
      rw [hdump, hfirst.take_record] at htake
      cases htake
      exact htail _ _ _ hrec hunbroken

theorem Brief.take_append {d : Delimiter} {dump more : Bytes} {e : ProtocolError}
    (h : Brief d (dump ++ more)) (htake : Object.take d dump = .error e) :
    Object.take d (dump ++ more) = .error e := by
  rcases Object.take_append_of_error htake more with htake | ⟨line, rest, heq, hline, hlong, -⟩
  · exact htake
  · have := h [] line rest (heq ▸ .done) hline
    omega

end ChatSpace.Batch
