import ChatSpace.Proofs.Batch.RoundTrip

namespace ChatSpace.Batch

structure Fielded (line : Bytes) (fields : List Bytes) : Prop where
  line_eq : line = Fields.join Bytes.space fields
  plain : ∀ field ∈ fields, Bytes.space ∉ field
  nonempty : fields ≠ []

theorem fielded_iff {line : Bytes} {fields : List Bytes} :
    Fielded line fields ↔ Fields.split Bytes.space line = fields := by
  constructor
  · rintro ⟨rfl, hplain, hne⟩
    exact Fields.split_join Bytes.space fields hne hplain
  · rintro rfl
    exact ⟨(Fields.join_split Bytes.space line).symm, Fields.not_mem_of_mem_split Bytes.space line,
      Fields.split_ne_nil Bytes.space line⟩

def Sized (size : Bytes) (n : Nat) : Prop :=
  Decimal.Spells size n ∧ n < Summary.limit

theorem unsignedUpTo?_eq_some_iff {size : Bytes} {n : Nat} :
    Decimal.unsignedUpTo? (Summary.limit - 1) size = some n ↔ Sized size n := by
  have hlimit : n ≤ Summary.limit - 1 ↔ n < Summary.limit := Nat.le_sub_one_iff_lt (by decide)
  rw [Decimal.unsignedUpTo?_eq, Option.filter_eq_some_iff, Decimal.unsigned?_eq_some_iff,
    decide_eq_true_iff, hlimit, Sized]

inductive Summary.Reads (d : Delimiter) (line : Bytes) : Except ProtocolError Summary → Prop
  | mismatch {first fields} : Fielded line (first :: fields) → first ≠ Utf8.encode d.token →
      Reads d line (.error (.delimiterMismatch (Utf8.lossy line)))
  | miscounted {fields} : Fielded line (Utf8.encode d.token :: fields) → fields.length ≠ 3 →
      Reads d line (.error (.malformedSummary (Utf8.lossy line)))
  | misnamed {name kind size e} : Fielded line [Utf8.encode d.token, name, kind, size] →
      ObjectId.Misnamed name e → Reads d line (.error (.invalidObjectId e))
  | otherType {name kind size oid} : Fielded line [Utf8.encode d.token, name, kind, size] →
      ObjectId.Named name oid → kind ≠ expectedType →
      Reads d line (.error (.unexpectedType oid (Utf8.lossy kind)))
  | missized {name size oid} : Fielded line [Utf8.encode d.token, name, expectedType, size] →
      ObjectId.Named name oid → (∀ n, ¬ Sized size n) →
      Reads d line (.error (.malformedSummary (Utf8.lossy line)))
  | summary {name size oid n} : Fielded line [Utf8.encode d.token, name, expectedType, size] →
      ObjectId.Named name oid → Sized size n → Reads d line (.ok ⟨oid, n⟩)

namespace Summary

variable {d : Delimiter} {line : Bytes} {r : Except ProtocolError Summary}

theorem parse_of_reads (h : Reads d line r) : parse d line = r := by
  cases h with
  | mismatch hfields hfirst =>
      rw [parse, fielded_iff.mp hfields]
      exact if_pos hfirst
  | miscounted hfields hcount =>
      rw [parse, fielded_iff.mp hfields]
      simp only [ne_eq, not_true_eq_false, if_false]
      unfold ofFields
      split
      · simp at hcount
      · rfl
  | misnamed hfields hname =>
      rw [parse, fielded_iff.mp hfields]
      simp [ofFields, ObjectId.ofHex_of_misnamed hname]
  | otherType hfields hname hkind =>
      rw [parse, fielded_iff.mp hfields]
      simp [ofFields, ObjectId.ofHex_of_named hname, hkind]
  | missized hfields hname hsize =>
      have hnone : Decimal.unsignedUpTo? (limit - 1) _ = none :=
        Option.eq_none_iff_forall_ne_some.mpr fun n h => hsize n (unsignedUpTo?_eq_some_iff.mp h)
      rw [parse, fielded_iff.mp hfields]
      simp [ofFields, ObjectId.ofHex_of_named hname, hnone]
  | summary hfields hname hsize =>
      rw [parse, fielded_iff.mp hfields]
      simp [ofFields, ObjectId.ofHex_of_named hname, unsignedUpTo?_eq_some_iff.mpr hsize]

theorem exists_reads (d : Delimiter) (line : Bytes) : ∃ r, Reads d line r := by
  have hsplit : Fielded line (Fields.split Bytes.space line) := fielded_iff.mpr rfl
  obtain ⟨first, fields, heq⟩ := List.exists_cons_of_ne_nil hsplit.nonempty
  rw [heq] at hsplit
  by_cases hfirst : first = Utf8.encode d.token
  · subst hfirst
    by_cases hcount : fields.length = 3
    · obtain ⟨name, kind, size, rfl⟩ : ∃ name kind size, fields = [name, kind, size] := by
        match fields, hcount with
        | [name, kind, size], _ => exact ⟨name, kind, size, rfl⟩
      obtain ⟨oid, hname⟩ | ⟨e, hname⟩ := ObjectId.named_or_misnamed name
      · by_cases hkind : kind = expectedType
        · subst hkind
          by_cases hsize : ∃ n, Sized size n
          · obtain ⟨n, hsize⟩ := hsize
            exact ⟨_, .summary hsplit hname hsize⟩
          · exact ⟨_, .missized hsplit hname (not_exists.mp hsize)⟩
        · exact ⟨_, .otherType hsplit hname hkind⟩
      · exact ⟨_, .misnamed hsplit hname⟩
    · exact ⟨_, .miscounted hsplit hcount⟩
  · exact ⟨_, .mismatch hsplit hfirst⟩

theorem reads_iff : Reads d line r ↔ parse d line = r := by
  constructor
  · exact parse_of_reads
  · rintro rfl
    obtain ⟨r, hr⟩ := exists_reads d line
    rwa [parse_of_reads hr]

def spelled (d : Delimiter) (name size : Bytes) : Bytes :=
  Utf8.encode d.token ++ Bytes.space :: name ++ Utf8.encode " commit " ++ size

theorem isInner_of_spells {size : Bytes} {n : Nat} (h : Decimal.Spells size n) : IsInner size := by
  constructor
  · intro hmem
    exact absurd (h.isDigit_of_mem _ hmem) (by decide)
  · intro hmem
    exact absurd (h.isDigit_of_mem _ hmem) (by decide)

theorem spelled_eq_join (d : Delimiter) (name size : Bytes) :
    spelled d name size =
      Fields.join Bytes.space [Utf8.encode d.token, name, expectedType, size] := by
  have htype : Utf8.encode " commit " = Bytes.space :: expectedType ++ [Bytes.space] := by decide
  simp [spelled, Fields.join, htype]

theorem newline_not_mem_spelled {name size : Bytes} {oid : ObjectId} {n : Nat}
    (hd : IsInner (Utf8.encode d.token)) (hname : ObjectId.Named name oid)
    (hsize : Decimal.Spells size n) : Bytes.newline ∉ spelled d name size := by
  have htype : Bytes.newline ∉ Utf8.encode " commit " := by decide
  have hspace : Bytes.newline ≠ Bytes.space := by decide
  simp [spelled, hd.2, hspace, (isInner_of_nibble hname.isSome_nibble).2, htype,
    (isInner_of_spells hsize).2]

theorem reads_summary_iff {s : Summary} (hd : IsInner (Utf8.encode d.token)) :
    Reads d line (.ok s) ↔
      ∃ name size, ObjectId.Named name s.oid ∧ Sized size s.size ∧ line = spelled d name size := by
  simp only [spelled_eq_join]
  constructor
  · intro h
    cases h with
    | summary hfields hname hsize => exact ⟨_, _, hname, hsize, hfields.line_eq⟩
  · rintro ⟨name, size, hname, hsize, hline⟩
    refine .summary ⟨hline, ?_, by simp⟩ hname hsize
    simp only [List.mem_cons, List.not_mem_nil, or_false, forall_eq_or_imp, forall_eq]
    exact ⟨hd.1, (isInner_of_nibble hname.isSome_nibble).1, by decide,
      (isInner_of_spells hsize.1).1⟩

end Summary

inductive Takes (d : Delimiter) : Bytes → Except ProtocolError (Option (Object × Bytes)) → Prop
  | unfinishedLine {dump} : Bytes.newline ∉ dump → dump.length ≤ Summary.maxLength →
      Takes d dump (.ok none)
  | endlessLine {dump} : Bytes.newline ∉ dump → Summary.maxLength < dump.length →
      Takes d dump (.error (.malformedSummary (Utf8.lossy (dump.take Summary.maxLength))))
  | refused {line rest e} : Bytes.newline ∉ line → Summary.Reads d line (.error e) →
      Takes d (line ++ Bytes.newline :: rest) (.error e)
  | outsized {line rest s} : Bytes.newline ∉ line → Summary.Reads d line (.ok s) →
      Summary.limit ≤ line.length + 1 + s.size →
      Takes d (line ++ Bytes.newline :: rest) (.error (.malformedSummary (Utf8.lossy line)))
  | waiting {line rest s} : Bytes.newline ∉ line → Summary.Reads d line (.ok s) →
      line.length + 1 + s.size < Summary.limit → rest.length ≤ s.size →
      Takes d (line ++ Bytes.newline :: rest) (.ok none)
  | unterminated {line content b tail oid} : Bytes.newline ∉ line →
      Summary.Reads d line (.ok ⟨oid, content.length⟩) →
      line.length + 1 + content.length < Summary.limit → b ≠ Bytes.newline →
      Takes d (line ++ Bytes.newline :: content ++ b :: tail) (.error (.missingTerminator oid))
  | object {line content tail oid} : Bytes.newline ∉ line →
      Summary.Reads d line (.ok ⟨oid, content.length⟩) →
      line.length + 1 + content.length < Summary.limit →
      Takes d (line ++ Bytes.newline :: content ++ Bytes.newline :: tail)
        (.ok (some (⟨oid, content⟩, tail)))

theorem announces_iff {d : Delimiter} {line : Bytes} {o : Object}
    (hd : Summary.IsInner (Utf8.encode d.token)) :
    Announces d line o ↔
      line.length + 1 + o.content.length < Summary.limit ∧
        ∃ name size, ObjectId.Named name o.oid ∧ Decimal.Spells size o.content.length ∧
          line = Summary.spelled d name size := by
  constructor
  · rintro ⟨-, hparse, hfits⟩
    obtain ⟨name, size, hname, hsize, hline⟩ :=
      (Summary.reads_summary_iff hd).mp (Summary.reads_iff.mpr hparse)
    exact ⟨hfits, name, size, hname, hsize.1, hline⟩
  · rintro ⟨hfits, name, size, hname, hsize, rfl⟩
    have hlimit : o.content.length < Summary.limit := by omega
    exact ⟨Summary.newline_not_mem_spelled hd hname hsize,
      Summary.parse_of_reads
        ((Summary.reads_summary_iff hd).mpr ⟨name, size, hname, ⟨hsize, hlimit⟩, rfl⟩), hfits⟩

namespace Object

variable {d : Delimiter} {dump : Bytes} {r : Except ProtocolError (Option (Object × Bytes))}

theorem take_of_takes (h : Takes d dump r) : take d dump = r := by
  cases h with
  | unfinishedLine hline hlength =>
      rw [take_of_not_mem hline]
      exact if_neg (Nat.not_lt.mpr hlength)
  | endlessLine hline hlength =>
      rw [take_of_not_mem hline]
      exact if_pos hlength
  | refused hline hreads => rw [take_line hline, Summary.parse_of_reads hreads]
  | outsized hline hreads hlimit =>
      rw [take_line hline, Summary.parse_of_reads hreads]
      exact if_pos hlimit
  | waiting hline hreads hlimit hwaits =>
      rw [take_line hline, Summary.parse_of_reads hreads]
      simp [cut, Nat.not_le.mpr hlimit, List.drop_eq_nil_iff.mpr hwaits]
  | unterminated hline hreads hlimit hb =>
      rw [List.append_assoc, List.cons_append, take_line hline, Summary.parse_of_reads hreads]
      simp [cut, Nat.not_le.mpr hlimit, hb]
  | object hline hreads hlimit =>
      rw [List.append_assoc, List.cons_append, take_line hline, Summary.parse_of_reads hreads]
      exact cut_content (o := ⟨_, _⟩) hlimit

theorem exists_takes (d : Delimiter) (dump : Bytes) : ∃ r, Takes d dump r := by
  by_cases hmem : Bytes.newline ∈ dump
  · obtain ⟨line, rest, rfl, hline⟩ := mem_newline_iff.mp hmem
    obtain ⟨e | s, hreads⟩ := Summary.exists_reads d line
    · exact ⟨_, .refused hline hreads⟩
    by_cases hlimit : line.length + 1 + s.size < Summary.limit
    · by_cases hwaits : rest.length ≤ s.size
      · exact ⟨_, .waiting hline hreads hlimit hwaits⟩
      · have hlength : s.size = (rest.take s.size).length := by
          rw [List.length_take]
          omega
        obtain ⟨b, tail, hdrop⟩ : ∃ b tail, rest.drop s.size = b :: tail :=
          List.exists_cons_of_ne_nil fun h => hwaits (List.drop_eq_nil_iff.mp h)
        rw [← List.take_append_drop s.size rest, hdrop, ← List.cons_append, ← List.append_assoc]
        generalize rest.take s.size = content at hlength
        obtain ⟨oid, size⟩ := s
        subst hlength
        by_cases hb : b = Bytes.newline
        · subst hb
          exact ⟨_, .object hline hreads hlimit⟩
        · exact ⟨_, .unterminated hline hreads hlimit hb⟩
    · exact ⟨_, .outsized hline hreads (Nat.not_lt.mp hlimit)⟩
  · by_cases hlength : dump.length ≤ Summary.maxLength
    · exact ⟨_, .unfinishedLine hmem hlength⟩
    · exact ⟨_, .endlessLine hmem (Nat.not_le.mp hlength)⟩

theorem takes_iff : Takes d dump r ↔ take d dump = r := by
  constructor
  · exact take_of_takes
  · rintro rfl
    obtain ⟨r, hr⟩ := exists_takes d dump
    rwa [take_of_takes hr]

end Object

namespace Framer

theorem map_next (f : Framer) :
    f.next.map (·.map fun (o, g) => (o, g.buffer)) = Object.take f.delimiter f.buffer := by
  rw [next_eq]
  rcases Object.take f.delimiter f.buffer with e | _ | ⟨o, tail⟩
  · rfl
  · rfl
  · simp [Except.map]

theorem exists_next_iff {f : Framer} {o : Object} {r : Bytes} :
    (∃ g, f.next = .ok (some (o, g)) ∧ g.buffer = r ∧ g.delimiter = f.delimiter) ↔
      Object.take f.delimiter f.buffer = .ok (some (o, r)) := by
  constructor
  · rintro ⟨g, hnext, rfl, -⟩
    exact (take_of_next_some hnext).1
  · intro htake
    refine ⟨holding f.delimiter r, ?_, buffer_holding _ _, rfl⟩
    rw [next_eq, htake]
    rfl

theorem next_reads (f : Framer) (hd : Summary.IsInner (Utf8.encode f.delimiter.token)) :
    (f.buffered < Summary.limit → ∀ o r,
      (∃ g, f.next = .ok (some (o, g)) ∧ g.buffer = r ∧ g.delimiter = f.delimiter) ↔
        ∃ name size, ObjectId.Named name o.oid ∧ Decimal.Spells size o.content.length ∧
          f.buffer = Summary.spelled f.delimiter name size ++ Bytes.newline :: o.content ++
            Bytes.newline :: r) ∧
    ∀ result, f.next.map (·.map fun (o, g) => (o, g.buffer)) = result ↔
      Takes f.delimiter f.buffer result := by
  constructor
  · intro hroom o r
    rw [exists_next_iff, Object.take_eq_some_iff]
    constructor
    · rintro ⟨line, hline, hbuffer⟩
      obtain ⟨-, name, size, hname, hsize, rfl⟩ := (announces_iff hd).mp hline
      exact ⟨name, size, hname, hsize, hbuffer⟩
    · rintro ⟨name, size, hname, hsize, hbuffer⟩
      have hlength := congrArg List.length hbuffer
      simp only [length_buffer, List.length_append, List.length_cons] at hlength
      exact ⟨_, (announces_iff hd).mpr ⟨by omega, name, size, hname, hsize, rfl⟩, hbuffer⟩
  · intro result
    rw [map_next, Object.takes_iff]

def capitals : Framer :=
  holding ⟨"end"⟩ (Utf8.encode
    "end ABABABABABABABABABABABABABABABABABABABAB commit 0002\n\n\n\nend ")

theorem next_reads_capitals :
    Summary.IsInner (Utf8.encode "end") ∧ capitals.buffered < Summary.limit ∧
      ∃ g, capitals.next = .ok (some (⟨⟨List.replicate 20 0xAB, rfl⟩, [0x0A, 0x0A]⟩, g)) ∧
        g.buffer = Utf8.encode "end " ∧ g.delimiter = ⟨"end"⟩ := by
  have hd : Summary.IsInner (Utf8.encode capitals.delimiter.token) := ⟨by decide, by decide⟩
  have hroom : capitals.buffered < Summary.limit := by decide +kernel
  refine ⟨hd, hroom, ((next_reads capitals hd).1 hroom _ _).mpr ?_⟩
  refine ⟨Utf8.encode "ABABABABABABABABABABABABABABABABABABABAB", Utf8.encode "0002", ?_, ?_, ?_⟩
  · exact ⟨by decide +kernel, by decide +kernel, by decide +kernel⟩
  · exact ⟨by decide, by decide +kernel, by decide +kernel⟩
  · decide +kernel

end Framer

end ChatSpace.Batch
