import ChatSpace.Commit.Signature
import ChatSpace.Proofs.Commit.Offset
import ChatSpace.Proofs.Text.Blanks
import ChatSpace.Proofs.Text.Fields

namespace ChatSpace

namespace Signature

variable {value name email rest : Bytes} {s : Signature}

structure Parts (value name email rest : Bytes) : Prop where
  value_eq : value = name ++ opening :: (email ++ closing :: rest)
  name_plain : opening ∉ name
  email_plain : opening ∉ email
  email_closed : closing ∉ email

def IsWellFormed (value : Bytes) : Prop :=
  ∃ name email rest, Parts value name email rest

def ofParts (name email rest : Bytes) : Signature :=
  { name := Utf8.lossy (Bytes.trim name)
    email := Utf8.lossy email
    timestamp := timestampOf (Blank.asciiWords (Utf8.lossy rest)) }

theorem parse_of_parts (h : Parts value name email rest) :
    parse value = some (ofParts name email rest) := by
  have hemail : email.contains opening = false := by simpa using h.email_plain
  obtain rfl := h.value_eq
  rw [parse, Fields.dropWhile_append_cons h.name_plain, Fields.takeWhile_append_cons h.name_plain]
  simp only [Fields.dropWhile_append_cons h.email_closed,
    Fields.takeWhile_append_cons h.email_closed, hemail, Bool.false_eq_true, if_false]
  rfl

theorem isWellFormed_of_parse (h : parse value = some s) : IsWellFormed value := by
  by_cases hopen : opening ∈ value
  · obtain ⟨name, tail, rfl, hname⟩ := List.eq_append_cons_of_mem hopen
    rw [parse, Fields.dropWhile_append_cons hname] at h
    by_cases hclose : closing ∈ tail
    · obtain ⟨email, rest, rfl, hemail⟩ := List.eq_append_cons_of_mem hclose
      simp only [Fields.dropWhile_append_cons hemail, Fields.takeWhile_append_cons hemail] at h
      split at h
      · cases h
      · next hplain => exact ⟨name, email, rest, rfl, hname, by simpa using hplain, hemail⟩
    · simp only [Fields.dropWhile_of_not_mem hclose] at h
      cases h
  · rw [parse, Fields.dropWhile_of_not_mem hopen] at h
    cases h

def Spelled (value : Bytes) (s : Signature) : Prop :=
  ∃ name email rest, Parts value name email rest ∧ s = ofParts name email rest

theorem parse_eq_some_iff : parse value = some s ↔ Spelled value s := by
  constructor
  · intro h
    obtain ⟨name, email, rest, hparts⟩ := isWellFormed_of_parse h
    rw [parse_of_parts hparts, Option.some.injEq] at h
    exact ⟨name, email, rest, hparts, h.symm⟩
  · rintro ⟨name, email, rest, hparts, rfl⟩
    exact parse_of_parts hparts

theorem parse_eq_none_iff : parse value = none ↔ ¬ IsWellFormed value := by
  constructor
  · rintro h ⟨name, email, rest, hparts⟩
    rw [parse_of_parts hparts] at h
    cases h
  · intro h
    cases hparse : parse value with
    | none => rfl
    | some s => exact absurd (isWellFormed_of_parse hparse) h

structure IsPlain (s : Signature) : Prop where
  name_trimmed : Blank.IsTrimmed s.name
  name_plain : '<' ∉ s.name.toList
  name_line : '\n' ∉ s.name.toList
  email_plain : '<' ∉ s.email.toList
  email_closed : '>' ∉ s.email.toList
  email_line : '\n' ∉ s.email.toList
  time_low : -0x8000000000000000 ≤ s.timestamp.time
  time_high : s.timestamp.time ≤ 0x7FFFFFFFFFFFFFFF
  offset_low : -5999 ≤ s.timestamp.offset
  offset_high : s.timestamp.offset ≤ 5999

instance (s : Signature) : Decidable s.IsPlain :=
  decidable_of_iff
    (Blank.IsTrimmed s.name ∧ ('<' ∉ s.name.toList ∧ '\n' ∉ s.name.toList) ∧
      ('<' ∉ s.email.toList ∧ '>' ∉ s.email.toList ∧ '\n' ∉ s.email.toList) ∧
      (-0x8000000000000000 ≤ s.timestamp.time ∧ s.timestamp.time ≤ 0x7FFFFFFFFFFFFFFF) ∧
      -5999 ≤ s.timestamp.offset ∧ s.timestamp.offset ≤ 5999)
    ⟨fun ⟨a, ⟨b, c⟩, ⟨d, e, f⟩, ⟨g, h⟩, i, j⟩ => ⟨a, b, c, d, e, f, g, h, i, j⟩,
      fun ⟨a, b, c, d, e, f, g, h, i, j⟩ => ⟨a, ⟨b, c⟩, ⟨d, e, f⟩, ⟨g, h⟩, i, j⟩⟩

def words (t : Timestamp) : List (List Char) :=
  [(toString t.time).toList, Timestamp.offsetText t.offset]

theorem encode_eq (s : Signature) :
    s.encode = (Utf8.encode s.name ++ [Bytes.space]) ++ opening :: (Utf8.encode s.email ++
      closing :: Utf8.encode (String.ofList ((words s.timestamp).flatMap (' ' :: ·)))) := by
  have hopen : Utf8.encode " <" = [Bytes.space, opening] := rfl
  have hclose : Utf8.encode "> " = closing :: Utf8.encode " " := rfl
  simp [encode, words, Utf8.encode_append, hopen, hclose]

theorem isWord_of_mem_words {t : Timestamp} {word : List Char} (h : word ∈ words t) :
    Blank.IsWord word := by
  rcases List.mem_pair.mp h with rfl | rfl
  · refine ⟨Decimal.toList_toString_ne_nil t.time, ?_⟩
    intro c hc
    rcases Decimal.eq_or_isDigit_of_mem_toString hc with rfl | hdigit
    · rfl
    · exact Blank.isAscii_of_isDigit hdigit
  · refine ⟨by simp [Timestamp.offsetText], ?_⟩
    intro c hc
    rcases List.mem_cons.mp hc with rfl | hdigit
    · split <;> rfl
    · exact Blank.isAscii_of_isDigit (Decimal.isDigit_of_mem_pair hdigit)

theorem timestampOf_words (h : s.IsPlain) :
    timestampOf (Blank.asciiWords (String.ofList ((words s.timestamp).flatMap (' ' :: ·)))) =
      s.timestamp := by
  rw [Blank.asciiWords_flatMap fun _ => isWord_of_mem_words]
  have htime := Decimal.int64?_toString h.time_low h.time_high
  have hoffset := Timestamp.offsetOf_offsetText h.offset_low h.offset_high
  rw [Int.toString_eq_repr] at htime
  simp [timestampOf, words, htime, hoffset]

theorem parts_encode (h : s.IsPlain) :
    Parts s.encode (Utf8.encode s.name ++ [Bytes.space]) (Utf8.encode s.email)
      (Utf8.encode (String.ofList ((words s.timestamp).flatMap (' ' :: ·)))) where
  value_eq := encode_eq s
  name_plain := by
    intro hmem
    rcases List.mem_append.mp hmem with hmem | hmem
    · exact h.name_plain (Utf8.mem_toList_of_mem_encode hmem (by decide))
    · exact absurd hmem (by decide)
  email_plain hmem := h.email_plain (Utf8.mem_toList_of_mem_encode hmem (by decide))
  email_closed hmem := h.email_closed (Utf8.mem_toList_of_mem_encode hmem (by decide))

theorem newline_not_mem_encode (h : s.IsPlain) : Bytes.newline ∉ s.encode := by
  have hwords : '\n' ∉ (words s.timestamp).flatMap (' ' :: ·) := by
    intro hmem
    obtain ⟨word, hword, hmem⟩ := List.mem_flatMap.mp hmem
    rcases List.mem_cons.mp hmem with heq | hmem
    · exact absurd heq (by decide)
    · exact absurd ((isWord_of_mem_words hword).2 _ hmem) (by decide)
  have hbrackets : Bytes.newline ≠ Bytes.space ∧ Bytes.newline ≠ opening ∧
      Bytes.newline ≠ closing := by decide
  simp [encode_eq, Utf8.newline_not_mem_encode, h.name_line, h.email_line, hwords, hbrackets]

theorem parse_encode (h : s.IsPlain) : parse s.encode = some s := by
  have hblank : ∀ b ∈ [Bytes.space], Bytes.isBlank b := by simp [Bytes.isBlank, Bytes.space]
  rw [parse_of_parts (parts_encode h), ofParts, Blank.trim_encode_append h.name_trimmed hblank]
  simp [timestampOf_words h]

end Signature

end ChatSpace
