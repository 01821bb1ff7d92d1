import ChatSpace.Proofs.Commit.Grammar

namespace ChatSpace

namespace Timestamp

inductive Gives (low high : Int) (field : Option (List Char)) : Int → Prop
  | number {word n} : field = some word → Decimal.Denotes (Utf8.encode (String.ofList word)) n →
      low ≤ n → n ≤ high → Gives low high field n
  | nothing : (∀ word n, field = some word →
      Decimal.Denotes (Utf8.encode (String.ofList word)) n → low ≤ n → ¬ n ≤ high) →
      Gives low high field 0

variable {low high : Int} {field : Option (List Char)} {n : Int}

def read? (low high : Int) (field : Option (List Char)) : Option Int :=
  field.bind fun word => Decimal.within? low high (String.ofList word)

theorem read?_eq_some_iff (hlow : low ≤ 0) (hhigh : 0 ≤ high) :
    read? low high field = some n ↔
      ∃ word, field = some word ∧ Decimal.Denotes (Utf8.encode (String.ofList word)) n ∧
        low ≤ n ∧ n ≤ high := by
  simp only [read?, Option.bind_eq_some_iff, Decimal.within?_eq_some_iff hlow hhigh]

theorem gives_iff (hlow : low ≤ 0) (hhigh : 0 ≤ high) :
    Gives low high field n ↔ (read? low high field).getD 0 = n := by
  have hread (m : Int) : read? low high field = some m ↔ ∃ word, field = some word ∧
      Decimal.Denotes (Utf8.encode (String.ofList word)) m ∧ low ≤ m ∧ m ≤ high :=
    read?_eq_some_iff hlow hhigh
  cases hfield : read? low high field with
  | none =>
      constructor
      · intro h
        cases h with
        | number hword hn hlo hhi =>
            exact nomatch hfield.symm.trans ((hread n).mpr ⟨_, hword, hn, hlo, hhi⟩)
        | nothing _ => rfl
      · rintro rfl
        refine .nothing fun word m hword hm hlo hhi => ?_
        exact nomatch hfield.symm.trans ((hread m).mpr ⟨word, hword, hm, hlo, hhi⟩)
  | some m =>
      obtain ⟨word, hword, hm, hlo, hhi⟩ := (hread m).mp hfield
      constructor
      · intro h
        cases h with
        | number hword' hn hlo hhi =>
            exact Option.some.inj (hfield.symm.trans ((hread n).mpr ⟨_, hword', hn, hlo, hhi⟩))
        | nothing hnone => exact absurd hhi (hnone word m hword hm hlo)
      · rintro rfl
        exact .number hword hm hlo hhi

end Timestamp

namespace Signature

structure Says (name email rest : Bytes) (s : Signature) : Prop where
  name : Trims Blank.isAscii (Utf8.lossy name).toList s.name.toList
  email : s.email = Utf8.lossy email
  times : ∃ words hhmm, Blank.Words (Utf8.lossy rest).toList words ∧
    Timestamp.Gives (-0x8000000000000000) 0x7FFFFFFFFFFFFFFF words[0]? s.timestamp.time ∧
    Timestamp.Gives (-0x80000000) 0x7FFFFFFF words[1]? hhmm ∧
    s.timestamp.offset = Timestamp.minutes hhmm

theorem timestampOf_map (words : List (List Char)) :
    timestampOf (words.map String.ofList) =
      { time := (Timestamp.read? (-0x8000000000000000) 0x7FFFFFFFFFFFFFFF words[0]?).getD 0
        offset := Timestamp.minutes
          ((Timestamp.read? (-0x80000000) 0x7FFFFFFF words[1]?).getD 0) } := by
  have htime : (words.map String.ofList)[0]?.bind Decimal.int64? =
      Timestamp.read? (-0x8000000000000000) 0x7FFFFFFFFFFFFFFF words[0]? := by
    rw [List.getElem?_map, Option.bind_map]
    rfl
  have hoffset : ((words.map String.ofList)[1]?.map Timestamp.offsetOf).getD 0 =
      Timestamp.minutes ((Timestamp.read? (-0x80000000) 0x7FFFFFFF words[1]?).getD 0) := by
    rw [List.getElem?_map, Option.map_map]
    cases words[1]? with
    | none => rfl
    | some word => exact Timestamp.offsetOf_eq (String.ofList word)
  rw [timestampOf, htime, hoffset]

theorem says_iff {name email rest : Bytes} {s : Signature} :
    Says name email rest s ↔ s = ofParts name email rest := by
  have htrims : Trims Blank.isAscii (Utf8.lossy name).toList
      (Utf8.lossy (Bytes.trim name)).toList := (Bytes.trims_iff.mpr rfl).lossy
  obtain ⟨words, hwords⟩ := Blank.exists_words (Utf8.lossy rest).toList
  have hread := Blank.asciiWords_eq_iff.mpr hwords
  have htimes {field : Option (List Char)} {n : Int} :
      Timestamp.Gives (-0x8000000000000000) 0x7FFFFFFFFFFFFFFF field n ↔ _ :=
    Timestamp.gives_iff (by decide) (by decide)
  have hoffsets {field : Option (List Char)} {n : Int} :
      Timestamp.Gives (-0x80000000) 0x7FFFFFFF field n ↔ _ :=
    Timestamp.gives_iff (by decide) (by decide)
  constructor
  · rintro ⟨hname, hemail, words', hhmm, hwords', htime, hgives, hoffset⟩
    obtain rfl := (List.map_inj_right fun _ _ => String.ofList_inj.mp).mp
      (hread.symm.trans (Blank.asciiWords_eq_iff.mpr hwords'))
    obtain ⟨shown, email, time, offset⟩ := s
    obtain rfl : shown = Utf8.lossy (Bytes.trim name) :=
      String.toList_inj.mp (hname.unique htrims)
    obtain rfl := hemail
    obtain rfl := htimes.mp htime
    obtain rfl := hoffsets.mp hgives
    obtain rfl := hoffset
    rw [ofParts, hread, timestampOf_map]
  · rintro rfl
    refine ⟨htrims, rfl, words, _, hwords, ?_, hoffsets.mpr rfl, ?_⟩
    · rw [ofParts, hread, timestampOf_map]
      exact htimes.mpr rfl
    · rw [ofParts, hread, timestampOf_map]

theorem Parts.unique {value name email rest name' email' rest' : Bytes}
    (h : Parts value name email rest) (h' : Parts value name' email' rest') :
    name = name' ∧ email = email' ∧ rest = rest' := by
  obtain ⟨rfl, htail⟩ := Fields.append_cons_inj h.name_plain h'.name_plain
    (h.value_eq.symm.trans h'.value_eq)
  obtain ⟨rfl, rfl⟩ := Fields.append_cons_inj h.email_closed h'.email_closed htail
  exact ⟨rfl, rfl, rfl⟩

end Signature

namespace Commit

/-- Two lines that differ, if at all, in what an author or a committer line says after the
address. -/
inductive Retimed : Bytes → Bytes → Prop
  | same {line} : Retimed line line
  | times {header : Header} {value value' name email rest rest'} :
      header = .author ∨ header = .committer → Signature.Parts value name email rest →
      Signature.Parts value' name email rest' →
      Retimed (header.lead ++ value) (header.lead ++ value')

variable {oid tree : ObjectId} {parents : List ObjectId} {author : Signature} {header : Header}
  {line line' : Bytes} {lines lines' rest : List Bytes} {value : Bytes}

theorem Retimed.symm (h : Retimed line line') : Retimed line' line := by
  cases h with
  | same => exact .same
  | times hheader hparts hparts' => exact .times hheader hparts' hparts

theorem retimed_symm (h : List.Forall₂ Retimed lines lines') :
    List.Forall₂ Retimed lines' lines :=
  (h.imp fun _ _ hline => hline.symm).flip

theorem Retimed.exists_value (h : Retimed (header.lead ++ value) line') :
    ∃ value', line' = header.lead ++ value' ∧
      (Signature.IsWellFormed value → Signature.IsWellFormed value') ∧
      (¬ Signature.IsWellFormed value → value' = value) := by
  generalize hline : header.lead ++ value = line at h
  cases h with
  | same => exact ⟨value, hline.symm, id, fun _ => rfl⟩
  | @times other found found' name email rest rest' hheader hparts hparts' =>
      obtain rfl := eq_of_lead_append hline
      obtain rfl := List.append_cancel_left hline
      exact ⟨found', rfl, fun _ => ⟨_, _, _, hparts'⟩, fun h => absurd ⟨_, _, _, hparts⟩ h⟩

theorem Retimed.eq_of_lead (h : Retimed (header.lead ++ value) line')
    (hheader : header = .tree ∨ header = .parent) : line' = header.lead ++ value := by
  generalize hline : header.lead ++ value = line at h
  cases h with
  | same => rfl
  | times hother _ _ =>
      obtain rfl := eq_of_lead_append hline
      rcases hheader with rfl | rfl <;> simp at hother

theorem Leads.retimed (h : Leads header lines) (hlines : List.Forall₂ Retimed lines lines') :
    Leads header lines' := by
  obtain ⟨value, rest, rfl⟩ := h
  cases hlines with
  | cons hline _ =>
      obtain ⟨value', rfl, -, -⟩ := hline.exists_value
      exact ⟨value', _, rfl⟩

theorem not_leads_retimed (h : ¬ Leads header lines) (hlines : List.Forall₂ Retimed lines lines') :
    ¬ Leads header lines' :=
  fun hleads => h (hleads.retimed (retimed_symm hlines))

theorem retimed_map {values : List Bytes}
    (h : List.Forall₂ Retimed (values.map (header.lead ++ ·) ++ rest) lines') :
    ∃ (values' rest' : List Bytes), lines' = values'.map (header.lead ++ ·) ++ rest' ∧
      List.Forall₂ Retimed rest rest' ∧ (header = .tree ∨ header = .parent → values' = values) := by
  induction values generalizing lines' with
  | nil => exact ⟨[], lines', rfl, h, fun _ => rfl⟩
  | cons value values ih =>
      cases h with
      | cons hline hlines =>
          obtain ⟨values', rest', rfl, hrest, hsame⟩ := ih hlines
          obtain ⟨value', rfl, -, -⟩ := hline.exists_value
          refine ⟨value' :: values', rest', rfl, hrest, ?_⟩
          intro hheader
          rw [List.append_cancel_left (hline.eq_of_lead hheader), hsame hheader]

theorem Opened.retimed (h : Opened tree parents lines rest)
    (hlines : List.Forall₂ Retimed lines lines') :
    ∃ rest', Opened tree parents lines' rest' ∧ List.Forall₂ Retimed rest rest' := by
  obtain ⟨digits, names, rfl, htree, hnames⟩ := h
  cases hlines with
  | cons hline hlines =>
      obtain ⟨names', rest', rfl, hrest, hsame⟩ := retimed_map hlines
      obtain rfl := hsame (.inr rfl)
      obtain rfl := hline.eq_of_lead (.inl rfl)
      exact ⟨rest', ⟨digits, names', rfl, htree, hnames⟩, hrest⟩

theorem Authored.retimed (h : Authored tree parents author lines rest)
    (hlines : List.Forall₂ Retimed lines lines') :
    ∃ author' rest', Authored tree parents author' lines' rest' ∧
      List.Forall₂ Retimed rest rest' := by
  obtain ⟨value, again, hopened, name, email, tail, hparts, -⟩ := h
  obtain ⟨found, hopened', hfound⟩ := hopened.retimed hlines
  cases hfound with
  | cons hline hrest =>
      obtain ⟨value', rfl, hwell, -⟩ := hline.exists_value
      obtain ⟨name', email', tail', hparts'⟩ := hwell ⟨name, email, tail, hparts⟩
      obtain ⟨again', rest', rfl, hrest', -⟩ := retimed_map hrest
      exact ⟨_, rest', ⟨value', again', hopened', name', email', tail', hparts', rfl⟩, hrest'⟩

theorem Reads.retimed {e : ParseError} (h : Reads oid lines (.error e))
    (hlines : List.Forall₂ Retimed lines lines') : Reads oid lines' (.error e) := by
  cases h with
  | missingTree htree => exact .missingTree (not_leads_retimed htree hlines)
  | invalidTree heq hdigits =>
      subst heq
      cases hlines with
      | cons hline _ => exact .invalidTree (by rw [hline.eq_of_lead (.inl rfl)]) hdigits
  | invalidParent hopened hdigits =>
      obtain ⟨rest', hopened', hrest⟩ := hopened.retimed hlines
      cases hrest with
      | cons hline _ =>
          obtain rfl := hline.eq_of_lead (.inr rfl)
          exact .invalidParent hopened' hdigits
  | duplicateTree hopened htree =>
      obtain ⟨rest', hopened', hrest⟩ := hopened.retimed hlines
      exact .duplicateTree hopened' (htree.retimed hrest)
  | missingAuthor hopened hparent htree hauthor =>
      obtain ⟨rest', hopened', hrest⟩ := hopened.retimed hlines
      exact .missingAuthor hopened' (not_leads_retimed hparent hrest)
        (not_leads_retimed htree hrest) (not_leads_retimed hauthor hrest)
  | malformedAuthor hopened hvalue =>
      obtain ⟨rest', hopened', hrest⟩ := hopened.retimed hlines
      cases hrest with
      | cons hline _ =>
          obtain ⟨value', rfl, -, hsame⟩ := hline.exists_value
          obtain rfl := hsame hvalue
          exact .malformedAuthor hopened' hvalue
  | missingCommitter hauthored hauthor hcommitter =>
      obtain ⟨author', rest', hauthored', hrest⟩ := hauthored.retimed hlines
      exact .missingCommitter hauthored' (not_leads_retimed hauthor hrest)
        (not_leads_retimed hcommitter hrest)
  | malformedCommitter hauthored hvalue =>
      obtain ⟨author', rest', hauthored', hrest⟩ := hauthored.retimed hlines
      cases hrest with
      | cons hline _ =>
          obtain ⟨value', rfl, -, hsame⟩ := hline.exists_value
          obtain rfl := hsame hvalue
          exact .malformedCommitter hauthored' hvalue

theorem parse_tolerates :
    (∀ value, (∃ s, Signature.parse value = some s) ↔
      ∃ name email rest, Signature.Parts value name email rest) ∧
    (∀ value name email rest name' email' rest', Signature.Parts value name email rest →
      Signature.Parts value name' email' rest' → name = name' ∧ email = email' ∧ rest = rest') ∧
    (∀ value s, Signature.parse value = some s ↔
      ∃ name email rest, Signature.Parts value name email rest ∧
        Signature.Says name email rest s) ∧
    ∀ oid raw raw',
      List.Forall₂ Retimed (Fields.split Bytes.newline raw) (Fields.split Bytes.newline raw') →
      ∀ e, parse oid raw = .error e ↔ parse oid raw' = .error e := by
  refine ⟨?_, ?_, ?_, ?_⟩
  · intro value
    constructor
    · rintro ⟨s, hparse⟩
      exact Signature.isWellFormed_of_parse hparse
    · rintro ⟨name, email, rest, hparts⟩
      exact ⟨_, Signature.parse_of_parts hparts⟩
  · intro value name email rest name' email' rest' h h'
    exact h.unique h'
  · intro value s
    simp only [Signature.parse_eq_some_iff, Signature.Spelled, Signature.says_iff]
  · intro oid raw raw' hlines e
    rw [parse_eq_iff, parse_eq_iff]
    exact ⟨fun h => h.retimed hlines, fun h => h.retimed (retimed_symm hlines)⟩

example : Signature.parse (Utf8.encode " A  <> 9223372036854775808 +530 x") =
    some ⟨"A", "", ⟨0, 330⟩⟩ := by
  decide

def clockLines (time : String) : List Bytes :=
  [Header.tree.lead ++ ObjectId.zero.encode, Header.author.lead ++ Utf8.encode ("A <a@b>" ++ time),
    Header.committer.lead ++ Utf8.encode "<> 9223372036854775808 +530", [], Utf8.encode "Body"]

theorem parts_clock (time : String) :
    Signature.Parts (Utf8.encode ("A <a@b>" ++ time)) (Utf8.encode "A ") (Utf8.encode "a@b")
      (Utf8.encode time) :=
  ⟨by rw [Utf8.encode_append]; rfl, by decide, by decide, by decide⟩

theorem parse_tolerates_garbled :
    let raw := Fields.join Bytes.newline (clockLines " 1000 -0300")
    let garbled := Fields.join Bytes.newline (clockLines " noon +12:00")
    List.Forall₂ Retimed (Fields.split Bytes.newline raw) (Fields.split Bytes.newline garbled) ∧
      ∀ e, parse .zero garbled ≠ .error e := by
  intro raw garbled
  have hraw : (parse .zero raw).toBool = true := by decide +kernel
  have hlines : List.Forall₂ Retimed (Fields.split Bytes.newline raw)
      (Fields.split Bytes.newline garbled) := by
    rw [Fields.split_join _ _ (by simp [clockLines]) (by decide),
      Fields.split_join _ _ (by simp [clockLines]) (by decide)]
    have htimes := Retimed.times (.inl rfl) (parts_clock " 1000 -0300") (parts_clock " noon +12:00")
    exact .cons .same (.cons htimes (.cons .same (.cons .same (.cons .same .nil))))
  refine ⟨hlines, fun e hgarbled => ?_⟩
  rw [(parse_tolerates.2.2.2 .zero raw garbled hlines e).mpr hgarbled] at hraw
  cases hraw

end Commit

end ChatSpace
