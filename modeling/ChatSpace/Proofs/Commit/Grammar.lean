import ChatSpace.Commit.Record
import ChatSpace.Proofs.Commit.Signature
import ChatSpace.Proofs.ObjectId

namespace ChatSpace.Commit

def Leads (header : Header) (lines : List Bytes) : Prop :=
  ∃ value rest, lines = (header.lead ++ value) :: rest

def Opened (tree : ObjectId) (parents : List ObjectId) (lines rest : List Bytes) : Prop :=
  ∃ (digits : Bytes) (names : List Bytes),
    lines = (Header.tree.lead ++ digits) :: names.map (Header.parent.lead ++ ·) ++ rest ∧
    ObjectId.Named digits tree ∧ List.Forall₂ ObjectId.Named names parents

def Authored (tree : ObjectId) (parents : List ObjectId) (author : Signature)
    (lines rest : List Bytes) : Prop :=
  ∃ (value : Bytes) (again : List Bytes), Opened tree parents lines
      ((Header.author.lead ++ value) :: again.map (Header.author.lead ++ ·) ++ rest) ∧
    Signature.Spelled value author

inductive Message (lines : List Bytes) : Bytes → Prop
  | blank {headers message} : lines = headers ++ [] :: message → [] ∉ headers →
      Message lines (Fields.join Bytes.newline message)
  | missing : [] ∉ lines → Message lines []

inductive Reads (oid : ObjectId) (lines : List Bytes) : Except ParseError Commit → Prop
  | missingTree : ¬ Leads .tree lines → Reads oid lines (.error (.missingTree oid))
  | invalidTree {digits rest e} : lines = (Header.tree.lead ++ digits) :: rest →
      ObjectId.Misnamed digits e → Reads oid lines (.error (.invalidObjectId oid .tree e))
  | invalidParent {tree parents digits rest e} :
      Opened tree parents lines ((Header.parent.lead ++ digits) :: rest) →
      ObjectId.Misnamed digits e → Reads oid lines (.error (.invalidObjectId oid .parent e))
  | duplicateTree {tree parents rest} : Opened tree parents lines rest → Leads .tree rest →
      Reads oid lines (.error (.duplicateTree oid))
  | missingAuthor {tree parents rest} : Opened tree parents lines rest → ¬ Leads .parent rest →
      ¬ Leads .tree rest → ¬ Leads .author rest →
      Reads oid lines (.error (.missingSignature oid .author))
  | malformedAuthor {tree parents value rest} :
      Opened tree parents lines ((Header.author.lead ++ value) :: rest) →
      ¬ Signature.IsWellFormed value →
      Reads oid lines (.error (.malformedSignature oid .author (Utf8.lossy value)))
  | missingCommitter {tree parents author rest} : Authored tree parents author lines rest →
      ¬ Leads .author rest → ¬ Leads .committer rest →
      Reads oid lines (.error (.missingSignature oid .committer))
  | malformedCommitter {tree parents author value rest} :
      Authored tree parents author lines ((Header.committer.lead ++ value) :: rest) →
      ¬ Signature.IsWellFormed value →
      Reads oid lines (.error (.malformedSignature oid .committer (Utf8.lossy value)))
  | commit {tree parents author committer value rest message} :
      Authored tree parents author lines ((Header.committer.lead ++ value) :: rest) →
      Signature.Spelled value committer → Message rest message →
      Reads oid lines (.ok ⟨oid, tree, parents, author, committer, Utf8.lossy (Bytes.trim message)⟩)

variable {oid tree : ObjectId} {parents : List ObjectId} {author : Signature} {header : Header}
  {lines rest : List Bytes} {value : Bytes}

@[simp] theorem value?_lead (header : Header) (value : Bytes) :
    header.value? (header.lead ++ value) = some value :=
  Bytes.after?_append _ _

theorem value?_of_not_leads {line : Bytes} (h : ¬ Leads header (line :: rest)) :
    header.value? line = none := by
  cases hvalue : header.value? line with
  | none => rfl
  | some value => exact absurd ⟨value, rest, by rw [Bytes.eq_append_of_after? hvalue]⟩ h

theorem eq_of_lead_append {header other : Header} {value value' : Bytes}
    (h : header.lead ++ value = other.lead ++ value') : header = other := by
  have hfirst (header : Header) (value : Bytes) :
      (header.lead ++ value).head? = header.lead.head? := by cases header <;> rfl
  have hsame := congrArg List.head? h
  rw [hfirst, hfirst] at hsame
  revert hsame
  cases header <;> cases other <;> decide

theorem not_leads_of_ne {other : Header} (h : header ≠ other) :
    ¬ Leads header ((other.lead ++ value) :: rest) := by
  rintro ⟨value', rest', heq⟩
  exact h (eq_of_lead_append (List.cons.inj heq).1.symm)

theorem takeTree_named {digits : Bytes} (h : ObjectId.Named digits tree) :
    takeTree oid ((Header.tree.lead ++ digits) :: rest) = .ok (tree, rest) := by
  simp only [takeTree, value?_lead, objectId, ObjectId.ofHex_of_named h]
  rfl

theorem takeTree_misnamed {digits : Bytes} {e : ObjectIdError} (h : ObjectId.Misnamed digits e) :
    takeTree oid ((Header.tree.lead ++ digits) :: rest) =
      .error (.invalidObjectId oid .tree e) := by
  simp only [takeTree, value?_lead, objectId, ObjectId.ofHex_of_misnamed h]
  rfl

theorem takeTree_of_not_leads (h : ¬ Leads .tree lines) :
    takeTree oid lines = .error (.missingTree oid) := by
  cases lines with
  | nil => rfl
  | cons line lines => rw [takeTree, value?_of_not_leads h]

theorem takeParents_of_not_leads (h : ¬ Leads .parent rest) :
    takeParents oid rest = .ok ([], rest) := by
  cases rest with
  | nil => rfl
  | cons line lines => rw [takeParents, value?_of_not_leads h]

theorem takeParents_misnamed {digits : Bytes} {e : ObjectIdError}
    (h : ObjectId.Misnamed digits e) :
    takeParents oid ((Header.parent.lead ++ digits) :: rest) =
      .error (.invalidObjectId oid .parent e) := by
  simp only [takeParents, value?_lead, objectId, ObjectId.ofHex_of_misnamed h]
  rfl

theorem takeParents_append {names : List Bytes} (h : List.Forall₂ ObjectId.Named names parents)
    (rest : List Bytes) :
    takeParents oid (names.map (Header.parent.lead ++ ·) ++ rest) =
      (takeParents oid rest).map fun found => (parents ++ found.1, found.2) := by
  induction h with
  | nil => cases h : takeParents oid rest <;> simp [h, Except.map]
  | cons hname _ ih =>
      simp only [List.map_cons, List.cons_append, takeParents, value?_lead, objectId,
        ObjectId.ofHex_of_named hname, ih]
      cases takeParents oid rest <;> rfl

theorem refuseTree_lead : refuseTree oid ((Header.tree.lead ++ value) :: rest) =
    .error (.duplicateTree oid) := by
  rw [refuseTree, value?_lead]

theorem refuseTree_of_not_leads (h : ¬ Leads .tree rest) : refuseTree oid rest = .ok () := by
  cases rest with
  | nil => rfl
  | cons line lines => rw [refuseTree, value?_of_not_leads h]

theorem takeSignature_of_not_leads (h : ¬ Leads header rest) :
    takeSignature oid header rest = .error (.missingSignature oid header) := by
  cases rest with
  | nil => rfl
  | cons line lines => rw [takeSignature, value?_of_not_leads h]

theorem takeSignature_malformed (h : ¬ Signature.IsWellFormed value) :
    takeSignature oid header ((header.lead ++ value) :: rest) =
      .error (.malformedSignature oid header (Utf8.lossy value)) := by
  simp only [takeSignature, value?_lead, Signature.parse_eq_none_iff.mpr h]

theorem takeSignature_spelled {signature : Signature} (h : Signature.Spelled value signature) :
    takeSignature oid header ((header.lead ++ value) :: rest) =
      .ok (signature, rest.dropWhile fun line => (header.value? line).isSome) := by
  simp only [takeSignature, value?_lead, Signature.parse_eq_some_iff.mpr h]

theorem dropWhile_again (again : List Bytes) (h : ¬ Leads header rest) :
    (again.map (header.lead ++ ·) ++ rest).dropWhile (fun line => (header.value? line).isSome) =
      rest := by
  induction again with
  | nil =>
      cases rest with
      | nil => rfl
      | cons line rest => simp [value?_of_not_leads h]
  | cons value again ih => simpa using ih

theorem parseLines_of_opened (h : Opened tree parents lines rest) (hparent : ¬ Leads .parent rest) :
    parseLines oid lines = (do
      refuseTree oid rest
      let (author, rest) ← takeSignature oid .author rest
      let (committer, rest) ← takeSignature oid .committer rest
      pure ⟨oid, tree, parents, author, committer, Utf8.lossy (Bytes.trim (bodyOf rest))⟩) := by
  obtain ⟨digits, names, rfl, htree, hnames⟩ := h
  rw [parseLines, List.cons_append, takeTree_named htree]
  simp [takeParents_append hnames, takeParents_of_not_leads hparent, Except.map, bind, Except.bind]

theorem parseLines_of_misnamed {digits : Bytes} {e : ObjectIdError}
    (h : Opened tree parents lines ((Header.parent.lead ++ digits) :: rest))
    (hdigits : ObjectId.Misnamed digits e) :
    parseLines oid lines = .error (.invalidObjectId oid .parent e) := by
  obtain ⟨digits, names, rfl, htree, hnames⟩ := h
  rw [parseLines, List.cons_append, takeTree_named htree]
  simp [takeParents_append hnames, takeParents_misnamed hdigits, Except.map, bind, Except.bind]

theorem parseLines_of_authored (h : Authored tree parents author lines rest)
    (hauthor : ¬ Leads .author rest) :
    parseLines oid lines = (do
      let (committer, rest) ← takeSignature oid .committer rest
      pure ⟨oid, tree, parents, author, committer, Utf8.lossy (Bytes.trim (bodyOf rest))⟩) := by
  obtain ⟨value, again, hopened, hvalue⟩ := h
  rw [List.cons_append] at hopened
  rw [parseLines_of_opened hopened (not_leads_of_ne (by decide)),
    refuseTree_of_not_leads (not_leads_of_ne (by decide)), takeSignature_spelled hvalue,
    dropWhile_again again hauthor]
  rfl

theorem bodyOf_dropWhile (header : Header) (lines : List Bytes) :
    bodyOf (lines.dropWhile fun line => (header.value? line).isSome) = bodyOf lines := by
  induction lines with
  | nil => rfl
  | cons line lines ih =>
      cases line with
      | nil =>
          -- A blank line has no header, so it is never dropped.
          have hblank : header.value? [] = none := by cases header <;> rfl
          simp [hblank]
      | cons b line =>
          rw [List.dropWhile_cons]
          split
          · exact ih
          · rfl

theorem bodyOf_append {headers : List Bytes} (h : [] ∉ headers) (lines : List Bytes) :
    bodyOf (headers ++ lines) = bodyOf lines := by
  induction headers with
  | nil => rfl
  | cons header headers ih =>
      simp only [List.mem_cons, not_or] at h
      simpa [bodyOf, Ne.symm h.1] using ih h.2

theorem bodyOf_of_message {message : Bytes} (h : Message lines message) :
    bodyOf lines = message := by
  cases h with
  | blank heq hheaders => rw [heq, bodyOf_append hheaders]; rfl
  | missing hlines => rw [← List.append_nil lines, bodyOf_append hlines]; rfl

theorem parseLines_of_reads {r : Except ParseError Commit} (h : Reads oid lines r) :
    parseLines oid lines = r := by
  cases h with
  | missingTree htree => rw [parseLines, takeTree_of_not_leads htree]; rfl
  | invalidTree heq hdigits => rw [heq, parseLines, takeTree_misnamed hdigits]; rfl
  | invalidParent hopened hdigits => exact parseLines_of_misnamed hopened hdigits
  | duplicateTree hopened htree =>
      obtain ⟨value, rest, rfl⟩ := htree
      rw [parseLines_of_opened hopened (not_leads_of_ne (by decide)), refuseTree_lead]
      rfl
  | missingAuthor hopened hparent htree hauthor =>
      rw [parseLines_of_opened hopened hparent, refuseTree_of_not_leads htree,
        takeSignature_of_not_leads hauthor]
      rfl
  | malformedAuthor hopened hvalue =>
      rw [parseLines_of_opened hopened (not_leads_of_ne (by decide)),
        refuseTree_of_not_leads (not_leads_of_ne (by decide)), takeSignature_malformed hvalue]
      rfl
  | missingCommitter hauthored hauthor hcommitter =>
      rw [parseLines_of_authored hauthored hauthor, takeSignature_of_not_leads hcommitter]
      rfl
  | malformedCommitter hauthored hvalue =>
      rw [parseLines_of_authored hauthored (not_leads_of_ne (by decide)),
        takeSignature_malformed hvalue]
      rfl
  | commit hauthored hvalue hmessage =>
      rw [parseLines_of_authored hauthored (not_leads_of_ne (by decide)),
        takeSignature_spelled hvalue]
      simp only [pure, Except.pure, bind, Except.bind, bodyOf_dropWhile, bodyOf_of_message hmessage]

theorem exists_again (header : Header) (lines : List Bytes) :
    ∃ (again rest : List Bytes), lines = again.map (header.lead ++ ·) ++ rest ∧
      ¬ Leads header rest := by
  induction lines with
  | nil => exact ⟨[], [], rfl, fun ⟨_, _, h⟩ => nomatch h⟩
  | cons line lines ih =>
      obtain ⟨value, rest, heq⟩ | hnone := Classical.em (Leads header (line :: lines))
      · obtain ⟨rfl, -⟩ := List.cons.inj heq
        obtain ⟨again, rest, rfl, hrest⟩ := ih
        exact ⟨value :: again, rest, rfl, hrest⟩
      · exact ⟨[], _, rfl, hnone⟩

theorem named_or_first_misnamed (names : List Bytes) :
    (∃ parents, List.Forall₂ ObjectId.Named names parents) ∨
    ∃ before digits after parents e, names = before ++ digits :: after ∧
      List.Forall₂ ObjectId.Named before parents ∧ ObjectId.Misnamed digits e := by
  induction names with
  | nil => exact .inl ⟨[], .nil⟩
  | cons digits names ih =>
      obtain ⟨id, hid⟩ | ⟨e, he⟩ := ObjectId.named_or_misnamed digits
      · obtain ⟨parents, hparents⟩ | ⟨before, bad, after, parents, e, rfl, hbefore, hbad⟩ := ih
        · exact .inl ⟨id :: parents, .cons hid hparents⟩
        · exact .inr ⟨digits :: before, bad, after, id :: parents, e, rfl, .cons hid hbefore, hbad⟩
      · exact .inr ⟨[], digits, names, [], e, rfl, .nil, he⟩

theorem exists_message (lines : List Bytes) : ∃ message, Message lines message := by
  by_cases h : [] ∈ lines
  · obtain ⟨headers, message, heq, hheaders⟩ := List.eq_append_cons_of_mem h
    exact ⟨_, .blank heq hheaders⟩
  · exact ⟨[], .missing h⟩

theorem spelled_or_malformed (value : Bytes) :
    (∃ s, Signature.Spelled value s) ∨ ¬ Signature.IsWellFormed value := by
  cases h : Signature.parse value with
  | none => exact .inr (Signature.parse_eq_none_iff.mp h)
  | some s => exact .inl ⟨s, Signature.parse_eq_some_iff.mp h⟩

theorem exists_reads_of_authored (h : Authored tree parents author lines rest)
    (hauthor : ¬ Leads .author rest) : ∃ r, Reads oid lines r := by
  obtain ⟨value, rest, rfl⟩ | hcommitter := Classical.em (Leads .committer rest)
  · obtain ⟨committer, hvalue⟩ | hmalformed := spelled_or_malformed value
    · obtain ⟨message, hmessage⟩ := exists_message rest
      exact ⟨_, .commit h hvalue hmessage⟩
    · exact ⟨_, .malformedCommitter h hmalformed⟩
  · exact ⟨_, .missingCommitter h hauthor hcommitter⟩

theorem exists_reads_of_opened (h : Opened tree parents lines rest)
    (hparent : ¬ Leads .parent rest) : ∃ r, Reads oid lines r := by
  obtain htree | htree := Classical.em (Leads .tree rest)
  · exact ⟨_, .duplicateTree h htree⟩
  obtain ⟨value, rest, rfl⟩ | hauthor := Classical.em (Leads .author rest)
  · obtain ⟨author, hvalue⟩ | hmalformed := spelled_or_malformed value
    · obtain ⟨again, rest, rfl, hrest⟩ := exists_again .author rest
      exact exists_reads_of_authored ⟨value, again, h, hvalue⟩ hrest
    · exact ⟨_, .malformedAuthor h hmalformed⟩
  · exact ⟨_, .missingAuthor h hparent htree hauthor⟩

theorem exists_reads (oid : ObjectId) (lines : List Bytes) : ∃ r, Reads oid lines r := by
  obtain ⟨digits, rest, rfl⟩ | htree := Classical.em (Leads .tree lines)
  · obtain ⟨tree, hname⟩ | ⟨e, he⟩ := ObjectId.named_or_misnamed digits
    · obtain ⟨names, rest, rfl, hparent⟩ := exists_again .parent rest
      obtain ⟨parents, hparents⟩ | ⟨before, bad, after, parents, e, rfl, hbefore, hbad⟩ :=
        named_or_first_misnamed names
      · exact exists_reads_of_opened ⟨digits, names, rfl, hname, hparents⟩ hparent
      · have heq : (Header.tree.lead ++ digits) ::
            ((before ++ bad :: after).map (Header.parent.lead ++ ·) ++ rest) =
            (Header.tree.lead ++ digits) :: before.map (Header.parent.lead ++ ·) ++
              (Header.parent.lead ++ bad) :: (after.map (Header.parent.lead ++ ·) ++ rest) := by
          simp
        exact ⟨_, .invalidParent ⟨digits, before, heq, hname, hbefore⟩ hbad⟩
    · exact ⟨_, .invalidTree rfl he⟩
  · exact ⟨_, .missingTree htree⟩

theorem reads_iff {r : Except ParseError Commit} :
    Reads oid lines r ↔ parseLines oid lines = r := by
  constructor
  · exact parseLines_of_reads
  · rintro rfl
    obtain ⟨r, hr⟩ := exists_reads oid lines
    rwa [parseLines_of_reads hr]

theorem parse_eq_iff (oid : ObjectId) (raw : Bytes) (r : Except ParseError Commit) :
    parse oid raw = r ↔ Reads oid (Fields.split Bytes.newline raw) r :=
  reads_iff.symm

end ChatSpace.Commit
